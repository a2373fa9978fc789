import Mathlib.Data.List.Forall2
import CalendarRollup.Fault
import CalendarRollup.Proofs.Instant.Rfc3339
import CalendarRollup.Proofs.Json.Reading

/-! Which rows an answer may have, and what becomes of them. -/
namespace CalendarRollup.RollupResult

/-- A whole number of milliseconds from the year -262143 to the year 262142, or a text of RFC 3339
as it is. -/
inductive IsDate : Json → Prop
  | millis {n : Int} {exact : Json.IsExact n}
    (range : -8334601228800000 ≤ n ∧ n ≤ 8210266876799999) : IsDate (.number (.integer n exact))
  | text {s : String} (text : Instant.Rfc3339) (chars : text.chars = s.toList) : IsDate (.text s)

/-- A row whose timestamp is an object with a date. -/
inductive IsDated : Json → Prop
  | row {members stamp : Json.Members} {date : Json}
    (timestamp : members.get? "timestamp" = some (.object stamp))
    (wrapped : Json.Members.get? stamp "$date" = some date) (isDate : IsDate date) :
    IsDated (.object members)

/-- The instant that a date stands for. -/
inductive Dates : Json → Instant → Prop
  | millis {n : Int} {exact : Json.IsExact n} {t : Instant}
    (range : -8334601228800000 ≤ n ∧ n ≤ 8210266876799999) (seconds : t.seconds = n / 1000)
    (nano : (t.nano : Int) = n % 1000 * 1000000) : Dates (.number (.integer n exact)) t
  | text {s : String} (text : Instant.Rfc3339) (chars : text.chars = s.toList) :
    Dates (.text s) text.instant

/-- A dated row has its members and the date's instant. -/
inductive Wraps : Json → Json.Members → Instant → Prop
  | row {members stamp : Json.Members} {date : Json} {t : Instant}
    (timestamp : members.get? "timestamp" = some (.object stamp))
    (wrapped : Json.Members.get? stamp "$date" = some date) (dates : Dates date t) :
    Wraps (.object members) members t

/-- A text tells an instant to the second: the date and the time of day in universal time. -/
def Tells (text : String) (t : Instant) : Prop :=
  ∃ (date : Date) (time : ClockTime), Instant.ofClock? date time 0 = some t ∧
    text = String.ofList (date.chars ++ ' ' :: time.chars)

/-- The members with a text for their timestamp, and else as they are. -/
def written (members : Json.Members) (text : String) : Json.Members :=
  members.map fun member => (member.1, if member.1 = "timestamp" then .text text else member.2)

/-- What becomes of a row: its timestamp is told to the second, nothing else changes. -/
def Reshaped (value : Json) (row : Json.Members) : Prop :=
  ∃ members t text, Wraps value members t ∧ Tells text t ∧ members.keys.Nodup ∧
    row = written members text

/-- Dates of rows are on the clock, with a second 60 at the end of a minute only. -/
theorem Dates.isOnClock {date : Json} {t : Instant} (dates : Dates date t) : t.IsOnClock := by
  cases dates with
  | millis range seconds nano =>
    exact Instant.isOnClock_of_lt (by unfold Instant.secondNanos; omega)
  | text text chars => exact text.isOnClock

theorem Wraps.isOnClock {value : Json} {members : Json.Members} {t : Instant}
    (wraps : Wraps value members t) : t.IsOnClock := by
  cases wraps with
  | row timestamp wrapped dates => exact dates.isOnClock

theorem tells_toSecond {t : Instant} (onClock : t.IsOnClock) : Tells t.toSecond t :=
  ⟨t.date, t.clock, Instant.ofClock?_of_isOnClock onClock, rfl⟩

theorem dateInstant?_eq_some_iff {date : Json} {t : Instant} :
    dateInstant? date = some t ↔ Dates date t := by
  constructor
  · intro h
    cases date with
    | number n =>
      cases n with
      | integer n exact =>
        obtain ⟨hrange, hseconds, hnano⟩ := Instant.ofMillis?_eq_some_iff.mp h
        exact .millis hrange hseconds hnano
      | float x => cases h
    | text s =>
      obtain ⟨text, hchars, rfl⟩ := Instant.Rfc3339.rfc3339_eq_some_iff.mp h
      exact .text text hchars
    | _ => cases h
  · intro h
    cases h with
    | millis range seconds nano =>
      exact Instant.ofMillis?_eq_some_iff.mpr ⟨range, seconds, nano⟩
    | text text chars => exact Instant.Rfc3339.rfc3339_eq_some_iff.mpr ⟨text, chars, rfl⟩

theorem exists_dates_iff {date : Json} : (∃ t, Dates date t) ↔ IsDate date := by
  constructor
  · rintro ⟨t, dates⟩
    cases dates with
    | millis range _ _ => exact .millis range
    | text text chars => exact .text text chars
  · intro isDate
    cases isDate with
    | millis range =>
      obtain ⟨t, ht⟩ := Instant.exists_ofMillis? range.1 range.2
      exact ⟨t, dateInstant?_eq_some_iff.mp ht⟩
    | text text chars => exact ⟨text.instant, .text text chars⟩

theorem exists_wraps_iff {value : Json} : (∃ members t, Wraps value members t) ↔ IsDated value := by
  constructor
  · rintro ⟨members, t, wraps⟩
    cases wraps with
    | row timestamp wrapped dates =>
      exact .row timestamp wrapped (exists_dates_iff.mp ⟨t, dates⟩)
  · intro dated
    cases dated with
    | row timestamp wrapped isDate =>
      obtain ⟨t, dates⟩ := exists_dates_iff.mpr isDate
      exact ⟨_, t, .row timestamp wrapped dates⟩

theorem wrappedDate?_eq_some_iff {members : Json.Members} {date : Json} :
    wrappedDate? members = some date ↔
      ∃ stamp, members.get? "timestamp" = some (.object stamp) ∧
        Json.Members.get? stamp "$date" = some date := by
  unfold wrappedDate?
  constructor
  · intro h
    obtain ⟨value, hvalue, hdate⟩ := Option.bind_eq_some_iff.mp h
    cases value with
    | object stamp => exact ⟨stamp, hvalue, hdate⟩
    | _ => cases hdate
  · rintro ⟨stamp, hstamp, hdate⟩
    exact Option.bind_eq_some_iff.mpr ⟨_, hstamp, hdate⟩

theorem reshapeRow_eq_ok_iff {value : Json} {row : Json.Members} :
    reshapeRow value = .ok row ↔
      ∃ members t, Wraps value members t ∧
        row = Json.Members.insert members "timestamp" (.text t.toSecond) := by
  constructor
  · intro h
    cases value with
    | object members =>
      simp only [reshapeRow] at h
      split at h
      next => cases h
      next date hdate =>
        obtain ⟨stamp, hstamp, hwrapped⟩ := wrappedDate?_eq_some_iff.mp hdate
        split at h
        next => cases h
        next t ht =>
          cases h
          exact ⟨members, t, .row hstamp hwrapped (dateInstant?_eq_some_iff.mp ht), rfl⟩
    | _ => cases h
  · rintro ⟨members, t, wraps, rfl⟩
    cases wraps with
    | row timestamp wrapped dates =>
      simp only [reshapeRow, wrappedDate?_eq_some_iff.mpr ⟨_, timestamp, wrapped⟩,
        dateInstant?_eq_some_iff.mpr dates]

example : reshapeRow (.object [("x", .null),
      ("timestamp", .object [("$date", .text "2024-01-01T00:30:00.5+01:00")])]) =
    .ok [("x", .null), ("timestamp", .text "2023-12-31 23:30:00")] := by
  rfl

theorem get?_mem_keys {members : Json.Members} {key : String} {value : Json}
    (h : members.get? key = some value) : key ∈ members.keys := by
  obtain ⟨member, hfind, _⟩ := Option.map_eq_some_iff.mp h
  have hkey : member.1 = key := by simpa using List.find?_some hfind
  exact hkey ▸ List.mem_map_of_mem (List.mem_of_find?_eq_some hfind)

theorem reshaped_of_ok {value : Json} {row : Json.Members} (distinct : value.Distinct)
    (ok : reshapeRow value = .ok row) : Reshaped value row := by
  obtain ⟨members, t, wraps, rfl⟩ := reshapeRow_eq_ok_iff.mp ok
  refine ⟨members, t, t.toSecond, wraps, tells_toSecond wraps.isOnClock, ?_⟩
  cases wraps with
  | row timestamp wrapped dates =>
    cases distinct with
    | object keys within =>
      exact ⟨keys, Json.Members.insert_eq_map keys (get?_mem_keys timestamp)⟩

theorem exists_reshapeRow_iff {value : Json} :
    (∃ row, reshapeRow value = .ok row) ↔ IsDated value := by
  rw [← exists_wraps_iff]
  constructor
  · rintro ⟨row, h⟩
    obtain ⟨members, t, wraps, _⟩ := reshapeRow_eq_ok_iff.mp h
    exact ⟨members, t, wraps⟩
  · rintro ⟨members, t, wraps⟩
    exact ⟨_, reshapeRow_eq_ok_iff.mpr ⟨members, t, wraps, rfl⟩⟩

theorem reshapeRows_cons {first : Nat} {value : Json} {rest : List Json} :
    reshapeRows first (value :: rest) =
      match reshapeRow value with
      | .error fault => .error (.row first fault)
      | .ok row => (reshapeRows (first + 1) rest).map (row :: ·) := by
  simp only [reshapeRows]
  cases reshapeRow value with
  | error fault => rfl
  | ok row => cases reshapeRows (first + 1) rest <;> rfl

theorem reshapeRows_eq_ok_iff {first : Nat} {values : List Json} {rows : List Json.Members} :
    reshapeRows first values = .ok rows ↔
      List.Forall₂ (fun value row => reshapeRow value = .ok row) values rows := by
  induction values generalizing first rows with
  | nil =>
    rw [List.forall₂_nil_left_iff]
    exact ⟨fun h => (Except.ok.inj h).symm, fun h => h ▸ rfl⟩
  | cons value rest ih =>
    rw [reshapeRows_cons, List.forall₂_cons_left_iff]
    constructor
    · intro h
      split at h
      next => cases h
      next row hrow =>
        cases htail : reshapeRows (first + 1) rest with
        | error fault => simp [htail, Except.map] at h
        | ok tail =>
          rw [htail] at h
          cases h
          exact ⟨row, tail, hrow, ih.mp htail, rfl⟩
    · rintro ⟨row, tail, hrow, htail, rfl⟩
      rw [hrow]
      simp only [ih.mpr htail]
      rfl

/-- A fault tells the first row that is not dated. -/
theorem reshapeRows_eq_error {first : Nat} {values : List Json} {fault : ResponseFault}
    (h : reshapeRows first values = .error fault) :
    ∃ place value rowFault, values[place]? = some value ∧ ¬ IsDated value ∧
      (∀ earlier < place, ∀ other, values[earlier]? = some other → IsDated other) ∧
      fault = .row (first + place) rowFault := by
  induction values generalizing first with
  | nil => cases h
  | cons value rest ih =>
    rw [reshapeRows_cons] at h
    split at h
    next rowFault hrow =>
      cases h
      refine ⟨0, value, rowFault, rfl, fun hdated => ?_, fun _ h => absurd h (Nat.not_lt_zero _),
        rfl⟩
      obtain ⟨row, hok⟩ := exists_reshapeRow_iff.mpr hdated
      cases hrow.symm.trans hok
    next row hrow =>
      cases htail : reshapeRows (first + 1) rest with
      | ok tail => simp [htail, Except.map] at h
      | error tailFault =>
        rw [htail] at h
        cases h
        obtain ⟨place, other, rowFault, hother, hundated, hearlier, hfault⟩ := ih htail
        refine ⟨place + 1, other, rowFault, hother, hundated, ?_, ?_⟩
        · intro earlier hlt before hbefore
          cases earlier with
          | zero =>
            cases hbefore
            exact exists_reshapeRow_iff.mp ⟨row, hrow⟩
          | succ earlier => exact hearlier earlier (by omega) before hbefore
        · rw [hfault]
          congr 1
          omega

theorem exists_reshapeRows_iff (first : Nat) {values : List Json} :
    (∃ rows, reshapeRows first values = .ok rows) ↔ ∀ value ∈ values, IsDated value := by
  constructor
  · rintro ⟨rows, h⟩ value hvalue
    obtain ⟨index, hindex, rfl⟩ := List.mem_iff_getElem.mp hvalue
    have hrows := reshapeRows_eq_ok_iff.mp h
    have hlt : index < rows.length := hrows.length_eq ▸ hindex
    exact exists_reshapeRow_iff.mp ⟨rows[index], hrows.get hindex hlt⟩
  · intro dated
    cases h : reshapeRows first values with
    | ok rows => exact ⟨rows, rfl⟩
    | error fault =>
      obtain ⟨place, value, _, hvalue, hundated, _⟩ := reshapeRows_eq_error h
      exact absurd (dated value (List.mem_of_getElem? hvalue)) hundated

section Body
variable {body idColumn : String} {ids : IdFilter} {values : List Json}

theorem ofBody_of_array (array : Json.IsTextOf (.array values) body) :
    ofBody body idColumn ids =
      (reshapeRows 0 values).map fun rows => { idColumn, ids, rows } := by
  simp only [ofBody, Json.parse?_eq_some_iff.mpr array]

theorem ofBody_eq_ok_iff {result : RollupResult} :
    ofBody body idColumn ids = .ok result ↔
      ∃ values, Json.IsTextOf (.array values) body ∧
        ∃ rows, reshapeRows 0 values = .ok rows ∧ result = ⟨idColumn, ids, rows⟩ := by
  constructor
  · intro h
    unfold ofBody at h
    split at h
    next => cases h
    next values array =>
      cases hrows : reshapeRows 0 values with
      | error fault => simp [hrows, Except.map] at h
      | ok rows =>
        rw [hrows] at h
        exact ⟨values, Json.parse?_eq_some_iff.mp array, rows, hrows, (Except.ok.inj h).symm⟩
    next => cases h
  · rintro ⟨values, array, rows, hrows, rfl⟩
    rw [ofBody_of_array array, hrows]
    rfl

theorem reshapeRows_eq_error_of_body {fault : ResponseFault}
    (array : Json.IsTextOf (.array values) body)
    (failed : ofBody body idColumn ids = .error fault) : reshapeRows 0 values = .error fault := by
  rw [ofBody_of_array array] at failed
  cases hrows : reshapeRows 0 values with
  | error other =>
    rw [hrows] at failed
    exact congrArg _ (Except.error.inj failed)
  | ok rows =>
    rw [hrows] at failed
    cases failed

end Body

/-- Just the bodies that are the text of an array of dated rows have a result. It has the id column
and the ids that were asked for, and the rows in order, each with its keys in order and nothing
changed but the timestamp, which is its date in universal time to the second. For any other array
the fault tells the first row that is not dated. -/
theorem ofBody_rows (body idColumn : String) (ids : IdFilter) :
    ((∃ result, ofBody body idColumn ids = .ok result) ↔
      ∃ values, Json.IsTextOf (.array values) body ∧ ∀ value ∈ values, IsDated value) ∧
    (∀ result, ofBody body idColumn ids = .ok result →
      result.idColumn = idColumn ∧ result.ids = ids ∧
      ∃ values, Json.IsTextOf (.array values) body ∧
        List.Forall₂ Reshaped values result.rows) ∧
    ∀ fault, ofBody body idColumn ids = .error fault →
      (Fault.response fault).message = "Malformed backend response: " ++ fault.message ∧
      ∀ values, Json.IsTextOf (.array values) body →
        ∃ index value rowFault, values[index]? = some value ∧ ¬ IsDated value ∧
          (∀ earlier < index, ∀ other, values[earlier]? = some other → IsDated other) ∧
          fault = .row index rowFault ∧
          fault.message = "row " ++ Numeral.text index ++ ": " ++ rowFault.message := by
  refine ⟨?_, ?_, ?_⟩
  · simp only [ofBody_eq_ok_iff, ← exists_reshapeRows_iff 0]
    constructor
    · rintro ⟨_, values, array, rows, hrows, _⟩
      exact ⟨values, array, rows, hrows⟩
    · rintro ⟨values, array, rows, hrows⟩
      exact ⟨_, values, array, rows, hrows, rfl⟩
  · intro result ok
    obtain ⟨values, array, rows, hrows, rfl⟩ := ofBody_eq_ok_iff.mp ok
    have hdistinct : ∀ value ∈ values, value.Distinct := by
      cases array.distinct with
      | array within => exact within
    have hboth := (List.forall₂_and_left ..).mpr ⟨hdistinct, reshapeRows_eq_ok_iff.mp hrows⟩
    exact ⟨rfl, rfl, values, array, hboth.imp fun _ _ h => reshaped_of_ok h.1 h.2⟩
  · refine fun fault failed => ⟨rfl, fun values array => ?_⟩
    obtain ⟨place, value, rowFault, hvalue, hundated, hearlier, hfault⟩ :=
      reshapeRows_eq_error (reshapeRows_eq_error_of_body array failed)
    rw [Nat.zero_add] at hfault
    exact ⟨place, value, rowFault, hvalue, hundated, hearlier, hfault, by rw [hfault]; rfl⟩

end CalendarRollup.RollupResult
