import CalendarRollup.Proofs.Instant.Readback
import CalendarRollup.Proofs.Rollup.Rows
import CalendarRollup.Rollup.Payload

/-! Rows and requests tell time alike: the dates that rows may have are timestamps too, and a row's
timestamp can be a bound of a later request. -/
namespace CalendarRollup

namespace RollupResult

/-- The dates of rows are timestamps as requests have them, for the same instants. -/
theorem ofJson_of_dateInstant? {date : Json} {t : Instant} (read : dateInstant? date = some t) :
    Instant.ofJson date = .ok t := by
  cases date with
  | number n =>
    have hnumber : Instant.ofNumber? n = some t := read
    simp only [Instant.ofJson, hnumber]
  | text s =>
    have htext := Instant.ofText?_of_form (by simp [Instant.Parser.forms])
      (show Instant.Parser.rfc3339 s.toList = some t from read)
    rw [String.ofList_toList] at htext
    rw [Instant.ofJson, Instant.ofText, htext]
  | _ => cases read

/-- A row's timestamp stands for an instant: the row wrapped a date that is read as that instant,
here and by a request, and the text that the row has for it now is read by a request, under any key,
as the instant without its fraction of a second. -/
def StandsFor (value : Json) (row : Json.Members) (t : Instant) : Prop :=
  ∃ date text, (value.get? "timestamp").bind (·.get? "$date") = some date ∧
    dateInstant? date = some t ∧ Instant.ofJson date = .ok t ∧
    row.get? "timestamp" = some (.text text) ∧ Instant.ofJson (.text text) = .ok t.wholeSecond ∧
    ∀ (payload : Json.Members) (key : String), payload.get? key = some (.text text) →
      Payload.timestamp? key payload = .ok (some t.wholeSecond)

theorem exists_standsFor {value : Json} {row : Json.Members} (ok : reshapeRow value = .ok row) :
    ∃ t, StandsFor value row t := by
  obtain ⟨members, t, wraps, rfl⟩ := reshapeRow_eq_ok_iff.mp ok
  cases wraps with
  | row timestamp wrapped dates =>
    have hinstant := dateInstant?_eq_some_iff.mpr dates
    have hsecond := Instant.ofText_toSecond dates.isOnClock
    refine ⟨t, _, t.toSecond, ?_, hinstant, ofJson_of_dateInstant? hinstant,
      Json.Members.get?_insert_self .., hsecond, fun payload key hkey => ?_⟩
    · simp only [Json.get?, timestamp, Option.bind_some, wrapped]
    · simp only [Payload.timestamp?, hkey, Instant.ofJson, hsecond]
      rfl

/-- Every row of a result stands for an instant. The text that it was given is the instant's date
and time of day with no fraction, in any year, and in a leap second too. -/
theorem rows_standFor {body idColumn : String} {ids : IdFilter} {result : RollupResult}
    (ok : ofBody body idColumn ids = .ok result) :
    ∃ values, Json.IsTextOf (.array values) body ∧
      List.Forall₂ (fun value row => ∃ t, StandsFor value row t ∧
        t.wholeSecond.date = t.date ∧ t.wholeSecond.clock = { t.clock with nano := 0 })
        values result.rows := by
  obtain ⟨values, array, rows, hrows, rfl⟩ := ofBody_eq_ok_iff.mp ok
  refine ⟨values, array, (reshapeRows_eq_ok_iff.mp hrows).imp fun value row hrow => ?_⟩
  obtain ⟨t, stands⟩ := exists_standsFor hrow
  exact ⟨t, stands, rfl, t.clock_wholeSecond⟩

/-- Two rows: the first was written half an hour into the year 0, but that is the year before in
universal time, and the other is of the last millisecond before 1970. -/
def earlyBody : String :=
  "[\x7b\"timestamp\": \x7b\"$date\": \"0000-01-01T00:30:00.5+01:00\"\x7d\x7d, " ++
    "\x7b\"timestamp\": \x7b\"$date\": -1\x7d\x7d]"

theorem rows_standFor_early : ∃ result, ofBody earlyBody "sensor" (.single "b") = .ok result ∧
    result.toJson.render = "\x7b\"sensor\":\"b\",\"d\":[" ++
      "\x7b\"timestamp\":\"-0001-12-31 23:30:00\"\x7d," ++
      "\x7b\"timestamp\":\"1969-12-31 23:59:59\"\x7d]\x7d" ∧
    ∃ values, Json.IsTextOf (.array values) earlyBody ∧
      List.Forall₂ (fun value row => ∃ t, StandsFor value row t ∧
        t.wholeSecond.date = t.date ∧ t.wholeSecond.clock = { t.clock with nano := 0 })
        values result.rows := by
  have hrendered : (ofBody earlyBody "sensor" (.single "b")).toOption.map (·.toJson.render) =
      some ("\x7b\"sensor\":\"b\",\"d\":[" ++
        "\x7b\"timestamp\":\"-0001-12-31 23:30:00\"\x7d," ++
        "\x7b\"timestamp\":\"1969-12-31 23:59:59\"\x7d]\x7d") := by decide +kernel
  cases hbody : ofBody earlyBody "sensor" (.single "b") with
  | error fault =>
    rw [hbody] at hrendered
    cases hrendered
  | ok result =>
    rw [hbody] at hrendered
    exact ⟨result, rfl, Option.some_inj.mp hrendered, rows_standFor hbody⟩

end RollupResult
end CalendarRollup
