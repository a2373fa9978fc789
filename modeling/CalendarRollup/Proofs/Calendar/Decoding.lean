import CalendarRollup.Calendar.Json
import CalendarRollup.Config.Rollup
import CalendarRollup.Proofs.Calendar.Names
import CalendarRollup.Proofs.Calendar.Sampling
import CalendarRollup.Proofs.Json.Distinct
import CalendarRollup.Proofs.Rollup.Requests

/-! Which JSON values are calendars, and that a calendar can be written and read back. What is read
stays within the words that are computed with. -/
namespace CalendarRollup

namespace CalendarSpec
variable {n : Int} {unit : TimeUnit} {spec : CalendarSpec}

theorem make_eq_ok_iff : make n unit = .ok spec ↔ n = spec.range ∧ unit = spec.unit := by
  constructor
  · intro h
    unfold make at h
    split at h
    next hn =>
      cases h
      exact ⟨(Int.toNat_of_nonneg (by omega)).symm, rfl⟩
    next => cases h
  · rintro ⟨rfl, rfl⟩
    exact spec.make_range

theorem exists_make_iff : (∃ spec, make n unit = .ok spec) ↔ 1 ≤ n ∧ n ≤ 4294967295 := by
  constructor
  · rintro ⟨spec, h⟩
    obtain ⟨rfl, _⟩ := make_eq_ok_iff.mp h
    have hpos := spec.range_pos
    have hlt := spec.range_lt
    omega
  · intro hn
    exact ⟨⟨n.toNat, unit, by omega, by omega⟩,
      make_eq_ok_iff.mpr ⟨(Int.toNat_of_nonneg (by omega)).symm, rfl⟩⟩

end CalendarSpec

/-- Where no key is there twice, the entries are what is found under their keys. -/
theorem mem_iff_lookup {α β : Type} [BEq α] [LawfulBEq α] {entries : List (α × β)}
    (nodup : (entries.map Prod.fst).Nodup) {entry : α × β} :
    entry ∈ entries ↔ entries.lookup entry.1 = some entry.2 := by
  obtain ⟨key, value⟩ := entry
  induction entries with
  | nil => simp
  | cons first rest ih =>
    obtain ⟨k, v⟩ := first
    obtain ⟨hnew, hrest⟩ := List.nodup_cons.mp nodup
    by_cases hk : key = k
    · subst hk
      have habsent : (key, value) ∉ rest := fun h => hnew (List.mem_map.mpr ⟨_, h, rfl⟩)
      simp [habsent, eq_comm]
    · have hother : (key == k) = false := by simpa using hk
      simp [List.lookup_cons, hk, hother, ih hrest]

namespace Setting
variable {s : Setting}

theorem asText_eq_ok_iff {text : String} : asText s = .ok text ↔ s = .text text := by
  cases s <;> simp [asText]

theorem asIntegerIn_eq_ok_iff {low high i : Int} :
    asIntegerIn low high s = .ok i ↔ s = .integer i ∧ low ≤ i ∧ i ≤ high := by
  cases s with
  | integer value =>
    simp only [asIntegerIn, integer.injEq]
    split
    next h =>
      rw [Except.ok.injEq]
      constructor
      · rintro rfl
        exact ⟨rfl, h⟩
      · exact fun h => h.1
    next h =>
      constructor
      · intro hfault
        cases hfault
      · rintro ⟨rfl, hi⟩
        exact absurd hi h
  | _ => simp [asIntegerIn]

theorem asTimeUnit_eq_ok_iff {unit : TimeUnit} :
    asTimeUnit s = .ok unit ↔ ∃ text, s = .text text ∧ unit.Names text := by
  unfold asTimeUnit
  rw [Except.bind_eq_ok]
  simp only [asText_eq_ok_iff, Except.mapError_eq_ok_iff, TimeUnit.parse_eq_ok_iff]

theorem checked_eq_ok_iff {α : Type} {decoder : Decoder α} :
    checked decoder s = .ok () ↔ ∃ a, decoder s = .ok a := by
  unfold checked
  cases decoder s <;> simp [Except.map]

namespace Fields
variable {fields : Fields} {name : String} {α : Type}

theorem required_eq_ok_iff {decoder : Decoder α} {a : α} :
    fields.required name decoder = .ok a ↔
      ∃ s, fields.entries.lookup name = some s ∧ decoder s = .ok a := by
  unfold required
  cases fields.entries.lookup name <;> simp

/-- No entry is refused, and no item of a list is left over. -/
theorem check_eq_ok_iff {checks : List (String × Decoder Unit)} :
    fields.check checks = .ok () ↔
      (∀ entry ∈ fields.entries, ∀ decoder, checks.lookup entry.1 = some decoder →
        decoder entry.2 = .ok ()) ∧ fields.surplus = false := by
  unfold check
  rw [Except.check_bind_eq_ok_iff]
  refine and_congr (Except.forM_eq_ok_iff.trans ⟨fun h entry hentry decoder hdecoder => ?_,
    fun h entry hentry => ?_⟩) ?_
  · simpa [hdecoder] using h entry hentry
  · split
    next decoder hdecoder => exact h entry hentry decoder hdecoder
    next => rfl
  · cases fields.surplus <;> simp

end Fields

/-- Where no field is there twice, a calendar has the range and the unit of its fields. -/
theorem asCalendar_eq_ok_iff {dialect : Dialect} {fields : Fields} {spec : CalendarSpec}
    (asFields_eq : asFields dialect ["range", "unit"] s = .ok fields)
    (nodup : (fields.entries.map Prod.fst).Nodup) :
    asCalendar dialect s = .ok spec ↔ fields.surplus = false ∧
      fields.entries.lookup "range" = some (.integer spec.range) ∧
      ∃ text, fields.entries.lookup "unit" = some (.text text) ∧ spec.unit.Names text := by
  unfold asCalendar
  rw [asFields_eq]
  constructor
  · intro h
    obtain ⟨hcheck, h⟩ := Except.check_bind_eq_ok_iff.mp h
    obtain ⟨n, hrange, h⟩ := Except.bind_eq_ok.mp h
    obtain ⟨unit, hunit, h⟩ := Except.bind_eq_ok.mp h
    obtain ⟨_, hfirst, hinteger⟩ := Fields.required_eq_ok_iff.mp hrange
    obtain ⟨_, hsecond, htext⟩ := Fields.required_eq_ok_iff.mp hunit
    obtain ⟨rfl, _⟩ := asIntegerIn_eq_ok_iff.mp hinteger
    obtain ⟨text, rfl, hnames⟩ := asTimeUnit_eq_ok_iff.mp htext
    obtain ⟨rfl, rfl⟩ := CalendarSpec.make_eq_ok_iff.mp (Except.mapError_eq_ok_iff.mp h)
    exact ⟨(Fields.check_eq_ok_iff.mp hcheck).2, hfirst, text, hsecond, hnames⟩
  · rintro ⟨hsurplus, hrange, text, hunit, hnames⟩
    have hinteger : asIntegerIn (-9223372036854775808) 9223372036854775807 (.integer spec.range) =
        .ok (spec.range : Int) :=
      asIntegerIn_eq_ok_iff.mpr ⟨rfl, by have := spec.range_lt; omega⟩
    have htext : asTimeUnit (.text text) = .ok spec.unit :=
      asTimeUnit_eq_ok_iff.mpr ⟨text, rfl, hnames⟩
    refine Except.check_bind_eq_ok_iff.mpr ⟨Fields.check_eq_ok_iff.mpr ⟨?_, hsurplus⟩, ?_⟩
    · rintro ⟨key, value⟩ hentry decoder hdecoder
      have hfound := (mem_iff_lookup nodup).mp hentry
      by_cases hkey : key = "range"
      · subst hkey
        cases hrange.symm.trans hfound
        cases hdecoder
        exact checked_eq_ok_iff.mpr ⟨_, hinteger⟩
      · by_cases hother : key = "unit"
        · subst hother
          cases hunit.symm.trans hfound
          cases hdecoder
          exact checked_eq_ok_iff.mpr ⟨spec.unit, htext⟩
        · simp [List.lookup_cons, beq_false_of_ne hkey, beq_false_of_ne hother] at hdecoder
    · refine Except.bind_eq_ok.mpr ⟨_, Fields.required_eq_ok_iff.mpr ⟨_, hrange, hinteger⟩, ?_⟩
      refine Except.bind_eq_ok.mpr ⟨_, Fields.required_eq_ok_iff.mpr ⟨_, hunit, htext⟩, ?_⟩
      exact Except.mapError_eq_ok_iff.mpr (CalendarSpec.make_eq_ok_iff.mpr ⟨rfl, rfl⟩)

end Setting

namespace Json

theorem toSetting_eq_integer_iff {value : Json} {n : Int} :
    value.toSetting = .integer n ↔ ∃ exact, value = .number (.integer n exact) := by
  constructor
  · intro h
    cases value with
    | number number =>
      cases number with
      | integer i exact =>
        cases h
        exact ⟨exact, rfl⟩
      | float x => cases h
    | _ => cases h
  · rintro ⟨exact, rfl⟩
    rfl

theorem toSetting_eq_text_iff {value : Json} {text : String} :
    value.toSetting = .text text ↔ value = .text text := by
  constructor
  · intro h
    cases value with
    | number number => cases number <;> cases h
    | text s =>
      cases h
      rfl
    | _ => cases h
  · rintro rfl
    rfl

theorem itemSettings_eq_map (items : List Json) : itemSettings items = items.map toSetting := by
  induction items with
  | nil => rfl
  | cons item rest ih => rw [itemSettings, ih, List.map_cons]

theorem keys_memberSettings (members : Members) :
    (memberSettings members).map Prod.fst = members.keys := by
  induction members with
  | nil => rfl
  | cons member rest ih => simpa [memberSettings, Members.keys] using ih

theorem lookup_memberSettings (members : Members) (key : String) :
    (memberSettings members).lookup key = (members.get? key).map toSetting := by
  induction members with
  | nil => rfl
  | cons member rest ih =>
    obtain ⟨k, v⟩ := member
    by_cases hk : k = key
    · subst hk
      simp [memberSettings, Members.get?]
    · have hother : (key == k) = false := by simpa using Ne.symm hk
      simpa [memberSettings, Members.get?, List.lookup_cons, hk, hother] using ih

end Json

namespace CalendarSpec

/-- The values that tell the range and the unit of a calendar: members of an object that may have
others, in any order, or the two items of a list. -/
inductive Describes : Json → Json → Json → Prop
  | object {members : Json.Members} {range unit : Json} (rangeFound : members.get? "range" = some range)
    (unitFound : members.get? "unit" = some unit) : Describes (.object members) range unit
  | array {range unit : Json} : Describes (.array [range, unit]) range unit

/-- A value gives the range and the unit of a calendar. -/
def Tells (value : Json) (spec : CalendarSpec) : Prop :=
  ∃ exact text, Describes value (.number (.integer spec.range exact)) (.text text) ∧
    spec.unit.Names text

variable {spec : CalendarSpec}

theorem asCalendar_object_iff {members : Json.Members} (nodup : members.keys.Nodup) :
    Setting.asCalendar .json (Json.toSetting (.object members)) = .ok spec ↔
      Tells (.object members) spec := by
  have hfields : Setting.asFields .json ["range", "unit"] (Json.toSetting (.object members)) =
      .ok ⟨Json.memberSettings members, false⟩ := rfl
  rw [Setting.asCalendar_eq_ok_iff hfields (by rwa [Json.keys_memberSettings])]
  simp only [Json.lookup_memberSettings, Option.map_eq_some_iff, Json.toSetting_eq_integer_iff,
    Json.toSetting_eq_text_iff, true_and]
  constructor
  · rintro ⟨⟨_, hrange, exact, rfl⟩, text, ⟨_, hunit, rfl⟩, hnames⟩
    exact ⟨exact, text, .object hrange hunit, hnames⟩
  · rintro ⟨exact, text, describes, hnames⟩
    cases describes with
    | object rangeFound unitFound =>
      exact ⟨⟨_, rangeFound, exact, rfl⟩, text, ⟨_, unitFound, rfl⟩, hnames⟩

theorem asCalendar_array_iff {items : List Json} :
    Setting.asCalendar .json (Json.toSetting (.array items)) = .ok spec ↔
      Tells (.array items) spec := by
  have hfields : Setting.asFields .json ["range", "unit"] (Json.toSetting (.array items)) =
      .ok ⟨["range", "unit"].zip (items.map Json.toSetting), decide (2 < items.length)⟩ := by
    simp [Setting.asFields, Setting.Dialect.json, Json.toSetting, Json.itemSettings_eq_map]
  have hnodup : ((["range", "unit"].zip (items.map Json.toSetting)).map Prod.fst).Nodup := by
    cases items with
    | nil => simp
    | cons first rest => cases rest <;> simp
  rw [Setting.asCalendar_eq_ok_iff hfields hnodup]
  constructor
  · rintro ⟨hsurplus, hrange, text, hunit, hnames⟩
    match items with
    | [] => cases hrange
    | [range] => cases hunit
    | [range, unit] =>
      obtain ⟨exact, rfl⟩ := Json.toSetting_eq_integer_iff.mp (Option.some.inj hrange)
      cases Json.toSetting_eq_text_iff.mp (Option.some.inj hunit)
      exact ⟨exact, text, .array, hnames⟩
    | _ :: _ :: _ :: _ => simp at hsurplus
  · rintro ⟨exact, text, describes, hnames⟩
    cases describes
    exact ⟨rfl, rfl, text, rfl, hnames⟩

theorem asCalendar_refused_iff {value : Json}
    (refused : Setting.asCalendar .json value.toSetting = .error .shape)
    (undescribed : ∀ range unit, ¬ Describes value range unit) :
    Setting.asCalendar .json value.toSetting = .ok spec ↔ Tells value spec := by
  rw [refused]
  constructor
  · intro h
    cases h
  · rintro ⟨_, _, describes, _⟩
    exact absurd describes (undescribed _ _)

/-- What is read as a calendar is just what gives its range and its unit. -/
theorem asCalendar_eq_ok_iff {value : Json} (distinct : value.Distinct) :
    Setting.asCalendar .json value.toSetting = .ok spec ↔ Tells value spec := by
  cases distinct with
  | object keys _ => exact asCalendar_object_iff keys
  | array _ => exact asCalendar_array_iff
  | number value => cases value <;> exact asCalendar_refused_iff rfl nofun
  | null => exact asCalendar_refused_iff rfl nofun
  | bool value => exact asCalendar_refused_iff rfl nofun
  | text value => exact asCalendar_refused_iff rfl nofun

theorem tells_toJson (spec : CalendarSpec) : Tells spec.toJson spec :=
  ⟨_, _, .object rfl rfl, TimeUnit.names_of_mem_words (TimeUnit.mem_words.mpr (.inl rfl))⟩

theorem distinct_toJson (spec : CalendarSpec) : spec.toJson.Distinct := by
  refine .object (by simp [Json.Members.keys]) fun member hmember => ?_
  simp only [List.mem_cons, List.not_mem_nil, or_false] at hmember
  rcases hmember with rfl | rfl
  · exact .number _
  · exact .text _

/-- A calendar that is written as JSON is read back. -/
theorem asCalendar_toJson (spec : CalendarSpec) :
    Setting.asCalendar .json spec.toJson.toSetting = .ok spec :=
  (asCalendar_eq_ok_iff spec.distinct_toJson).mpr spec.tells_toJson

theorem toNat_range (spec : CalendarSpec) : (UInt32.ofNat spec.range).toNat = spec.range :=
  UInt32.toNat_ofNat_of_lt' spec.range_lt

/-- The units that are off are counted without running below zero. -/
theorem toNat_off (spec : CalendarSpec) :
    (UInt32.ofNat spec.range - 1).toNat = spec.range - 1 := by
  have hle : (1 : UInt32) ≤ UInt32.ofNat spec.range := by
    rw [UInt32.le_iff_toNat_le, toNat_range]
    exact spec.range_pos
  rw [UInt32.toNat_sub_of_le _ _ hle, toNat_range]
  rfl

/-- The seconds of a calendar are computed without running over. -/
theorem toNat_seconds (spec : CalendarSpec) :
    (UInt64.ofNat spec.range * UInt64.ofNat spec.unit.seconds).toNat = spec.totalSeconds := by
  have hrange : spec.range < 18446744073709551616 := Nat.lt_trans spec.range_lt (by decide)
  have hunit : spec.unit.seconds < 18446744073709551616 := by cases spec.unit <;> decide
  rw [UInt64.toNat_mul, UInt64.toNat_ofNat_of_lt' hrange, UInt64.toNat_ofNat_of_lt' hunit]
  exact Nat.mod_eq_of_lt spec.totalSeconds_lt

/-- A value is read as a calendar just where its range is a whole number from 1 to `2 ^ 32 - 1` and
its unit is a text that names one; the calendar has this range and this unit, and is written with
the unit's own name. A calendar that is written is read back. A range and a unit make a calendar
under the same bounds, which those of the sampling buckets keep. So the number of units that are off
and the number of seconds, computed in 32 and in 64 bits, are exact. -/
theorem decoded_iff (value : Json) (distinct : value.Distinct) :
    ((∃ spec, Setting.asCalendar .json value.toSetting = .ok spec) ↔
      ∃ n exact text unit, Describes value (.number (.integer n exact)) (.text text) ∧
        (1 ≤ n ∧ n ≤ 4294967295) ∧ TimeUnit.Names text unit) ∧
    (∀ spec, Setting.asCalendar .json value.toSetting = .ok spec →
      ∃ exact text, Describes value (.number (.integer spec.range exact)) (.text text) ∧
        spec.unit.Names text ∧
        spec.toJson = .object [("range", .number (.integer spec.range exact)),
          ("unit", .text spec.unit.name)]) ∧
    (∀ spec : CalendarSpec, Setting.asCalendar .json spec.toJson.toSetting = .ok spec) ∧
    (∀ n unit, (∃ spec, make n unit = .ok spec) ↔ 1 ≤ n ∧ n ≤ 4294967295) ∧
    (∀ n unit spec, make n unit = .ok spec ↔ n = spec.range ∧ unit = spec.unit) ∧
    (∀ bucket : SamplingBucket, make bucket.calendar.range bucket.calendar.unit =
      .ok bucket.calendar) ∧
    ∀ spec : CalendarSpec, (UInt32.ofNat spec.range).toNat = spec.range ∧
      spec.patternDefinition = "\x7b1 on, " ++ Numeral.text (UInt32.ofNat spec.range - 1).toNat ++
        " off\x7d, " ++ spec.unit.name ∧
      (UInt32.ofNat spec.range - 1).toNat + 1 = spec.range ∧
      (UInt64.ofNat spec.range * UInt64.ofNat spec.unit.seconds).toNat = spec.totalSeconds := by
  simp only [asCalendar_eq_ok_iff distinct]
  refine ⟨⟨?_, ?_⟩, ?_, asCalendar_toJson, fun _ _ => exists_make_iff, fun _ _ _ => make_eq_ok_iff,
    fun bucket => bucket.calendar.make_range, fun spec => ⟨spec.toNat_range, ?_, ?_,
      spec.toNat_seconds⟩⟩
  · rintro ⟨spec, exact, text, describes, hnames⟩
    exact ⟨spec.range, exact, text, spec.unit, describes,
      exists_make_iff.mp ⟨spec, spec.make_range⟩, hnames⟩
  · rintro ⟨n, exact, text, unit, describes, hn, hnames⟩
    obtain ⟨spec, hspec⟩ : ∃ spec, make n unit = .ok spec := exists_make_iff.mpr hn
    obtain ⟨rfl, rfl⟩ := make_eq_ok_iff.mp hspec
    exact ⟨spec, exact, text, describes, hnames⟩
  · rintro spec ⟨exact, text, describes, hnames⟩
    exact ⟨exact, text, describes, hnames, rfl⟩
  · rw [toNat_off]
    rfl
  · rw [toNat_off]
    exact Nat.sub_add_cancel spec.range_pos

/-- A quarter of an hour, in an unusual spelling and among other members. -/
theorem decoded_iff_quarter :
    Json.Distinct (.object [("unit", .text "\tMiN "), ("note", .array [.null]),
      ("range", Json.ofNat 15)]) ∧
    ∃ spec, Setting.asCalendar .json (Json.toSetting (.object [("unit", .text "\tMiN "),
      ("note", .array [.null]), ("range", Json.ofNat 15)])) = .ok spec := by
  have hdistinct : Json.Distinct (.object [("unit", .text "\tMiN "), ("note", .array [.null]),
      ("range", Json.ofNat 15)]) := by
    refine .object (by decide) fun member hmember => ?_
    simp only [List.mem_cons, List.not_mem_nil, or_false] at hmember
    rcases hmember with rfl | rfl | rfl
    · exact .text _
    · exact .array fun item hitem => List.mem_singleton.mp hitem ▸ .null
    · exact .number _
  have hnames : TimeUnit.Names "\tMiN " .minute :=
    ⟨['\t'], ['M', 'i', 'N'], [' '], by decide, by decide, rfl, "min", by decide, by decide⟩
  exact ⟨hdistinct, (decoded_iff _ hdistinct).1.mpr
    ⟨15, _, _, .minute, .object rfl rfl, by decide, hnames⟩⟩

end CalendarSpec
end CalendarRollup
