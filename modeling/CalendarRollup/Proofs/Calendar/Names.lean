import CalendarRollup.Proofs.Calendar.Units
import CalendarRollup.Proofs.Decimal.Fixed
import CalendarRollup.Proofs.Text.Literals
import CalendarRollup.Proofs.Text.Readers

/-! Numerals and the names of calendars: none of them holds a quote, and a calendar can be told from
its name. -/
namespace CalendarRollup
open Text

namespace Numeral

@[simp] theorem isPlain_ofNat (n : Nat) : IsPlain (ofNat n) :=
  isPlain_of_forall (p := Char.isDigit) rfl fun _ h => isDigit_of_mem_ofNat h

@[simp] theorem isPlain_fixed (width n : Nat) : IsPlain (fixed width n) :=
  isPlain_of_forall (p := Char.isDigit) rfl fun _ h => isDigit_of_mem_fixed h

@[simp] theorem isPlain_padded (width n : Nat) : IsPlain (padded width n) := by
  simp [padded, IsPlain, List.mem_replicate]
  exact isPlain_ofNat n

@[simp] theorem isPlain_text (n : Nat) : IsPlain (text n).toList := by simp [text]

/-- The number that the digits ahead denote, all of them. -/
def ahead (cs : List Char) : Nat × List Char :=
  (value (cs.takeWhile Char.isDigit), cs.dropWhile Char.isDigit)

theorem ahead_append (n : Nat) {rest : List Char} (ends : rest.takeWhile Char.isDigit = []) :
    ahead (ofNat n ++ rest) = (n, rest) := by
  have hdigits : ∀ c ∈ ofNat n, c.isDigit = true := fun _ h => isDigit_of_mem_ofNat h
  have hrest : rest.dropWhile Char.isDigit = rest := by
    simpa [ends] using List.takeWhile_append_dropWhile (p := Char.isDigit) (l := rest)
  rw [ahead, List.takeWhile_append_of_pos hdigits, List.dropWhile_append_of_pos hdigits, ends,
    hrest, List.append_nil, value_ofNat]

end Numeral

namespace TimeUnit

@[simp] theorem isPlain_name (unit : TimeUnit) : IsPlain unit.name.toList := by
  cases unit <;> decide

@[simp] theorem isPlain_abbreviation (unit : TimeUnit) : IsPlain unit.abbreviation.toList := by
  cases unit <;> decide

theorem takeWhile_isDigit_abbreviation (unit : TimeUnit) :
    unit.abbreviation.toList.takeWhile Char.isDigit = [] := by
  cases unit <;> decide

end TimeUnit

namespace CalendarSpec

theorem toList_calendarName (spec : CalendarSpec) :
    spec.calendarName.toList =
      ['t', 's', '_'] ++ (Numeral.ofNat spec.range ++ spec.unit.abbreviation.toList) := by
  simp [calendarName, Numeral.text]

@[simp] theorem isPlain_calendarName (spec : CalendarSpec) : IsPlain spec.calendarName.toList := by
  simp [toList_calendarName]

@[simp] theorem isPlain_patternName (spec : CalendarSpec) : IsPlain spec.patternName.toList :=
  spec.isPlain_calendarName

@[simp] theorem isPlain_patternDefinition (spec : CalendarSpec) :
    IsPlain spec.patternDefinition.toList := by
  simp [patternDefinition]

theorem isName_calendarName (spec : CalendarSpec) : Reader.IsName spec.calendarName.toList := by
  have hts : Reader.IsName ['t', 's', '_'] := by decide
  have hunit : Reader.IsName spec.unit.abbreviation.toList := by
    cases spec.unit <;> decide
  rw [toList_calendarName, Reader.isName_append, Reader.isName_append]
  exact ⟨hts, fun c h => Reader.isNameChar_of_isDigit (Numeral.isDigit_of_mem_ofNat h), hunit⟩

theorem make_range (spec : CalendarSpec) : make spec.range spec.unit = .ok spec := by
  unfold make
  rw [dif_pos ⟨spec.range_pos, spec.range_lt⟩]
  rfl

/-- The calendar that a name tells: the prefix, all digits that follow for the range, and a text
for the unit. -/
def ofName? (name : String) : Option CalendarSpec := do
  let cs ← Reader.expect "ts_" name.toList
  let (range, cs) := Numeral.ahead cs
  let unit ← (TimeUnit.parse (String.ofList cs)).toOption
  (make range unit).toOption

theorem ofName?_calendarName (spec : CalendarSpec) : ofName? spec.calendarName = some spec := by
  have hname : spec.calendarName.toList =
      "ts_".toList ++ (Numeral.ofNat spec.range ++ spec.unit.abbreviation.toList) :=
    spec.toList_calendarName
  rw [ofName?, hname, Reader.expect_append]
  simp only [Option.bind_eq_bind, Option.bind_some,
    Numeral.ahead_append spec.range spec.unit.takeWhile_isDigit_abbreviation, String.ofList_toList,
    TimeUnit.parse_abbreviation, Except.toOption, make_range]

theorem calendarName_injective {a b : CalendarSpec} (h : a.calendarName = b.calendarName) :
    a = b := by
  have hread := congrArg ofName? h
  rw [ofName?_calendarName, ofName?_calendarName] at hread
  exact Option.some.inj hread

end CalendarSpec
end CalendarRollup
