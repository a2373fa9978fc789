import CalendarRollup.Proofs.Instant.Datetimes
import CalendarRollup.Proofs.Instant.Earlier

/-! The form of datetime literals that the backend's type reads: all numbers have their fixed widths
and are within the bounds of a clock and a calendar. Literals of instants have it in the years 0 to
9999, but not in a leap second at the end of a minute. -/
namespace CalendarRollup

/-- As many digits as `width`, for a number from `least` to `most`. -/
structure Numeral.IsWithin (width least most : Nat) (digits : List Char) : Prop where
  length : digits.length = width
  all : ∀ c ∈ digits, c.isDigit = true
  least_le : least ≤ Numeral.value digits
  le_most : Numeral.value digits ≤ most

theorem Numeral.isWithin_fixed {width least most n : Nat} (fits : most < 10 ^ width)
    (least_le : least ≤ n) (le_most : n ≤ most) : IsWithin width least most (fixed width n) := by
  have hvalue : value (fixed width n) = n := by
    rw [value_fixed, Nat.mod_eq_of_lt (Nat.lt_of_le_of_lt le_most fits)]
  refine ⟨length_fixed width n, fun _ => isDigit_of_mem_fixed, ?_, ?_⟩
  · rwa [hvalue]
  · rwa [hvalue]

open Numeral

/-- The parts of a literal of the type `datetime year to fraction(5)`. -/
structure DatetimeParts where
  year : List Char
  month : List Char
  day : List Char
  hour : List Char
  minute : List Char
  second : List Char
  fraction : List Char
  year_within : IsWithin 4 0 9999 year
  month_within : IsWithin 2 1 12 month
  day_within : IsWithin 2 1 (Date.daysInMonth (value year) (value month)) day
  hour_within : IsWithin 2 0 23 hour
  minute_within : IsWithin 2 0 59 minute
  second_within : IsWithin 2 0 59 second
  fraction_within : IsWithin 5 0 99999 fraction

namespace DatetimeParts

def chars (parts : DatetimeParts) : List Char :=
  parts.year ++ '-' :: parts.month ++ '-' :: parts.day ++
    ' ' :: (parts.hour ++ ':' :: parts.minute ++ ':' :: parts.second) ++ '.' :: parts.fraction

def literal (parts : DatetimeParts) : String :=
  "'" ++ String.ofList parts.chars ++ "'::" ++ "datetime year to fraction(5)"

variable {parts : DatetimeParts} {t : Instant}

theorem chars_eq_of_literal (h : parts.literal = t.literal) : parts.chars = t.datetimeChars := by
  have hchars := congrArg String.toList h
  simp only [literal, Instant.literal, Instant.datetime, Instant.sqlType, String.toList_append,
    String.toList_ofList] at hchars
  exact List.append_cancel_left (List.append_cancel_right (List.append_cancel_right hchars))

/-- The years and the seconds can be compared, as all that stands behind them has one length. -/
theorem parts_of_literal (h : parts.literal = t.literal) :
    parts.year = Date.yearChars t.date.year ∧ parts.second = fixed 2 t.clock.second := by
  have hchars := chars_eq_of_literal h
  unfold chars Instant.datetimeChars Instant.secondChars Date.chars ClockTime.chars at hchars
  obtain ⟨hseconds, _⟩ := List.append_inj' hchars
    (by simp [Instant.places, parts.fraction_within.length])
  obtain ⟨hdate, hclock⟩ := List.append_inj' hseconds (by
    simp [parts.hour_within.length, parts.minute_within.length, parts.second_within.length])
  obtain ⟨hmonth, _⟩ := List.append_inj' hdate (by simp [parts.day_within.length])
  obtain ⟨hyear, _⟩ := List.append_inj' hmonth (by simp [parts.month_within.length])
  obtain ⟨_, hsecond⟩ := List.append_inj' (List.cons.inj hclock).2
    (by simp [parts.second_within.length])
  exact ⟨hyear, (List.cons.inj hsecond).2⟩

end DatetimeParts

namespace Instant

/-- Clocks show a second 60 in the leap second at the end of a minute. -/
theorem second_clock_le_iff (t : Instant) :
    t.clock.second ≤ 59 ↔ ¬ (t.isLeapSecond = true ∧ t.seconds % 60 = 59) := by
  obtain ⟨_, _, hnano⟩ := t.inRange
  have hsecond : t.clock.second =
      (t.seconds % daySeconds).toNat % 60 + t.nano / secondNanos := rfl
  rw [hsecond, isLeapSecond, decide_eq_true_iff]
  unfold daySeconds secondNanos at *
  omega

/-- A year that is written in digits alone is one from 0 to 9999. -/
theorem year_le_of_yearChars {year : Int}
    (all : ∀ c ∈ Date.yearChars year, c.isDigit = true) : 0 ≤ year ∧ year ≤ 9999 := by
  unfold Date.yearChars at all
  split at all
  next hplain => exact hplain
  next =>
    have hsign := all _ List.mem_cons_self
    split at hsign <;> cases hsign

/-- The parts of the literal of an instant. -/
def literalParts (t : Instant) (year : 0 ≤ t.date.year ∧ t.date.year ≤ 9999)
    (second : t.clock.second ≤ 59) : DatetimeParts where
  year := fixed 4 t.date.year.natAbs
  month := fixed 2 t.date.month
  day := fixed 2 t.date.day
  hour := fixed 2 t.clock.hour
  minute := fixed 2 t.clock.minute
  second := fixed 2 t.clock.second
  fraction := fixed 5 (t.clock.nano / 10000)
  year_within := isWithin_fixed (by decide) (by omega) (by omega)
  month_within := isWithin_fixed (by decide) t.isValid_date.1 t.isValid_date.2.1
  day_within := by
    obtain ⟨_, hmonth, hfirst, hlast⟩ := t.isValid_date
    have hdays := Date.daysInMonth_le t.date.year t.date.month
    have hyear : ((value (fixed 4 t.date.year.natAbs) : Nat) : Int) = t.date.year := by
      rw [value_fixed]
      omega
    have hvalue : value (fixed 2 t.date.month) = t.date.month := by
      rw [value_fixed]
      omega
    rw [hyear, hvalue]
    exact isWithin_fixed (by omega) hfirst hlast
  hour_within := isWithin_fixed (by decide) (Nat.zero_le _) t.isValid_clock.1
  minute_within := isWithin_fixed (by decide) (Nat.zero_le _) t.isValid_clock.2.1
  second_within := isWithin_fixed (by decide) (Nat.zero_le _) second
  fraction_within := by
    have hnano := t.isValid_clock.2.2.2
    exact isWithin_fixed (by decide) (Nat.zero_le _) (by omega)

theorem literal_literalParts {t : Instant} (year : 0 ≤ t.date.year ∧ t.date.year ≤ 9999)
    (second : t.clock.second ≤ 59) : (t.literalParts year second).literal = t.literal := by
  have hchars : (t.literalParts year second).chars = t.datetimeChars := by
    unfold datetimeChars secondChars Date.chars Date.yearChars
    rw [if_pos year]
    rfl
  unfold DatetimeParts.literal literal datetime
  rw [hchars]
  rfl

/-- The literals of the years 0 to 9999 have the form that the backend reads, unless they show a
second 60. -/
theorem exists_literal_iff (t : Instant) : (∃ parts : DatetimeParts, parts.literal = t.literal) ↔
    (0 ≤ t.date.year ∧ t.date.year ≤ 9999) ∧
      ¬ (t.isLeapSecond = true ∧ t.seconds % 60 = 59) := by
  rw [← second_clock_le_iff]
  constructor
  · rintro ⟨parts, h⟩
    obtain ⟨hyear, hsecond⟩ := DatetimeParts.parts_of_literal h
    have hvalid := t.isValid_clock.2.2.1
    have hbound := parts.second_within.le_most
    rw [hsecond, value_fixed, Nat.mod_eq_of_lt (by omega)] at hbound
    exact ⟨year_le_of_yearChars (hyear ▸ parts.year_within.all), hbound⟩
  · rintro ⟨hyear, hsecond⟩
    exact ⟨t.literalParts hyear hsecond, literal_literalParts hyear hsecond⟩

-- The leap second before 2017 is written as a second 60.
example : ¬ ∃ parts : DatetimeParts, parts.literal = literal ⟨1483228799, 1500000000, by decide⟩ := by
  rw [exists_literal_iff]
  decide

end Instant
end CalendarRollup
