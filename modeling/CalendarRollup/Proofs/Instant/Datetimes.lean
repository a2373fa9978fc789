import CalendarRollup.Instant.Format
import CalendarRollup.Proofs.Decimal.Fixed
import CalendarRollup.Proofs.Instant.Clock

/-! What datetimes tell: the instant, but for what is left of it after its last ten microseconds. -/
namespace CalendarRollup
open Numeral

namespace Date

/-- The year that is written with or without a sign. -/
def yearValue : List Char → Int
  | '-' :: digits => -(value digits : Int)
  | '+' :: digits => value digits
  | digits => value digits

theorem yearValue_of_isDigit {digits : List Char} (all : ∀ c ∈ digits, c.isDigit = true) :
    yearValue digits = value digits := by
  unfold yearValue
  split
  next => exact absurd (all '-' List.mem_cons_self) (by decide)
  next => rfl
  next => rfl

theorem yearValue_yearChars (year : Int) : yearValue (yearChars year) = year := by
  unfold yearChars
  split
  next hplain =>
    have hlt : year.natAbs < 10 ^ 4 := by omega
    rw [yearValue_of_isDigit fun _ => isDigit_of_mem_fixed, value_fixed, Nat.mod_eq_of_lt hlt]
    omega
  next =>
    split
    next hnegative =>
      rw [yearValue, value_padded]
      omega
    next hnegative =>
      rw [yearValue, value_padded]
      omega

theorem yearChars_injective {x y : Int} (h : yearChars x = yearChars y) : x = y := by
  rw [← yearValue_yearChars x, h, yearValue_yearChars]

/-- Valid dates are told apart by their texts. The months and days are read from the end, as years
are not of one length. -/
theorem chars_injective {a b : Date} (ha : a.IsValid) (hb : b.IsValid) (h : a.chars = b.chars) :
    a = b := by
  obtain ⟨_, hmonth, _, hday⟩ := ha
  obtain ⟨_, hmonth', _, hday'⟩ := hb
  have hdays := daysInMonth_le a.year a.month
  have hdays' := daysInMonth_le b.year b.month
  unfold chars at h
  obtain ⟨h, hdayChars⟩ := List.append_inj' h (by simp)
  obtain ⟨hyearChars, hmonthChars⟩ := List.append_inj' h (by simp)
  have hyear := yearChars_injective hyearChars
  have hm := fixed_injective (by omega) (by omega) (List.cons.inj hmonthChars).2
  have hd := fixed_injective (by omega) (by omega) (List.cons.inj hdayChars).2
  cases a
  cases b
  simp_all

end Date

theorem ClockTime.chars_injective {a b : ClockTime} (ha : a.IsValid) (hb : b.IsValid)
    (h : a.chars = b.chars) : a.hour = b.hour ∧ a.minute = b.minute ∧ a.second = b.second := by
  obtain ⟨hhour, hminute, hsecond, _⟩ := ha
  obtain ⟨hhour', hminute', hsecond', _⟩ := hb
  unfold chars at h
  obtain ⟨h, hsecondChars⟩ := List.append_inj' h (by simp)
  obtain ⟨hhourChars, hminuteChars⟩ := List.append_inj' h (by simp)
  exact ⟨fixed_injective (by omega) (by omega) hhourChars,
    fixed_injective (by omega) (by omega) (List.cons.inj hminuteChars).2,
    fixed_injective (by omega) (by omega) (List.cons.inj hsecondChars).2⟩

namespace Instant

/-- The instant with whole tens of microseconds. -/
def truncated (t : Instant) : Instant where
  seconds := t.seconds
  nano := t.nano / 10000 * 10000
  inRange := by
    obtain ⟨hleast, hmost, hlt⟩ := t.inRange
    exact ⟨hleast, hmost, by omega⟩

theorem isLeapSecond_truncated (t : Instant) : t.truncated.isLeapSecond = t.isLeapSecond := by
  simp only [isLeapSecond, decide_eq_decide]
  simp only [truncated, secondNanos]
  omega

theorem clock_truncated (t : Instant) :
    t.truncated.clock = { t.clock with nano := t.clock.nano / 10000 * 10000 } := by
  have hsecond : t.nano / 10000 * 10000 / secondNanos = t.nano / secondNanos := by
    unfold secondNanos
    omega
  have hnano : t.nano / 10000 * 10000 % secondNanos = t.nano % secondNanos / 10000 * 10000 := by
    unfold secondNanos
    omega
  simp only [clock, truncated, hsecond, hnano]

theorem isOnClock_truncated {t : Instant} : t.truncated.IsOnClock ↔ t.IsOnClock := by
  have hleap : secondNanos ≤ t.nano / 10000 * 10000 ↔ secondNanos ≤ t.nano := by
    unfold secondNanos
    omega
  exact imp_congr hleap Iff.rfl

theorem carried_truncated (t : Instant) : t.truncated.carried = t.carried.truncated := by
  by_cases h : t.IsOnClock
  · rw [carried_of_isOnClock h, carried_of_isOnClock (isOnClock_truncated.mpr h)]
  · obtain ⟨_, hseconds, hnano⟩ := carried_of_not h
    obtain ⟨_, hseconds', hnano'⟩ := carried_of_not (mt isOnClock_truncated.mp h)
    apply eq_of_seconds_nano
    · exact hseconds'.trans hseconds.symm
    · simp only [truncated, secondNanos] at *
      omega

theorem datetime_eq_of {a b : Instant} (date : a.date = b.date) (clock : a.clock = b.clock) :
    a.datetime = b.datetime := by
  simp only [datetime, datetimeChars, secondChars, date, clock]

theorem datetime_truncated (t : Instant) : t.truncated.datetime = t.datetime := by
  have hsecond : t.truncated.secondChars = t.secondChars := by
    simp only [secondChars, clock_truncated]
    rfl
  have hfraction : t.truncated.clock.nano / 10000 = t.clock.nano / 10000 := by
    simp only [clock_truncated]
    omega
  have hpower : Nat.pow 10 (9 - places) = 10000 := rfl
  simp only [datetime, datetimeChars, hsecond, hpower, hfraction]

/-- What a datetime tells of the date and the time of day. -/
theorem clock_eq_of_datetime {a b : Instant} (h : a.datetime = b.datetime) :
    a.date = b.date ∧ a.truncated.clock = b.truncated.clock := by
  have hchars : a.datetimeChars = b.datetimeChars := String.ofList_injective h
  unfold datetimeChars at hchars
  obtain ⟨hsecondChars, hfractionChars⟩ := List.append_inj' hchars (by simp)
  unfold secondChars at hsecondChars
  obtain ⟨hdateChars, hclockChars⟩ := List.append_inj' hsecondChars (by simp [ClockTime.chars])
  have hdate : a.date = b.date :=
    Date.chars_injective (Date.isValid_ofDays _) (Date.isValid_ofDays _) hdateChars
  obtain ⟨hhour, hminute, hsecond⟩ := ClockTime.chars_injective a.isValid_clock b.isValid_clock
    (List.cons.inj hclockChars).2
  have hfraction : a.clock.nano / 10000 = b.clock.nano / 10000 := by
    have hlt := a.isValid_clock.2.2.2
    have hlt' := b.isValid_clock.2.2.2
    have hpower : Nat.pow 10 (9 - places) = 10000 := rfl
    rw [hpower] at hfractionChars
    exact fixed_injective (by unfold places; omega) (by unfold places; omega)
      (List.cons.inj hfractionChars).2
  exact ⟨hdate, by simp only [clock_truncated, hhour, hminute, hsecond, hfraction]⟩

/-- Datetimes are equal just for instants that clocks show in the same ten microseconds. -/
theorem datetime_eq_iff {a b : Instant} :
    a.datetime = b.datetime ↔ a.carried.truncated = b.carried.truncated := by
  rw [← carried_truncated, ← carried_truncated]
  constructor
  · intro h
    obtain ⟨hdate, hclock⟩ := clock_eq_of_datetime h
    have ha := a.truncated.ofClock?_date_clock
    rw [hclock, show a.truncated.date = b.truncated.date from hdate] at ha
    exact Option.some_inj.mp (ha.symm.trans b.truncated.ofClock?_date_clock)
  · intro h
    have hcarried (t : Instant) : t.truncated.carried.datetime = t.datetime :=
      (datetime_eq_of t.truncated.date_carried t.truncated.clock_carried).trans t.datetime_truncated
    rw [← hcarried a, h, hcarried b]

end Instant
end CalendarRollup
