import CalendarRollup.Proofs.Instant.Earlier
import CalendarRollup.Rollup.Window

/-! Lookbacks are exact. The numbers that they are computed with are wide enough: a product that
does not fit leads back beyond the first instant. -/
namespace CalendarRollup.Lookback

theorem product?_eq_some {most a b : Nat} (fits : a * b ≤ most) :
    product? most a b = some (a * b) := if_pos fits

theorem product?_eq_none {most a b : Nat} (exceeds : most < a * b) : product? most a b = none :=
  if_neg (Nat.not_le_of_lt exceeds)

section Before
variable {lookback : Lookback} {finish start : Instant}

/-- The longest of the fixed units is the week. -/
theorem seconds_le_week {unit : TimeUnit} (notMonth : unit ≠ .month) (notYear : unit ≠ .year) :
    unit.seconds ≤ TimeUnit.week.seconds := by
  cases unit with
  | month => exact absurd rfl notMonth
  | year => exact absurd rfl notYear
  | _ => decide

theorem before?_of_fixed (notMonth : lookback.unit ≠ .month) (notYear : lookback.unit ≠ .year) :
    lookback.before? finish = finish.secondsBefore? (lookback.range * lookback.unit.seconds) := by
  have hunit := seconds_le_week notMonth notYear
  have hproduct := Nat.mul_le_mul lookback.range_le hunit
  have hweek : 4294967295 * TimeUnit.week.seconds ≤ longestSpan := by decide
  have hspan : longestSpan ≤ mostSeconds := by decide
  have hfits : lookback.range * lookback.unit.seconds ≤ longestSpan := by omega
  unfold before?
  split
  next hmonth => exact absurd hmonth notMonth
  next hyear => exact absurd hyear notYear
  next =>
    rw [product?_eq_some (Nat.le_trans hfits hspan), Option.bind_eq_bind, Option.bind_some,
      if_pos hfits]

/-- As many months lead back beyond all instants. -/
theorem monthsBefore?_of_many {months : Nat} (many : mostMonths < months) :
    finish.monthsBefore? months = none := by
  obtain ⟨_, _, hmonths⟩ := @Date.months_monthsBefore months finish.date
  obtain ⟨_, hmonth, _⟩ := finish.isValid_date
  have hlast := finish.not_latest_before
  rw [Instant.monthsBefore?_eq_none_iff, Instant.date_earliest]
  rw [Instant.date_latest] at hlast
  simp only [Date.Before, mostMonths] at *
  omega

/-- The months that a lookback goes back by on the calendar. -/
def months? (lookback : Lookback) : Option Nat :=
  match lookback.unit with
  | .month => some lookback.range
  | .year => some (12 * lookback.range)
  | _ => none

theorem months?_eq_none_iff : lookback.months? = none ↔
    lookback.unit ≠ .month ∧ lookback.unit ≠ .year := by
  unfold months?
  cases lookback.unit <;> simp

theorem before?_of_months {months : Nat} (counted : lookback.months? = some months) :
    lookback.before? finish = finish.monthsBefore? months := by
  unfold months? at counted
  split at counted
  next hmonth =>
    cases counted
    unfold before?
    rw [hmonth]
  next hyear =>
    cases counted
    unfold before?
    rw [hyear, Nat.mul_comm]
    by_cases hfits : lookback.range * 12 ≤ mostMonths
    · rw [product?_eq_some hfits]
      rfl
    · have hmany : mostMonths < lookback.range * 12 := Nat.lt_of_not_le hfits
      rw [product?_eq_none hmany, monthsBefore?_of_many hmany]
      rfl
  next => cases counted

theorem before_eq_ok_iff : lookback.before finish = .ok start ↔
    lookback.before? finish = some start := by
  unfold before
  cases lookback.before? finish <;> simp

theorem before_eq_error_iff : lookback.before finish =
    .error (.lookbackOutOfRange lookback.range lookback.unit finish) ↔
      lookback.before? finish = none := by
  unfold before
  cases lookback.before? finish <;> simp

end Before

/-- A lookback is what unbounded numbers give. Seconds to weeks are exact on the line of
nanoseconds, where a leap second goes on into the next second, and nothing is gone back by no units.
Months and years keep the time of day and lead to the same day of a month, or to its last one. A
lookback is out of range just where that lies before the first instant. -/
theorem before_exact (lookback : Lookback) (finish : Instant) :
    (lookback.months? = none →
      (lookback.range = 0 → lookback.before finish = .ok finish) ∧
      (0 < lookback.range →
        (∀ start, lookback.before finish = .ok start ↔ start.isLeapSecond = false ∧
          start.toNanos =
            finish.toNanos - lookback.range * lookback.unit.seconds * Instant.secondNanos) ∧
        (lookback.before finish =
            .error (.lookbackOutOfRange lookback.range lookback.unit finish) ↔
          finish.toNanos - lookback.range * lookback.unit.seconds * Instant.secondNanos <
            Instant.earliest.toNanos))) ∧
    (∀ months, lookback.months? = some months →
      ∃ date, (∀ other, Date.MonthsEarlier months finish.date other ↔ other = date) ∧
        (∀ start, lookback.before finish = .ok start ↔
          start.date = date ∧ start.timeOfDay = finish.timeOfDay) ∧
        (lookback.before finish =
            .error (.lookbackOutOfRange lookback.range lookback.unit finish) ↔
          date.Before Instant.earliest.date)) ∧
    (∀ t : Instant, ¬ t < Instant.earliest) := by
  refine ⟨fun hfixed => ?_, fun months hmonths => ?_, ?_⟩
  · obtain ⟨hmonth, hyear⟩ := months?_eq_none_iff.mp hfixed
    have hpos := lookback.unit.seconds_pos
    refine ⟨fun hzero => ?_, fun hrange => ?_⟩
    · rw [before_eq_ok_iff, before?_of_fixed hmonth hyear, hzero, Nat.zero_mul,
        Instant.secondsBefore?_zero]
    · have hsome : 0 < lookback.range * lookback.unit.seconds := Nat.mul_pos hrange hpos
      rw [← Int.natCast_mul]
      refine ⟨fun start => ?_, ?_⟩
      · rw [before_eq_ok_iff, before?_of_fixed hmonth hyear,
          Instant.secondsBefore?_eq_some_iff hsome]
      · rw [before_eq_error_iff, before?_of_fixed hmonth hyear,
          Instant.secondsBefore?_eq_none_iff hsome]
  · refine ⟨finish.date.monthsBefore months, fun _ => Date.monthsEarlier_iff, fun start => ?_, ?_⟩
    · rw [before_eq_ok_iff, before?_of_months hmonths, Instant.monthsBefore?_eq_some_iff]
    · rw [before_eq_error_iff, before?_of_months hmonths, Instant.monthsBefore?_eq_none_iff]
  · intro t
    exact t.not_lt_earliest

-- A month before 31 March 2024 is 29 February.
example : (before? ⟨1, .month, by decide⟩ ⟨1711843200, 0, by decide⟩).map Instant.seconds =
    some 1709164800 := by
  decide

end CalendarRollup.Lookback
