import Mathlib.Algebra.Group.Nat.Units
import Mathlib.Algebra.Order.Field.Rat
import CalendarRollup.Calendar.Sampling

/-! The fine bucket of a calendar: comparing without division finds the bucket of the least bound
above the exact fine interval. A longer calendar has no shorter bucket, and all calendars but that
of a second are longer than their buckets. -/
namespace CalendarRollup

/-- The part of the calendar that its samples are averaged over, in seconds. -/
def CalendarSpec.fineInterval (spec : CalendarSpec) : ℚ :=
  (spec.totalSeconds : ℚ) / SamplingBucket.divisor

namespace SamplingBucket

/-- The bucket for a fine interval: that of the least bound above the interval, or the longest one
where all bounds are reached. -/
inductive Covers : SamplingBucket → ℚ → Prop
  | bounded {bucket : SamplingBucket} {bound : Nat} {interval : ℚ}
    (listed : (bound, bucket) ∈ table) (below : interval < bound)
    (least : ∀ entry ∈ table, interval < entry.1 → bound ≤ entry.1) : Covers bucket interval
  | longest {interval : ℚ} (reached : ∀ entry ∈ table, (entry.1 : ℚ) ≤ interval) :
    Covers .oneYear interval

/-- The first entry that is found in a sorted table is the one of the least bound. -/
theorem find?_least {α : Type} {entries : List (Nat × α)} {fits : Nat × α → Bool}
    {entry : Nat × α} (sorted : entries.Pairwise (·.1 < ·.1))
    (found : entries.find? fits = some entry) :
    ∀ other ∈ entries, fits other = true → entry.1 ≤ other.1 := by
  obtain ⟨_, before, after, rfl, hbefore⟩ := List.find?_eq_some_iff_append.mp found
  intro other hmem hfits
  rcases List.mem_append.mp hmem with hmem | hmem
  · have hnot := hbefore other hmem
    rw [hfits] at hnot
    cases hnot
  · obtain ⟨_, hsorted, _⟩ := List.pairwise_append.mp sorted
    rcases List.mem_cons.mp hmem with rfl | hmem
    · exact Nat.le_refl _
    · exact Nat.le_of_lt ((List.pairwise_cons.mp hsorted).1 other hmem)

theorem sorted_table : table.Pairwise (·.1 < ·.1) := by decide

section Calendars

theorem calendar_le_of_bound_le : ∀ entry ∈ table, ∀ other ∈ table, entry.1 ≤ other.1 →
    entry.2.calendar.totalSeconds ≤ other.2.calendar.totalSeconds := by decide

theorem calendar_le_oneYear (bucket : SamplingBucket) :
    bucket.calendar.totalSeconds ≤ oneYear.calendar.totalSeconds := by
  cases bucket <;> decide

theorem totalSeconds_injective {a b : SamplingBucket}
    (h : a.calendar.totalSeconds = b.calendar.totalSeconds) : a = b := by
  cases a <;> cases b <;> first | rfl | exact absurd h (by decide)

/-- Every other bucket stands behind a bound that is, times the divisor, longer than its own
calendar. The bound itself can be shorter: a month stands behind the bound of a day. -/
theorem exists_bound_before {bucket : SamplingBucket} (other : bucket ≠ .oneSecond) :
    ∃ entry ∈ table, entry.2.calendar.totalSeconds < bucket.calendar.totalSeconds ∧
      bucket.calendar.totalSeconds < entry.1 * divisor := by
  cases bucket <;> first | exact absurd rfl other | decide

end Calendars

section Covers
variable {bucket other : SamplingBucket} {interval longer : ℚ}

theorem Covers.calendar_le (covers : bucket.Covers interval) (covers' : other.Covers longer)
    (le : interval ≤ longer) : bucket.calendar.totalSeconds ≤ other.calendar.totalSeconds := by
  cases covers' with
  | longest => exact calendar_le_oneYear bucket
  | bounded listed' below' =>
    cases covers with
    | bounded listed below least =>
      exact calendar_le_of_bound_le _ listed _ listed' (least _ listed' (lt_of_le_of_lt le below'))
    | longest reached =>
      exact absurd (lt_of_le_of_lt le below') (not_lt_of_ge (reached _ listed'))

theorem Covers.unique (covers : bucket.Covers interval) (covers' : other.Covers interval) :
    bucket = other :=
  totalSeconds_injective (Nat.le_antisymm (covers.calendar_le covers' le_rfl)
    (covers'.calendar_le covers le_rfl))

/-- The bounds of all shorter buckets are reached. -/
theorem Covers.reaches (covers : bucket.Covers interval) {entry : Nat × SamplingBucket}
    (listed : entry ∈ table)
    (shorter : entry.2.calendar.totalSeconds < bucket.calendar.totalSeconds) :
    (entry.1 : ℚ) ≤ interval := by
  cases covers with
  | bounded listed' _ least =>
    by_contra habove
    have hbound := least _ listed (not_le.mp habove)
    have hcalendar := calendar_le_of_bound_le _ listed' _ listed hbound
    exact absurd shorter (Nat.not_lt.mpr hcalendar)
  | longest reached => exact reached _ listed

end Covers
end SamplingBucket

namespace CalendarSpec
open SamplingBucket

section
variable (spec : CalendarSpec)

theorem fineInterval_lt_iff (bound : Nat) :
    spec.fineInterval < bound ↔ spec.totalSeconds < bound * divisor := by
  have hpos : (0 : ℚ) < (divisor : ℚ) := Nat.cast_pos.mpr (by decide)
  rw [fineInterval, div_lt_iff₀ hpos, ← Nat.cast_mul, Nat.cast_lt]

theorem le_fineInterval_iff (bound : Nat) :
    (bound : ℚ) ≤ spec.fineInterval ↔ bound * divisor ≤ spec.totalSeconds := by
  rw [← not_lt, fineInterval_lt_iff, Nat.not_lt]

theorem fineInterval_le_iff (other : CalendarSpec) :
    spec.fineInterval ≤ other.fineInterval ↔ spec.totalSeconds ≤ other.totalSeconds := by
  have hpos : (0 : ℚ) < (divisor : ℚ) := Nat.cast_pos.mpr (by decide)
  rw [fineInterval, fineInterval, div_le_div_iff_of_pos_right hpos, Nat.cast_le]

theorem covers_samplingBucket : spec.samplingBucket.Covers spec.fineInterval := by
  unfold samplingBucket
  split
  next entry found =>
    have hbelow : spec.totalSeconds < entry.1 * divisor := by simpa using List.find?_some found
    refine .bounded (List.mem_of_find?_eq_some found) ((spec.fineInterval_lt_iff _).mpr hbelow) ?_
    intro other listed below
    refine find?_least sorted_table found other listed ?_
    exact decide_eq_true ((spec.fineInterval_lt_iff _).mp below)
  next missing =>
    refine .longest fun entry listed => (spec.le_fineInterval_iff _).mpr ?_
    simpa using List.find?_eq_none.mp missing entry listed

theorem samplingBucket_eq_iff (bucket : SamplingBucket) :
    spec.samplingBucket = bucket ↔ bucket.Covers spec.fineInterval := by
  constructor
  · rintro rfl
    exact spec.covers_samplingBucket
  · exact spec.covers_samplingBucket.unique

/-- A second is the only calendar as short as that. -/
theorem totalSeconds_eq_one_iff : spec.totalSeconds = 1 ↔ spec.range = 1 ∧ spec.unit = .second := by
  have hunit : spec.unit.seconds = 1 ↔ spec.unit = .second := by
    cases spec.unit <;> decide
  rw [totalSeconds, mul_eq_one, hunit]

theorem totalSeconds_pos : 0 < spec.totalSeconds := Nat.mul_pos spec.range_pos spec.unit.seconds_pos

theorem totalSeconds_lt : spec.totalSeconds < 18446744073709551616 := by
  have hunit : spec.unit.seconds ≤ TimeUnit.year.seconds := by cases spec.unit <;> decide
  calc spec.totalSeconds ≤ 4294967296 * TimeUnit.year.seconds :=
        Nat.mul_le_mul (Nat.le_of_lt spec.range_lt) hunit
    _ < 18446744073709551616 := by decide

theorem samplingBucket_shorter (other : spec.samplingBucket ≠ .oneSecond) :
    spec.samplingBucket.calendar.totalSeconds < spec.totalSeconds := by
  obtain ⟨entry, listed, shorter, hcalendar⟩ := exists_bound_before other
  have hreached := spec.covers_samplingBucket.reaches listed shorter
  exact Nat.lt_of_lt_of_le hcalendar ((spec.le_fineInterval_iff _).mp hreached)

/-- Only a second is as long as its bucket. -/
theorem samplingBucket_le : spec.samplingBucket.calendar.totalSeconds ≤ spec.totalSeconds ∧
    (spec.samplingBucket.calendar.totalSeconds = spec.totalSeconds ↔
      spec.range = 1 ∧ spec.unit = .second) := by
  rw [← totalSeconds_eq_one_iff]
  by_cases h : spec.samplingBucket = .oneSecond
  · rw [h]
    exact ⟨spec.totalSeconds_pos, eq_comm⟩
  · have hshorter := spec.samplingBucket_shorter h
    have hpos := spec.samplingBucket.calendar.totalSeconds_pos
    omega

theorem calendar_samplingBucket_eq_iff :
    spec.samplingBucket.calendar = spec ↔ spec.range = 1 ∧ spec.unit = .second := by
  constructor
  · intro h
    exact spec.samplingBucket_le.2.mp (congrArg totalSeconds h)
  · obtain ⟨range, unit, _, _⟩ := spec
    rintro ⟨hrange, hunit⟩
    cases hrange
    cases hunit
    rfl

end

/-- A bucket is found for every calendar. It is the one that the exact fine interval has, and
neither the length of the calendar nor a bound times the divisor takes more than 64 bits. Longer
calendars have buckets at least as long. No bucket is longer than its calendar, and a second is the
one calendar that is as long as its bucket, and that is its bucket. -/
theorem samplingBucket_of_interval (spec : CalendarSpec) :
    spec.selectBucket = .ok spec.samplingBucket ∧
    (∀ bucket : SamplingBucket, spec.samplingBucket = bucket ↔ bucket.Covers spec.fineInterval) ∧
    spec.totalSeconds < 18446744073709551616 ∧
    (∀ entry ∈ table, entry.1 * divisor < 18446744073709551616) ∧
    (∀ other : CalendarSpec, spec.totalSeconds ≤ other.totalSeconds →
      spec.samplingBucket.calendar.totalSeconds ≤ other.samplingBucket.calendar.totalSeconds) ∧
    spec.samplingBucket.calendar.totalSeconds ≤ spec.totalSeconds ∧
    (spec.samplingBucket.calendar.totalSeconds = spec.totalSeconds ↔
      spec.range = 1 ∧ spec.unit = .second) ∧
    (spec.samplingBucket.calendar = spec ↔ spec.range = 1 ∧ spec.unit = .second) := by
  refine ⟨spec.selectBucket_eq, spec.samplingBucket_eq_iff, spec.totalSeconds_lt, by decide, ?_,
    spec.samplingBucket_le.1, spec.samplingBucket_le.2, spec.calendar_samplingBucket_eq_iff⟩
  intro other hle
  exact spec.covers_samplingBucket.calendar_le other.covers_samplingBucket
    ((spec.fineInterval_le_iff other).mpr hle)

/-- As many seconds as a calendar can have, and a number of years that is longer. -/
theorem samplingBucket_of_interval_longest :
    totalSeconds ⟨4294967295, .second, by decide, by decide⟩ ≤
      totalSeconds ⟨137, .year, by decide, by decide⟩ ∧
    (samplingBucket ⟨4294967295, .second, by decide, by decide⟩).calendar.totalSeconds ≤
      (samplingBucket ⟨137, .year, by decide, by decide⟩).calendar.totalSeconds := by
  have hle : totalSeconds ⟨4294967295, .second, by decide, by decide⟩ ≤
      totalSeconds ⟨137, .year, by decide, by decide⟩ := by decide
  obtain ⟨_, _, _, _, hmonotone, _⟩ :=
    samplingBucket_of_interval ⟨4294967295, .second, by decide, by decide⟩
  exact ⟨hle, hmonotone _ hle⟩

-- Fifty minutes have a fine interval of exactly a minute, which is not below the bound of a minute.
example : samplingBucket ⟨50, .minute, by decide, by decide⟩ = .oneMinute := by decide

end CalendarSpec
end CalendarRollup
