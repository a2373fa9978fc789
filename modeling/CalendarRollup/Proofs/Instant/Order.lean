import CalendarRollup.Proofs.Instant.Datetimes
import CalendarRollup.Proofs.Instant.Earlier

/-! The order of instants. A leap second lies before the next second, though their nanoseconds are
counted alike; instants that are a whole second apart on the line of nanoseconds are in the order of
that line. -/
namespace CalendarRollup.Instant

section
variable {a b : Instant}

theorem lt_iff : a < b ↔ a.seconds < b.seconds ∨ a.seconds = b.seconds ∧ a.nano < b.nano :=
  Iff.rfl

theorem lt_trichotomy (a b : Instant) : a < b ∨ a = b ∨ b < a := by
  rw [lt_iff, lt_iff]
  by_cases hsame : a.seconds = b.seconds ∧ a.nano = b.nano
  · exact .inr (.inl (eq_of_seconds_nano hsame.1 hsame.2))
  · omega

theorem lt_irrefl (a : Instant) : ¬ a < a := by
  rw [lt_iff]
  omega

theorem lt_asymm (h : a < b) : ¬ b < a := by
  rw [lt_iff] at *
  omega

theorem ne_of_lt (h : a < b) : a ≠ b := by
  rintro rfl
  exact lt_irrefl a h

/-- Neither of them has two seconds of nanoseconds, so one second between them decides. -/
theorem lt_of_second_le (apart : a.toNanos + secondNanos ≤ b.toNanos) : a < b := by
  obtain ⟨_, _, hnano⟩ := b.inRange
  rw [lt_iff]
  simp only [toNanos, secondNanos] at *
  omega

theorem toNanos_truncated (t : Instant) : t.truncated.toNanos = t.toNanos / 10000 * 10000 := by
  simp only [toNanos, truncated, secondNanos]
  omega

/-- What clocks show is at the same place on the line of nanoseconds. -/
theorem toNanos_carried (t : Instant) : t.carried.toNanos = t.toNanos := by
  by_cases h : t.IsOnClock
  · rw [carried_of_isOnClock h]
  · obtain ⟨_, hseconds, hnano⟩ := carried_of_not h
    simp only [toNanos, hseconds, ← hnano, secondNanos]
    omega

theorem truncated_lt_of_second_le (apart : a.toNanos + secondNanos ≤ b.toNanos) :
    a.carried.truncated < b.carried.truncated := by
  apply lt_of_second_le
  rw [toNanos_truncated, toNanos_truncated, toNanos_carried, toNanos_carried]
  unfold secondNanos at *
  omega

/-- Cutting instants down keeps their order, unless it makes them equal. -/
theorem truncated_lt_iff (lt : a < b) : a.truncated < b.truncated ↔ a.truncated ≠ b.truncated := by
  constructor
  · exact ne_of_lt
  · intro hne
    rcases lt_trichotomy a.truncated b.truncated with hlt | heq | hgt
    · exact hlt
    · exact absurd heq hne
    · rw [lt_iff] at *
      simp only [truncated] at hgt
      omega

theorem truncated_eq_iff : a.truncated = b.truncated ↔
    a.seconds = b.seconds ∧ a.nano / 10000 = b.nano / 10000 := by
  rw [truncated, truncated, mk.injEq]
  omega

end

end CalendarRollup.Instant
