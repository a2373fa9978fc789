import CalendarRollup.Proofs.Instant.Datetimes
import CalendarRollup.Proofs.Instant.Forms
import CalendarRollup.Rollup.Reading

/-! What is written of an instant is read back as a timestamp: datetimes for the instant with whole
tens of microseconds, texts to the second for the instant with a whole second. -/
namespace CalendarRollup

namespace Instant

theorem nanos_fixed {fraction : Nat} (lt : fraction < 100000) :
    nanos (Numeral.fixed 5 fraction) = fraction * 10000 := by
  rw [nanos, Numeral.value_fixed, Numeral.length_fixed]
  omega

theorem datetimeChars_eq (t : Instant) : t.datetimeChars =
    t.date.chars ++ ' ' :: t.clock.chars ++ pointed (Numeral.fixed 5 (t.clock.nano / 10000)) := by
  simp [datetimeChars, secondChars, pointed, places, Numeral.fixed]

theorem isDigit_of_mem_fraction (t : Instant) :
    ∀ c ∈ Numeral.fixed 5 (t.clock.nano / 10000), c.isDigit = true :=
  fun _ => Numeral.isDigit_of_mem_fixed

theorem spaced_datetimeChars (t : Instant) :
    Parser.spaced t.datetimeChars = some t.carried.truncated := by
  have hdate : t.date.IsValid := Date.isValid_ofDays _
  have hnano := t.isValid_clock.2.2.2
  rw [datetimeChars_eq]
  refine Parser.spaced_chars hdate t.isValid_clock t.isDigit_of_mem_fraction ?_
  rw [nanos_fixed (by omega), ← clock_truncated, ← carried_truncated]
  exact t.truncated.ofClock?_date_clock

theorem ofText?_datetime (t : Instant) : ofText? t.datetime = some t.carried.truncated :=
  ofText?_of_form (by simp [Parser.forms]) t.spaced_datetimeChars

theorem ofText_datetime (t : Instant) : ofText t.datetime = .ok t.carried.truncated := by
  rw [ofText, ofText?_datetime]

theorem literal_eq_iff {a b : Instant} : a.literal = b.literal ↔ a.datetime = b.datetime := by
  unfold literal
  constructor
  · intro h
    have hchars := congrArg String.toList h
    simp only [String.toList_append, List.append_assoc] at hchars
    exact String.toList_injective (List.append_cancel_right (List.append_cancel_left hchars))
  · intro h
    rw [h]

theorem literal_eq_iff_carried {a b : Instant} :
    a.literal = b.literal ↔ a.carried.truncated = b.carried.truncated :=
  literal_eq_iff.trans datetime_eq_iff

/-- A datetime is read as the timestamp that it was written for, its fraction cut down to a multiple
of ten microseconds. Nothing else of the date and the time of day is lost, not the second 60 of a
leap second either. So just the instants that are equal when they are cut down have one literal. All
this is so for instants that clocks show: any other instant has the datetime of one in the next
second, and is read as that. -/
theorem ofJson_datetime (t : Instant) :
    (t.IsOnClock →
      ofJson (.text t.datetime) = .ok t.truncated ∧
      t.truncated.date = t.date ∧
      t.truncated.clock = { t.clock with nano := t.clock.nano / 10000 * 10000 } ∧
      t.truncated.isLeapSecond = t.isLeapSecond ∧
      ∀ u : Instant, u.IsOnClock → (t.literal = u.literal ↔ t.truncated = u.truncated)) ∧
    (¬ t.IsOnClock → ∃ u : Instant, u.IsOnClock ∧ u.seconds = t.seconds + 1 ∧
      u.nano + secondNanos = t.nano ∧ t.literal = u.literal ∧
      ofJson (.text t.datetime) = .ok u.truncated) := by
  refine ⟨fun onClock => ?_, fun off => ?_⟩
  · refine ⟨?_, rfl, t.clock_truncated, t.isLeapSecond_truncated, fun u onClock' => ?_⟩
    · rw [ofJson, ofText_datetime, carried_of_isOnClock onClock]
    · rw [literal_eq_iff_carried, carried_of_isOnClock onClock, carried_of_isOnClock onClock']
  · obtain ⟨_, hseconds, hnano⟩ := carried_of_not off
    refine ⟨t.carried, t.isOnClock_carried, hseconds, hnano, ?_, t.ofText_datetime⟩
    rw [literal_eq_iff_carried, carried_of_isOnClock t.isOnClock_carried]

/-- Half a second past the end of the second 30 of 1970, in which no leap second can be. -/
def pastSecondThirty : Instant := ⟨30, 1500000000, by decide⟩

/-- The last nanosecond of the second 60 before 2017. -/
def endOfLeapSecond : Instant := ⟨1483228799, 1999999999, by decide⟩

/-- What is past the end of a second inside a minute is read as the next second, and shares its
literal. -/
theorem not_ofJson_datetime : ¬ ∀ t : Instant, ofJson (.text t.datetime) = .ok t.truncated ∧
    ∀ u : Instant, t.literal = u.literal ↔ t.truncated = u.truncated := by
  intro claimed
  have hread := pastSecondThirty.ofText_datetime.symm.trans (claimed pastSecondThirty).1
  exact absurd (Except.ok.inj hread) (by decide)

/-- The end of a leap second is read as its last ten microseconds, and what is past the second 30 as
the middle of the second 31. -/
theorem ofJson_datetime_leapSecond :
    ofJson (.text endOfLeapSecond.datetime) = .ok ⟨1483228799, 1999990000, by decide⟩ ∧
    ofJson (.text pastSecondThirty.datetime) = .ok ⟨31, 500000000, by decide⟩ := by
  obtain ⟨hread, _⟩ := (ofJson_datetime endOfLeapSecond).1 (by decide)
  obtain ⟨next, _, hseconds, hnano, _, hnext⟩ := (ofJson_datetime pastSecondThirty).2 (by decide)
  have hsame : next = ⟨31, 500000000, by decide⟩ :=
    eq_of_seconds_nano hseconds (Nat.add_right_cancel hnano)
  rw [hsame] at hnext
  exact ⟨hread, hnext⟩

/-- The instant without its fraction of a second. A leap second is a second by itself. -/
def wholeSecond (t : Instant) : Instant where
  seconds := t.seconds
  nano := t.nano / secondNanos * secondNanos
  inRange := by
    obtain ⟨hleast, hmost, hlt⟩ := t.inRange
    unfold InRange secondNanos
    unfold secondNanos at hlt
    exact ⟨hleast, hmost, by omega⟩

theorem clock_wholeSecond (t : Instant) : t.wholeSecond.clock = { t.clock with nano := 0 } := by
  have hpos : 0 < secondNanos := by decide
  simp only [clock, wholeSecond, Nat.mul_mod_left, Nat.mul_div_cancel _ hpos]

theorem isOnClock_wholeSecond {t : Instant} (onClock : t.IsOnClock) : t.wholeSecond.IsOnClock := by
  intro hleap
  refine onClock (Nat.le_of_not_lt fun hlt => ?_)
  simp only [wholeSecond, Nat.div_eq_of_lt hlt, Nat.zero_mul] at hleap
  cases hleap

theorem spaced_secondChars {t : Instant} (onClock : t.IsOnClock) :
    Parser.spaced t.secondChars = some t.wholeSecond := by
  have hdate : t.date.IsValid := Date.isValid_ofDays _
  have hclock := ofClock?_of_isOnClock (isOnClock_wholeSecond onClock)
  rw [clock_wholeSecond] at hclock
  have hnone : ∀ c ∈ ([] : List Char), c.isDigit = true := by simp
  have hread := Parser.spaced_chars hdate t.isValid_clock hnone hclock
  rwa [pointed, if_pos rfl, List.append_nil] at hread

theorem ofText_toSecond {t : Instant} (onClock : t.IsOnClock) :
    ofText t.toSecond = .ok t.wholeSecond := by
  have hread := ofText?_of_form (by simp [Parser.forms]) (spaced_secondChars onClock)
  rw [ofText, toSecond, hread]

end Instant
end CalendarRollup
