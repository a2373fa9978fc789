import CalendarRollup.Config.Basic
import CalendarRollup.Proofs.Rollup.Resolution

/-! Longer lookbacks of one unit lead back further, by a second at least. So a lookback that a valid
configuration has always leads to an instant before the end. -/
namespace CalendarRollup

namespace Date
variable {d : Date} {m n : Nat}

theorem before_monthsBefore (lt : m < n) : (d.monthsBefore n).Before (d.monthsBefore m) := by
  obtain ⟨_, hlast, hmonths⟩ := @months_monthsBefore m d
  obtain ⟨hfirst, _, hmonths'⟩ := @months_monthsBefore n d
  unfold Before
  omega

theorem monthsBefore_zero (valid : d.IsValid) : d.monthsBefore 0 = d := by
  refine (monthsEarlier_iff.mp ?_).symm
  exact ⟨⟨valid.1, valid.2.1⟩, by omega, .inl ⟨rfl, valid.2.2.2⟩⟩

end Date

namespace Instant
variable {a b t r : Instant} {n : Nat}

/-- The same time of day on an earlier date is a day earlier at least. -/
theorem second_le_of_date_before (same : a.timeOfDay = b.timeOfDay)
    (before : a.date.Before b.date) :
    a.toNanos + secondNanos ≤ b.toNanos := by
  have hdays := Date.toDays_lt_of_before a.isValid_date b.isValid_date before
  have ha := a.seconds_eq_date
  have hb := b.seconds_eq_date
  obtain ⟨hsecond, hnano⟩ := timeOfDay_eq_iff.mp same
  simp only [toNanos, secondNanos, daySeconds] at *
  omega

theorem toNanos_secondsBefore? (h : t.secondsBefore? n = some r) :
    r.toNanos = t.toNanos - n * secondNanos := by
  rcases Nat.eq_zero_or_pos n with rfl | hpos
  · rw [secondsBefore?_zero] at h
    cases h
    omega
  · exact ((secondsBefore?_eq_some_iff hpos).mp h).2

end Instant

namespace Lookback
variable {lookback shorter longer : Lookback} {finish start earlier later : Instant}

theorem months?_of_unit (unit : shorter.unit = longer.unit) (range : shorter.range < longer.range) :
    shorter.months? = none ∧ longer.months? = none ∨
      ∃ m n, shorter.months? = some m ∧ longer.months? = some n ∧ m < n := by
  unfold months?
  rw [unit]
  cases longer.unit with
  | month => exact .inr ⟨_, _, rfl, rfl, range⟩
  | year => exact .inr ⟨_, _, rfl, rfl, by omega⟩
  | _ => exact .inl ⟨rfl, rfl⟩

/-- Of two lookbacks of one unit the longer one leads back by another second at least. Seconds to
weeks are compared on the line of nanoseconds, months and years by their dates. -/
theorem second_le_of_range_lt (unit : shorter.unit = longer.unit)
    (range : shorter.range < longer.range) (reaches : shorter.before? finish = some later)
    (reaches' : longer.before? finish = some earlier) :
    earlier.toNanos + Instant.secondNanos ≤ later.toNanos := by
  rcases months?_of_unit unit range with ⟨hfixed, hfixed'⟩ | ⟨m, n, hmonths, hmonths', hlt⟩
  · obtain ⟨hmonth, hyear⟩ := months?_eq_none_iff.mp hfixed
    obtain ⟨hmonth', hyear'⟩ := months?_eq_none_iff.mp hfixed'
    rw [before?_of_fixed hmonth hyear] at reaches
    rw [before?_of_fixed hmonth' hyear', ← unit] at reaches'
    have hlater := Instant.toNanos_secondsBefore? reaches
    have hearlier := Instant.toNanos_secondsBefore? reaches'
    have hseconds : shorter.range * shorter.unit.seconds < longer.range * shorter.unit.seconds :=
      Nat.mul_lt_mul_of_pos_right range shorter.unit.seconds_pos
    unfold Instant.secondNanos at *
    omega
  · rw [before?_of_months hmonths, Instant.monthsBefore?_eq_some_iff] at reaches
    rw [before?_of_months hmonths', Instant.monthsBefore?_eq_some_iff] at reaches'
    refine Instant.second_le_of_date_before (reaches'.2.trans reaches.2.symm) ?_
    rw [reaches.1, reaches'.1]
    exact Date.before_monthsBefore hlt

/-- A lookback of no units leads nowhere. -/
theorem before?_of_range_zero (empty : lookback.range = 0) :
    lookback.before? finish = some finish := by
  cases hmonths : lookback.months? with
  | none =>
    obtain ⟨hmonth, hyear⟩ := months?_eq_none_iff.mp hmonths
    rw [before?_of_fixed hmonth hyear, empty, Nat.zero_mul, Instant.secondsBefore?_zero]
  | some months =>
    have hzero : months = 0 := by
      unfold months? at hmonths
      split at hmonths <;> cases hmonths <;> omega
    rw [before?_of_months hmonths, hzero, Instant.monthsBefore?_eq_some_iff,
      Date.monthsBefore_zero finish.isValid_date]
    exact ⟨rfl, rfl⟩

theorem second_le_of_range_pos (pos : 0 < lookback.range)
    (reaches : lookback.before? finish = some start) :
    start.toNanos + Instant.secondNanos ≤ finish.toNanos := by
  obtain ⟨empty, hunit, hrange⟩ : ∃ empty : Lookback,
      empty.unit = lookback.unit ∧ empty.range = 0 := ⟨⟨0, lookback.unit, by decide⟩, rfl, rfl⟩
  have hstays := @before?_of_range_zero empty finish hrange
  exact second_le_of_range_lt hunit (hrange ▸ pos) hstays reaches

end Lookback

theorem Config.range_pos_of_validate {config : Config} (valid : config.validate = .ok ()) :
    0 < config.plan.lookback.range := by
  unfold validate at valid
  rcases Nat.eq_zero_or_pos config.plan.lookback.range with hzero | hpos
  · rw [if_pos hzero] at valid
    cases valid
  · exact hpos

section
variable {asked : WindowRequest} {policy : EndTime} {lookback : Lookback} {now start finish : Instant}

/-- A lookback that is not empty is taken as it is, and its window has something in it. -/
theorem WindowRequest.resolve_of_lookback (pos : 0 < lookback.range) (missing : asked.start = none)
    (ends : asked.EndsAt now policy finish) (reaches : lookback.before? finish = some start) :
    ∃ window, asked.resolve policy lookback now = .ok window ∧ window.start = start ∧
      window.finish = finish := by
  have hlt := Instant.lt_of_second_le (Lookback.second_le_of_range_pos pos reaches)
  exact ⟨⟨start, finish, hlt⟩, resolve_eq_ok_iff.mpr ⟨start, finish, ends, .lookback missing reaches,
    Window.between_eq_ok_iff.mpr (.inl ⟨hlt, rfl, rfl⟩)⟩, rfl, rfl⟩

theorem WindowRequest.resolve_ne_empty (pos : 0 < lookback.range) (missing : asked.start = none)
    (bound : Instant) : asked.resolve policy lookback now ≠ .error (.emptyWindow bound) := by
  intro h
  cases resolve_eq_error_iff.mp h with
  | empty ends starts =>
    cases starts with
    | asked given =>
      rw [missing] at given
      cases given
    | lookback _ reaches =>
      exact Instant.lt_irrefl bound
        (Instant.lt_of_second_le (Lookback.second_le_of_range_pos pos reaches))

end

/-- Longer lookbacks of one unit lead to earlier instants, and only an empty one does not lead away
from the end. So under a valid configuration a request without a start of its own gets the window
from the instant that the lookback leads to up to its end, and is never told that this is empty. -/
theorem Lookback.before_ordered :
    (∀ (shorter longer : Lookback) (finish later earlier : Instant),
      shorter.unit = longer.unit → shorter.range < longer.range →
      shorter.before finish = .ok later → longer.before finish = .ok earlier → earlier < later) ∧
    (∀ (lookback : Lookback) (finish start : Instant),
      0 < lookback.range → lookback.before finish = .ok start → start < finish) ∧
    (∀ config : Config, config.validate = .ok () →
      ∀ (asked : WindowRequest) (now : Instant), asked.start = none →
        (∀ finish start, asked.EndsAt now config.plan.endTime finish →
          config.plan.lookback.before finish = .ok start →
          ∃ window, asked.resolve config.plan.endTime config.plan.lookback now = .ok window ∧
            window.start = start ∧ window.finish = finish) ∧
        ∀ bound, asked.resolve config.plan.endTime config.plan.lookback now ≠
          .error (.emptyWindow bound)) := by
  refine ⟨?_, ?_, ?_⟩
  · intro shorter longer finish later earlier unit range reaches reaches'
    exact Instant.lt_of_second_le (second_le_of_range_lt unit range (before_eq_ok_iff.mp reaches)
      (before_eq_ok_iff.mp reaches'))
  · intro lookback finish start pos reaches
    exact Instant.lt_of_second_le (second_le_of_range_pos pos (before_eq_ok_iff.mp reaches))
  · intro config valid asked now missing
    have hpos := config.range_pos_of_validate valid
    refine ⟨fun finish start ends reaches => ?_, ?_⟩
    · exact WindowRequest.resolve_of_lookback hpos missing ends (before_eq_ok_iff.mp reaches)
    · exact WindowRequest.resolve_ne_empty hpos missing

/-- A window of a month, where an event does not say where it starts. -/
def monthlyConfig : Config where
  backend := ⟨"localhost:27017", "stores", none, none, BackendConfig.defaultRequestTimeoutSecs⟩
  plan := {
    table := "readings"
    idColumn := "sensor"
    timeColumn := "measured"
    rules := [⟨"temp", .max⟩]
    mode := .discrete
    calendar := SamplingBucket.oneHour.calendar
    lookback := ⟨1, .month, by decide⟩
    endTime := .now
    provisionTimeoutSecs := 60 }
  ingest := none
  log := .terminal .info

/-- The middle of the second 60 before 2017. -/
def leapSecond : Instant := ⟨1483228799, 1500000000, by decide⟩

/-- A month before a leap second is the same second 60 of 30 November. One second before it is in
the second 59 of the same minute. -/
theorem Lookback.before_ordered_leapSecond :
    monthlyConfig.validate = .ok () ∧
      (∃ window, WindowRequest.resolve ⟨none, none, none⟩ .now monthlyConfig.plan.lookback
        leapSecond = .ok window ∧ window.start = ⟨1480550399, 1500000000, by decide⟩ ∧
          window.finish = leapSecond) ∧
      (⟨1483228799, 500000000, by decide⟩ : Instant) < leapSecond := by
  have hvalid : monthlyConfig.validate = .ok () := rfl
  have hmonth : monthlyConfig.plan.lookback.before leapSecond =
      .ok ⟨1480550399, 1500000000, by decide⟩ := before_eq_ok_iff.mpr (by decide)
  have hsecond : before ⟨1, .second, by decide⟩ leapSecond =
      .ok ⟨1483228799, 500000000, by decide⟩ := before_eq_ok_iff.mpr (by decide)
  refine ⟨hvalid, ?_, ?_⟩
  · exact (before_ordered.2.2 monthlyConfig hvalid ⟨none, none, none⟩ leapSecond rfl).1
      leapSecond _ (.processing rfl) hmonth
  · exact before_ordered.1 ⟨0, .second, by decide⟩ ⟨1, .second, by decide⟩ leapSecond _ _
      rfl (by decide) rfl hsecond

end CalendarRollup
