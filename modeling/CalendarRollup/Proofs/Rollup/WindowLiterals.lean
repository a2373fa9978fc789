import CalendarRollup.Proofs.Instant.LiteralForm
import CalendarRollup.Proofs.Instant.Readback
import CalendarRollup.Proofs.Rollup.LongerLookbacks
import CalendarRollup.Proofs.Rollup.QueryReader

/-! The bounds of a window as a query shows them. Their literals keep the order of the bounds, but
bounds within the same ten microseconds have one literal, and the window in the query is empty. They
have the form that the backend reads in the years 0 to 9999, unless they show a second 60. -/
namespace CalendarRollup

/-- The instant that a datetime literal denotes. -/
def Instant.ofLiteral? (literal : String) : Option Instant :=
  match QueryReading.readDatetime literal.toList with
  | some (datetime, []) => ofText? datetime
  | _ => none

theorem Instant.ofLiteral?_literal (t : Instant) :
    ofLiteral? t.literal = some t.carried.truncated := by
  have hread := QueryReading.readDatetime_literal t []
  rw [List.append_nil] at hread
  unfold ofLiteral?
  rw [hread]
  exact t.ofText?_datetime

namespace WindowRequest
variable {asked : WindowRequest} {policy : EndTime} {lookback : Lookback} {now : Instant}
  {window : Window}

/-- Where a lookback is taken the bounds are further apart than their literals are exact. -/
theorem truncated_lt_of_lookback (resolved : asked.resolve policy lookback now = .ok window)
    (missing : asked.start = none) (pos : 0 < lookback.range) :
    window.start.carried.truncated < window.finish.carried.truncated := by
  obtain ⟨start, finish, _, starts, hbetween⟩ := resolve_eq_ok_iff.mp resolved
  cases starts with
  | asked given =>
    rw [missing] at given
    cases given
  | lookback _ reaches =>
    have hapart := Lookback.second_le_of_range_pos pos reaches
    have hlt := Instant.lt_of_second_le hapart
    rcases Window.between_eq_ok_iff.mp hbetween with ⟨_, hstart, hfinish⟩ | ⟨hgt, _⟩
    · rw [hstart, hfinish]
      exact Instant.truncated_lt_of_second_le hapart
    · exact absurd hgt (Instant.lt_asymm hlt)

/-- The literals of a window denote what clocks show of its bounds, without what is left after the
last ten microseconds; a window that starts where a lookback leads to always has two of them. Those
of bounds on the clock differ, and then denote one instant before another, just where the bounds do
not lie within the same ten microseconds of one second. -/
theorem literals_of_resolve (resolved : asked.resolve policy lookback now = .ok window) :
    ∃ first last, Instant.ofLiteral? window.start.literal = some first ∧
      Instant.ofLiteral? window.finish.literal = some last ∧
      (window.start.literal = window.finish.literal ↔ first = last) ∧
      (window.start.IsOnClock → window.finish.IsOnClock →
        (first < last ↔ window.start.literal ≠ window.finish.literal) ∧
        (window.start.literal = window.finish.literal ↔
          window.start.seconds = window.finish.seconds ∧
            window.start.nano / 10000 = window.finish.nano / 10000)) ∧
      (asked.start = none → 0 < lookback.range → first < last) := by
  refine ⟨window.start.carried.truncated, window.finish.carried.truncated,
    Instant.ofLiteral?_literal _, Instant.ofLiteral?_literal _, Instant.literal_eq_iff_carried, ?_, ?_⟩
  · intro onClock onClock'
    rw [ne_eq, Instant.literal_eq_iff_carried, Instant.carried_of_isOnClock onClock,
      Instant.carried_of_isOnClock onClock', Instant.truncated_lt_iff window.start_lt_finish]
    exact ⟨Iff.rfl, Instant.truncated_eq_iff⟩
  · exact truncated_lt_of_lookback resolved

/-- Nine microseconds from the first of February 2024 on. -/
def nineMicroseconds : WindowRequest where
  start := some ⟨1706745600, 0, by decide⟩
  finish := some ⟨1706745600, 9000, by decide⟩
  reference := none

/-- A window that is not empty can be so in the query: nine microseconds are less than its literals
show. -/
theorem not_literals_differ :
    ¬ ∀ (asked : WindowRequest) (policy : EndTime) (lookback : Lookback) (now : Instant)
      (window : Window), asked.resolve policy lookback now = .ok window →
        window.start.literal ≠ window.finish.literal ∧
          ∀ first last, Instant.ofLiteral? window.start.literal = some first →
            Instant.ofLiteral? window.finish.literal = some last → first < last := by
  intro differ
  have hresolved : nineMicroseconds.resolve .now ⟨1, .hour, by decide⟩ leapSecond =
      .ok ⟨⟨1706745600, 0, by decide⟩, ⟨1706745600, 9000, by decide⟩, by decide⟩ := rfl
  obtain ⟨hliterals, _⟩ := differ _ _ _ _ _ hresolved
  exact hliterals (Instant.literal_eq_iff_carried.mpr (by decide))

/-- A nanosecond is enough to tell bounds apart that are on both sides of ten microseconds. -/
theorem literals_of_resolve_nanosecond :
    ∃ window, WindowRequest.resolve ⟨some ⟨1706745600, 9999, by decide⟩,
        some ⟨1706745600, 10000, by decide⟩, none⟩ .now ⟨1, .hour, by decide⟩ leapSecond =
          .ok window ∧
      window.start.literal ≠ window.finish.literal := by
  obtain ⟨window, hresolved, hstart, hfinish⟩ : ∃ window, WindowRequest.resolve
      ⟨some ⟨1706745600, 9999, by decide⟩, some ⟨1706745600, 10000, by decide⟩, none⟩ .now
        ⟨1, .hour, by decide⟩ leapSecond = .ok window ∧ window.start.nano = 9999 ∧
          window.finish.nano = 10000 := ⟨_, rfl, rfl, rfl⟩
  obtain ⟨_, _, _, _, _, honClock, _⟩ := literals_of_resolve hresolved
  obtain ⟨_, hsame⟩ := honClock (Instant.isOnClock_of_lt (hstart ▸ by decide))
    (Instant.isOnClock_of_lt (hfinish ▸ by decide))
  refine ⟨window, hresolved, fun h => ?_⟩
  obtain ⟨_, hnano⟩ := hsame.mp h
  rw [hstart, hfinish] at hnano
  cases hnano

end WindowRequest

namespace RollupPlan
variable {plan : RollupPlan} {payload : Json} {now : Instant} {request : RollupRequest}

/-- The bounds of a request are what its payload, the policy and the lookback give, in their order.
The literal of a bound has the form that the backend reads just where the year is one from 0 to 9999
and the bound is not in a leap second at the end of a minute. -/
theorem literals_of_request (made : plan.request payload now = .ok request) :
    ∃ members asked start finish, Payload.members payload = .ok members ∧
      Payload.windowRequest plan.endTime members = .ok asked ∧
      asked.EndsAt now plan.endTime finish ∧ asked.StartsAt plan.lookback finish start ∧
      (request.window.start = start ∧ request.window.finish = finish ∨
        request.window.start = finish ∧ request.window.finish = start) ∧
      ∀ bound ∈ [request.window.start, request.window.finish],
        (∃ parts : DatetimeParts, parts.literal = bound.literal) ↔
          (0 ≤ bound.date.year ∧ bound.date.year ≤ 9999) ∧
            ¬ (bound.isLeapSecond = true ∧ bound.seconds % 60 = 59) := by
  obtain ⟨members, _, asked, window, hmembers, _, hasked, hresolve, rfl⟩ :=
    request_eq_ok_iff.mp made
  obtain ⟨start, finish, ends, starts, hbetween⟩ := WindowRequest.resolve_eq_ok_iff.mp hresolve
  refine ⟨members, asked, start, finish, hmembers, hasked, ends, starts, ?_,
    fun bound _ => bound.exists_literal_iff⟩
  rcases Window.between_eq_ok_iff.mp hbetween with ⟨_, hbounds⟩ | ⟨_, hbounds⟩
  · exact .inl hbounds
  · exact .inr hbounds

/-- A plan that looks back further than years have been counted. -/
def antiquityPlan : RollupPlan :=
  { monthlyConfig.plan with lookback := ⟨3000, .year, by decide⟩ }

def newYear : Instant := ⟨1704088800, 0, by decide⟩

/-- The request at the beginning of 2024 starts 976 years before the year 0. -/
theorem exists_antiquity : ∃ request,
    antiquityPlan.request (.object [("sensor", .text "a")]) newYear = .ok request ∧
      request.window.start = ⟨-92966810400, 0, by decide⟩ ∧ request.window.finish = newYear := by
  have hreaches : antiquityPlan.lookback.before? newYear =
      some ⟨-92966810400, 0, by decide⟩ := by decide
  obtain ⟨window, hwindow, hstart, hfinish⟩ : ∃ window,
      WindowRequest.resolve ⟨none, none, none⟩ .now antiquityPlan.lookback newYear = .ok window ∧
        window.start = ⟨-92966810400, 0, by decide⟩ ∧ window.finish = newYear :=
    WindowRequest.resolve_of_lookback (by decide) rfl (.processing rfl) hreaches
  exact ⟨_, request_eq_ok_iff.mpr ⟨_, _, _, window, rfl, rfl, rfl, hwindow, rfl⟩, hstart, hfinish⟩

/-- A request can have a bound whose year is written with a sign. -/
theorem not_literals_formed :
    ¬ ∀ (plan : RollupPlan) (payload : Json) (now : Instant) (request : RollupRequest),
      plan.request payload now = .ok request →
        (∃ parts : DatetimeParts, parts.literal = request.window.start.literal) ∧
          ∃ parts : DatetimeParts, parts.literal = request.window.finish.literal := by
  intro formed
  obtain ⟨request, hmade, hstart, _⟩ := exists_antiquity
  obtain ⟨hformed, _⟩ := formed _ _ _ _ hmade
  rw [hstart, Instant.exists_literal_iff] at hformed
  exact absurd hformed (by decide)

/-- Such a request has a literal with a sign for its start, and one of the right form for its
end. -/
theorem literals_of_request_antiquity : ∃ request,
    antiquityPlan.request (.object [("sensor", .text "a")]) newYear = .ok request ∧
      (¬ ∃ parts : DatetimeParts, parts.literal = request.window.start.literal) ∧
      ∃ parts : DatetimeParts, parts.literal = request.window.finish.literal := by
  obtain ⟨request, hmade, hstart, hfinish⟩ := exists_antiquity
  obtain ⟨_, _, _, _, _, _, _, _, _, hform⟩ := literals_of_request hmade
  refine ⟨request, hmade, fun h => ?_, ?_⟩
  · have hyear := (hform _ (by simp)).mp h
    rw [hstart] at hyear
    exact absurd hyear (by decide)
  · refine (hform _ (by simp)).mpr ?_
    rw [hfinish]
    decide

end RollupPlan
end CalendarRollup
