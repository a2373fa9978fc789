import CalendarRollup.Proofs.Instant.Order
import CalendarRollup.Proofs.Rollup.Lookbacks
import CalendarRollup.Proofs.Rollup.Requests

/-! The window that a request resolves to. What it ends and starts at is said here without the order
in which it is computed, and so is every reason for which there is no window. -/
namespace CalendarRollup

namespace Instant

theorem ofText_eq_ok_iff {s : String} {t : Instant} : ofText s = .ok t ↔ ofText? s = some t := by
  unfold ofText
  cases ofText? s <;> simp

theorem ofText_eq_error_iff {s : String} {fault : RequestFault} : ofText s = .error fault ↔
    ofText? s = none ∧ fault = .unreadableTimestamp (Text.trim s) := by
  unfold ofText
  cases ofText? s <;> simp [eq_comm]

end Instant

namespace Window

section
variable {a b : Instant}

theorem between_eq_ok_iff {window : Window} : between a b = .ok window ↔
    a < b ∧ window.start = a ∧ window.finish = b ∨
      b < a ∧ window.start = b ∧ window.finish = a := by
  unfold between
  constructor
  · intro h
    split at h
    next hlt =>
      cases h
      exact .inl ⟨hlt, rfl, rfl⟩
    next =>
      split at h
      next hgt =>
        cases h
        exact .inr ⟨hgt, rfl, rfl⟩
      next => cases h
  · rintro (⟨hlt, rfl, rfl⟩ | ⟨hgt, rfl, rfl⟩)
    · rw [dif_pos hlt]
    · rw [dif_neg (Instant.lt_asymm hgt), dif_pos hgt]

theorem between_eq_error_iff {fault : RequestFault} : between a b = .error fault ↔
    a = b ∧ fault = .emptyWindow a := by
  unfold between
  constructor
  · intro h
    split at h
    next => cases h
    next hlt =>
      split at h
      next => cases h
      next hgt =>
        cases h
        rcases Instant.lt_trichotomy a b with hlt' | hsame | hgt'
        · exact absurd hlt' hlt
        · exact ⟨hsame, rfl⟩
        · exact absurd hgt' hgt
  · rintro ⟨rfl, rfl⟩
    rw [dif_neg (Instant.lt_irrefl a), dif_neg (Instant.lt_irrefl a)]

end
end Window

namespace WindowRequest

/-- What the window of a request that is processed at `now` ends at: its own end, or else what the
policy says. -/
inductive EndsAt (asked : WindowRequest) (now : Instant) : EndTime → Instant → Prop
  | asked {policy : EndTime} {finish : Instant} (given : asked.finish = some finish) :
    EndsAt asked now policy finish
  | processing (missing : asked.finish = none) : EndsAt asked now .now now
  | reference {finish : Instant} (missing : asked.finish = none)
    (given : asked.reference = some finish) : EndsAt asked now .payloadTimestamp finish
  | fixed {text : String} {finish : Instant} (missing : asked.finish = none)
    (reads : Instant.ofText? text = some finish) : EndsAt asked now (.fixed text) finish

/-- What the window of a request that ends at `finish` starts at: its own start, or else the
instant that the lookback leads to. -/
inductive StartsAt (asked : WindowRequest) (lookback : Lookback) (finish : Instant) :
    Instant → Prop
  | asked {start : Instant} (given : asked.start = some start) :
    StartsAt asked lookback finish start
  | lookback {start : Instant} (missing : asked.start = none)
    (reaches : lookback.before? finish = some start) : StartsAt asked lookback finish start

/-- Why a request has no window: it has nothing to end at, nothing to start at, or both are one. -/
inductive Refused (asked : WindowRequest) (lookback : Lookback) (now : Instant) :
    EndTime → RequestFault → Prop
  | noReference (missing : asked.finish = none) (unreferenced : asked.reference = none) :
    Refused asked lookback now .payloadTimestamp .noReference
  | unreadable {text : String} (missing : asked.finish = none)
    (unreadable : Instant.ofText? text = none) :
    Refused asked lookback now (.fixed text) (.unreadableTimestamp (Text.trim text))
  | outOfRange {policy : EndTime} {finish : Instant} (ends : EndsAt asked now policy finish)
    (missing : asked.start = none) (unreached : lookback.before? finish = none) :
    Refused asked lookback now policy (.lookbackOutOfRange lookback.range lookback.unit finish)
  | empty {policy : EndTime} {bound : Instant} (ends : EndsAt asked now policy bound)
    (starts : StartsAt asked lookback bound bound) :
    Refused asked lookback now policy (.emptyWindow bound)

section
variable {asked : WindowRequest} {policy : EndTime} {lookback : Lookback}
  {now start finish : Instant} {window : Window} {fault : RequestFault}

theorem finishBy_fixed {text : String} (missing : asked.finish = none) :
    asked.finishBy (.fixed text) now = Instant.ofText text := by
  unfold finishBy
  rw [missing]

theorem finishBy_eq_ok_iff : asked.finishBy policy now = .ok finish ↔
    asked.EndsAt now policy finish := by
  constructor
  · intro h
    unfold finishBy at h
    split at h
    next given =>
      cases h
      exact .asked given
    next missing =>
      cases h
      exact .processing missing
    next missing =>
      split at h
      next given =>
        cases h
        exact .reference missing given
      next => cases h
    next text missing => exact .fixed missing (Instant.ofText_eq_ok_iff.mp h)
  · intro h
    cases h with
    | asked given =>
      unfold finishBy
      rw [given]
    | processing missing =>
      unfold finishBy
      rw [missing]
    | reference missing given =>
      unfold finishBy
      rw [missing, given]
    | fixed missing reads =>
      rw [finishBy_fixed missing]
      exact Instant.ofText_eq_ok_iff.mpr reads

theorem startBefore_eq_ok_iff : asked.startBefore lookback finish = .ok start ↔
    asked.StartsAt lookback finish start := by
  constructor
  · intro h
    unfold startBefore at h
    split at h
    next given =>
      cases h
      exact .asked given
    next missing => exact .lookback missing (Lookback.before_eq_ok_iff.mp h)
  · intro h
    unfold startBefore
    cases h with
    | asked given => simp only [given]
    | lookback missing reaches => simp only [missing, Lookback.before_eq_ok_iff, reaches]

theorem refused_of_finishBy (h : asked.finishBy policy now = .error fault) :
    asked.Refused lookback now policy fault := by
  unfold finishBy at h
  split at h
  next => cases h
  next => cases h
  next missing =>
    split at h
    next => cases h
    next unreferenced =>
      cases h
      exact .noReference missing unreferenced
  next text missing =>
    obtain ⟨hunreadable, rfl⟩ := Instant.ofText_eq_error_iff.mp h
    exact .unreadable missing hunreadable

theorem startBefore_eq_error_iff : asked.startBefore lookback finish = .error fault ↔
    asked.start = none ∧ lookback.before? finish = none ∧
      fault = .lookbackOutOfRange lookback.range lookback.unit finish := by
  unfold startBefore Lookback.before
  cases asked.start <;> cases lookback.before? finish <;> simp [eq_comm]

theorem resolve_eq_ok_iff : asked.resolve policy lookback now = .ok window ↔
    ∃ start finish, asked.EndsAt now policy finish ∧ asked.StartsAt lookback finish start ∧
      Window.between start finish = .ok window := by
  simp only [resolve, Except.bind_eq_ok, finishBy_eq_ok_iff, startBefore_eq_ok_iff]
  constructor
  · rintro ⟨finish, ends, start, starts, h⟩
    exact ⟨start, finish, ends, starts, h⟩
  · rintro ⟨start, finish, ends, starts, h⟩
    exact ⟨finish, ends, start, starts, h⟩

/-- Two bounds that are asked for are all that is looked at. -/
theorem resolve_of_bounds (given : asked.start = some start) (given' : asked.finish = some finish) :
    asked.resolve policy lookback now = Window.between start finish := by
  have hfinish : asked.finishBy policy now = .ok finish := finishBy_eq_ok_iff.mpr (.asked given')
  have hstart : asked.startBefore lookback finish = .ok start :=
    startBefore_eq_ok_iff.mpr (.asked given)
  rw [resolve, hfinish]
  exact congrArg (· >>= fun start => Window.between start finish) hstart

theorem resolve_eq_error_iff : asked.resolve policy lookback now = .error fault ↔
    asked.Refused lookback now policy fault := by
  unfold resolve
  rw [Except.bind_eq_error]
  constructor
  · rintro (h | ⟨finish, hfinish, h⟩)
    · exact refused_of_finishBy h
    · have ends := finishBy_eq_ok_iff.mp hfinish
      rcases Except.bind_eq_error.mp h with h | ⟨start, hstart, h⟩
      · obtain ⟨missing, unreached, rfl⟩ := startBefore_eq_error_iff.mp h
        exact .outOfRange ends missing unreached
      · obtain ⟨rfl, rfl⟩ := Window.between_eq_error_iff.mp h
        exact .empty ends (startBefore_eq_ok_iff.mp hstart)
  · intro h
    cases h with
    | noReference missing unreferenced =>
      unfold finishBy
      rw [missing, unreferenced]
      exact .inl rfl
    | unreadable missing unreadable =>
      rw [finishBy_fixed missing]
      exact .inl (Instant.ofText_eq_error_iff.mpr ⟨unreadable, rfl⟩)
    | @outOfRange _ finish ends missing unreached =>
      refine .inr ⟨finish, finishBy_eq_ok_iff.mpr ends, ?_⟩
      rw [Except.bind_eq_error, startBefore_eq_error_iff]
      exact .inl ⟨missing, unreached, rfl⟩
    | @empty _ bound ends starts =>
      refine .inr ⟨bound, finishBy_eq_ok_iff.mpr ends, ?_⟩
      rw [Except.bind_eq_error]
      exact .inr ⟨bound, startBefore_eq_ok_iff.mpr starts,
        Window.between_eq_error_iff.mpr ⟨rfl, rfl⟩⟩

end

/-- A request has a window just where it has something to end at and something else to start at, and
that is the window between the two, whichever of them is the earlier one. All other requests are
refused for what they lack. Where both bounds are asked for nothing else is looked at. -/
theorem resolve_bounds (asked : WindowRequest) (policy : EndTime) (lookback : Lookback)
    (now : Instant) :
    (∀ window, asked.resolve policy lookback now = .ok window ↔
      ∃ start finish, asked.EndsAt now policy finish ∧ asked.StartsAt lookback finish start ∧
        (start < finish ∧ window.start = start ∧ window.finish = finish ∨
          finish < start ∧ window.start = finish ∧ window.finish = start)) ∧
    ((∃ window, asked.resolve policy lookback now = .ok window) ↔
      ∃ start finish, asked.EndsAt now policy finish ∧ asked.StartsAt lookback finish start ∧
        start ≠ finish) ∧
    (∀ fault, asked.resolve policy lookback now = .error fault ↔
      asked.Refused lookback now policy fault) ∧
    (asked.start.isSome → asked.finish.isSome → ∀ reference policy' lookback' now',
      { asked with reference }.resolve policy' lookback' now' =
        asked.resolve policy lookback now) := by
  refine ⟨fun window => ?_, ?_, fun fault => resolve_eq_error_iff, ?_⟩
  · simp only [resolve_eq_ok_iff, Window.between_eq_ok_iff]
  · simp only [resolve_eq_ok_iff]
    constructor
    · rintro ⟨window, start, finish, ends, starts, h⟩
      refine ⟨start, finish, ends, starts, ?_⟩
      rcases Window.between_eq_ok_iff.mp h with ⟨hlt, _⟩ | ⟨hlt, _⟩
      · exact Instant.ne_of_lt hlt
      · exact (Instant.ne_of_lt hlt).symm
    · rintro ⟨start, finish, ends, starts, hne⟩
      rcases Instant.lt_trichotomy start finish with hlt | heq | hlt
      · exact ⟨⟨start, finish, hlt⟩, start, finish, ends, starts,
          Window.between_eq_ok_iff.mpr (.inl ⟨hlt, rfl, rfl⟩)⟩
      · exact absurd heq hne
      · exact ⟨⟨finish, start, hlt⟩, start, finish, ends, starts,
          Window.between_eq_ok_iff.mpr (.inr ⟨hlt, rfl, rfl⟩)⟩
  · intro hstart hfinish reference policy' lookback' now'
    obtain ⟨start, hstart⟩ := Option.isSome_iff_exists.mp hstart
    obtain ⟨finish, hfinish⟩ := Option.isSome_iff_exists.mp hfinish
    rw [resolve_of_bounds hstart hfinish]
    exact resolve_of_bounds hstart hfinish

-- The fixed reference is not read where an end is asked for.
example : resolve ⟨some Instant.latest, some Instant.earliest, none⟩ (.fixed "soon")
    ⟨0, .year, by decide⟩ Instant.latest = .ok ⟨Instant.earliest, Instant.latest, by decide⟩ := rfl

end WindowRequest
end CalendarRollup
