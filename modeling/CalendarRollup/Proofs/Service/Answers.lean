import Mathlib.Data.List.Perm.Basic
import CalendarRollup.Service.Serving

/-! Serving lines, with reader, handlers and writer taking their steps in any order: an answer is on
its way in just one place until it is written, and the senders of the queue are those of the parties
that may still put an answer into it. -/
namespace CalendarRollup.Serving

/-- The answers on their way, wherever they are. -/
def owed (handlers : Nat → Handler) (s : Serving) : List String :=
  s.written ++ s.queue ++ s.held.toList ++ s.finished ++
    s.running.map fun handled => (handlers handled.1 handled.2).render

/-- A bound on the steps that are left. -/
def remaining (s : Serving) : Nat :=
  4 * s.unread.length + 3 * s.running.length + 2 * s.finished.length + 2 * s.held.toList.length +
    s.queue.length + s.reading.toNat + s.writing.toNat

section Queue
variable {s s' : Serving} {line : String}

/-- An answer is lost only where the writer has ended. -/
theorem send_eq_some (h : s.send line = some s') :
    s.writing = true ∧ s' = { s with queue := s.queue ++ [line], senders := s.senders - 1 } ∨
      s.writing = false ∧ s' = { s with senders := s.senders - 1 } := by
  unfold send at h
  cases hworks : s.writing with
  | false =>
    rw [hworks] at h
    exact .inr ⟨rfl, (Option.some.inj h).symm⟩
  | true =>
    rw [hworks] at h
    simp only [Bool.not_true, Bool.false_eq_true, if_false] at h
    split at h
    · exact .inl ⟨rfl, (Option.some.inj h).symm⟩
    · cases h

theorem send_unread (h : s.send line = some s') : s'.unread = s.unread := by
  rcases send_eq_some h with ⟨_, rfl⟩ | ⟨_, rfl⟩ <;> rfl

theorem isSome_send {t : Serving} (room : t.queue = []) (line : String) :
    (t.send line).isSome = true := by
  unfold send capacity
  rw [room]
  cases t.writing <;> rfl

theorem remaining_send (h : s.send line = some s') :
    s'.remaining ≤ s.remaining + 1 := by
  rcases send_eq_some h with ⟨_, rfl⟩ | ⟨_, rfl⟩
  · simp only [remaining, List.length_append, List.length_singleton]
    omega
  · simp only [remaining]
    omega

theorem remaining_start (lines : List String) :
    (start lines).remaining = 4 * lines.length + 2 := rfl

theorem count_owed (handlers : Nat → Handler) (s : Serving) (answer : String) :
    (s.owed handlers).count answer = s.written.count answer + s.queue.count answer +
      s.held.toList.count answer + s.finished.count answer +
      (s.running.map fun handled => (handlers handled.1 handled.2).render).count answer := by
  simp only [Serving.owed, List.count_append]

theorem count_eraseIdx {α : Type} [DecidableEq α] {values : List α} {index : Nat} {value : α}
    (found : values[index]? = some value) (other : α) :
    values.count other = (value :: values.eraseIdx index).count other := by
  obtain ⟨hlt, rfl⟩ := List.getElem?_eq_some_iff.mp found
  exact (List.getElem_cons_eraseIdx_perm hlt).symm.count_eq other

end Queue

section Complaints
variable [Complaints]

/-- All that the serving of some lines can come to, with the steps until then. -/
inductive Run (handlers : Nat → Handler) (lines : List String) : List Label → Serving → Prop
  | start : Run handlers lines [] (.start lines)
  | step {labels : List Label} {s s' : Serving} (run : Run handlers lines labels s)
    (label : Label) (stepped : s.step handlers label = some s') :
    Run handlers lines (labels ++ [label]) s'

theorem Run.append {handlers : Nat → Handler} {lines : List String} {labels more : List Label}
    {s s' : Serving} (run : Run handlers lines labels s)
    (steps : more.foldlM (Serving.step handlers) s = some s') :
    Run handlers lines (labels ++ more) s' := by
  induction more generalizing labels s with
  | nil =>
    cases steps
    rwa [List.append_nil]
  | cons label more ih =>
    rw [List.foldlM_cons] at steps
    obtain ⟨next, hnext, hsteps⟩ := Option.bind_eq_some_iff.mp steps
    rw [List.append_cons]
    exact ih (run.step label hnext) hsteps

/-- What a line is answered with, if it is not blank. -/
def answer? (handler : Handler) (line : String) : Option String :=
  if Text.isAllBlank line then none
  else match InboundEvent.parse? line with
    | some event => some (handler event).render
    | none => some (OutboundEvent.unreadable line).render

/-- The answers to lines, each by the handler for its place. -/
def expected (handlers : Nat → Handler) (lines : List String) : List String :=
  lines.zipIdx.filterMap fun (line, place) => answer? (handlers place) line

theorem expected_concat (handlers : Nat → Handler) (lines : List String) (line : String) :
    expected handlers (lines ++ [line]) =
      expected handlers lines ++ (answer? (handlers lines.length) line).toList := by
  unfold expected
  rw [List.zipIdx_append, List.filterMap_append]
  cases h : answer? (handlers lines.length) line <;> simp [h]

/-- The steps of a serving. A sender goes with the answer that is sent. -/
inductive Moves (handlers : Nat → Handler) (s : Serving) : Label → Serving → Prop
  | skip {line : String} {rest : List String} (free : s.held = none)
    (next : s.unread = line :: rest) (blank : Text.isAllBlank line = true) :
    Moves handlers s .read { s with unread := rest, taken := s.taken + 1 }
  | spawn {line : String} {rest : List String} {event : InboundEvent} (free : s.held = none)
    (next : s.unread = line :: rest) (solid : Text.isAllBlank line = false)
    (parsed : InboundEvent.parse? line = some event) :
    Moves handlers s .read { s with
      unread := rest, taken := s.taken + 1
      running := s.running ++ [(s.taken, event)], senders := s.senders + 1 }
  | refuse {line : String} {rest : List String} (free : s.held = none)
    (next : s.unread = line :: rest) (solid : Text.isAllBlank line = false)
    (unparsed : InboundEvent.parse? line = none) :
    Moves handlers s .read { s with
      unread := rest, taken := s.taken + 1
      held := some (OutboundEvent.unreadable line).render, senders := s.senders + 1 }
  | handOver {line : String} {s' : Serving} (holds : s.held = some line)
    (sent : { s with held := none }.send line = some s') : Moves handlers s .handOver s'
  | complete {index place : Nat} {event : InboundEvent}
    (found : s.running[index]? = some (place, event)) :
    Moves handlers s (.complete index) { s with
      running := s.running.eraseIdx index
      finished := s.finished ++ [(handlers place event).render] }
  | enqueue {index : Nat} {line : String} {s' : Serving} (found : s.finished[index]? = some line)
    (sent : { s with finished := s.finished.eraseIdx index }.send line = some s') :
    Moves handlers s (.enqueue index) s'
  | write {line : String} {rest : List String} (works : s.writing = true)
    (next : s.queue = line :: rest) :
    Moves handlers s .write { s with queue := rest, written := s.written ++ [line] }
  | close (works : s.reading = true) (free : s.held = none) (ended : s.unread = []) :
    Moves handlers s .close { s with reading := false, senders := s.senders - 1 }
  | finish (works : s.writing = true) (empty : s.queue = []) (unsent : s.senders = 0) :
    Moves handlers s .finish { s with writing := false }

section Steps
variable {handlers : Nat → Handler} {lines before : List String} {s s' : Serving}

theorem moves_of_step {label : Label} (h : s.step handlers label = some s') :
    Moves handlers s label s' := by
  cases label with
  | read =>
    simp only [step] at h
    split at h
    next line rest hfree hnext =>
      cases h
      unfold take
      cases hblank : Text.isAllBlank line with
      | true => exact .skip hfree hnext hblank
      | false =>
        cases hparsed : InboundEvent.parse? line with
        | some event => simpa using Moves.spawn hfree hnext hblank hparsed
        | none => simpa using Moves.refuse hfree hnext hblank hparsed
    next => cases h
  | handOver =>
    simp only [step, Option.bind_eq_bind, Option.bind_eq_some_iff] at h
    obtain ⟨line, hheld, hsent⟩ := h
    exact .handOver hheld hsent
  | complete index =>
    simp only [step, Option.bind_eq_bind, Option.bind_eq_some_iff, Prod.exists] at h
    obtain ⟨place, event, hfound, h⟩ := h
    cases h
    exact .complete hfound
  | enqueue index =>
    simp only [step, Option.bind_eq_bind, Option.bind_eq_some_iff] at h
    obtain ⟨line, hfound, hsent⟩ := h
    exact .enqueue hfound hsent
  | write =>
    simp only [step] at h
    split at h
    next hworks hnext =>
      cases h
      exact .write hworks hnext
    next => cases h
  | close =>
    simp only [step] at h
    split at h
    next hworks hfree hended =>
      cases h
      exact .close hworks hfree hended
    next => cases h
  | finish =>
    simp only [step, Bool.and_eq_true, List.isEmpty_iff, beq_iff_eq] at h
    split at h
    next hready =>
      cases h
      exact .finish hready.1.1 hready.1.2 hready.2
    next => cases h

/-- What holds once the lines in `before` have been read: each of their answers is in one place, the
senders are those of the reader, of its own answer and of the handlers, and nobody ends too
early. -/
structure Balanced (handlers : Nat → Handler) (before : List String) (s : Serving) : Prop where
  taken : before.length = s.taken
  owed : (s.owed handlers).Perm (expected handlers before)
  senders : s.senders =
    s.reading.toNat + s.held.toList.length + s.finished.length + s.running.length
  closed : s.reading = false → s.held = none ∧ s.unread = []
  ended : s.writing = false → s.queue = [] ∧ s.senders = 0

theorem Balanced.start (handlers : Nat → Handler) (lines : List String) :
    Balanced handlers [] (.start lines) where
  taken := rfl
  owed := List.Perm.refl []
  senders := rfl
  closed := fun h => nomatch h
  ended := fun h => nomatch h

/-- Sending an answer that `t` has taken from its place. As it has a sender, the writer has not
ended. -/
theorem Balanced.sent {t : Serving} {line : String} (balanced : Balanced handlers before s)
    (sent : t.send line = some s') (taken : t.taken = s.taken)
    (writing : t.writing = s.writing) (senders : t.senders = s.senders)
    (owed : (s.owed handlers).Perm (line :: t.owed handlers))
    (held : t.senders =
      t.reading.toNat + t.held.toList.length + t.finished.length + t.running.length + 1)
    (closed : t.reading = false → t.held = none ∧ t.unread = []) :
    Balanced handlers before s' := by
  rcases send_eq_some sent with ⟨hworks, rfl⟩ | ⟨hidle, _⟩
  · refine ⟨balanced.taken.trans taken.symm, ?_, ?_, closed, fun hidle => ?_⟩
    · refine List.Perm.trans ?_ balanced.owed
      rw [List.perm_iff_count]
      intro answer
      have hcount := owed.count_eq answer
      simp only [count_owed, List.count_append, List.count_cons, List.count_nil] at hcount ⊢
      omega
    · dsimp only
      omega
    · rw [hworks] at hidle
      cases hidle
  · have hended := balanced.ended (writing ▸ hidle)
    omega

theorem Balanced.reads {line : String} {rest : List String}
    (balanced : Balanced handlers before s) (next : s.unread = line :: rest) :
    s.reading = true ∧ s.writing = true := by
  have hsenders := balanced.senders
  cases hreading : s.reading with
  | false => cases next.symm.trans (balanced.closed hreading).2
  | true =>
    cases hwriting : s.writing with
    | true => exact ⟨rfl, rfl⟩
    | false =>
      rw [hreading, (balanced.ended hwriting).2, Bool.toNat_true] at hsenders
      omega

theorem answer?_of_blank {handler : Handler} {line : String}
    (blank : Text.isAllBlank line = true) : answer? handler line = none := by
  simp [answer?, blank]

theorem answer?_of_event {handler : Handler} {line : String} {event : InboundEvent}
    (solid : Text.isAllBlank line = false) (parsed : InboundEvent.parse? line = some event) :
    answer? handler line = some (handler event).render := by
  simp [answer?, solid, parsed]

theorem answer?_of_unparsed {handler : Handler} {line : String}
    (solid : Text.isAllBlank line = false) (unparsed : InboundEvent.parse? line = none) :
    answer? handler line = some (OutboundEvent.unreadable line).render := by
  simp [answer?, solid, unparsed]

/-! What the moves keep. An answer goes from one of the places to another, so only the counts in
these two change. -/

theorem Balanced.skip {line : String} {rest : List String} (balanced : Balanced handlers before s)
    (next : s.unread = line :: rest) (blank : Text.isAllBlank line = true) :
    Balanced handlers (before ++ [line]) { s with unread := rest, taken := s.taken + 1 } := by
  obtain ⟨hreading, _⟩ := balanced.reads next
  refine ⟨by simp [balanced.taken], ?_, balanced.senders, by simp [hreading], balanced.ended⟩
  rw [expected_concat, answer?_of_blank blank, Option.toList_none, List.append_nil]
  exact balanced.owed

theorem Balanced.spawn {line : String} {rest : List String} {event : InboundEvent}
    (balanced : Balanced handlers before s) (next : s.unread = line :: rest)
    (solid : Text.isAllBlank line = false) (parsed : InboundEvent.parse? line = some event) :
    Balanced handlers (before ++ [line]) { s with
      unread := rest, taken := s.taken + 1
      running := s.running ++ [(s.taken, event)], senders := s.senders + 1 } := by
  have hsenders := balanced.senders
  obtain ⟨hreading, hwriting⟩ := balanced.reads next
  refine ⟨by simp [balanced.taken], ?_, ?_, by simp [hreading], by simp [hwriting]⟩
  · rw [expected_concat, answer?_of_event solid parsed, balanced.taken]
    simp only [Serving.owed, List.map_append, ← List.append_assoc]
    exact balanced.owed.append_right _
  · simp only [List.length_append, List.length_singleton]
    omega

theorem Balanced.refuse {line : String} {rest : List String}
    (balanced : Balanced handlers before s) (free : s.held = none)
    (next : s.unread = line :: rest) (solid : Text.isAllBlank line = false)
    (unparsed : InboundEvent.parse? line = none) :
    Balanced handlers (before ++ [line]) { s with
      unread := rest, taken := s.taken + 1
      held := some (OutboundEvent.unreadable line).render, senders := s.senders + 1 } := by
  have hsenders := balanced.senders
  obtain ⟨hreading, hwriting⟩ := balanced.reads next
  refine ⟨by simp [balanced.taken], ?_, ?_, by simp [hreading], by simp [hwriting]⟩
  · rw [expected_concat, answer?_of_unparsed solid unparsed]
    refine List.Perm.trans ?_ (balanced.owed.append_right _)
    rw [List.perm_iff_count]
    intro answer
    simp only [List.count_append, count_owed, free, Option.toList_none, Option.toList_some,
      List.count_nil]
    omega
  · rw [free] at hsenders
    simp only [Option.toList_none, Option.toList_some, List.length_singleton,
      List.length_nil] at hsenders ⊢
    omega

theorem Balanced.handOver {line : String} (balanced : Balanced handlers before s)
    (holds : s.held = some line) (sent : { s with held := none }.send line = some s') :
    Balanced handlers before s' := by
  have hsenders := balanced.senders
  refine balanced.sent sent rfl rfl rfl ?_ ?_ fun hclosed => ?_
  · rw [List.perm_iff_count]
    intro answer
    simp only [List.count_cons, count_owed, holds, Option.toList_none, Option.toList_some,
      List.count_nil]
    omega
  · rw [holds] at hsenders
    simp only [Option.toList_none, Option.toList_some, List.length_singleton,
      List.length_nil] at hsenders ⊢
    omega
  · exact ⟨rfl, (balanced.closed hclosed).2⟩

theorem Balanced.complete {index place : Nat} {event : InboundEvent}
    (balanced : Balanced handlers before s) (found : s.running[index]? = some (place, event)) :
    Balanced handlers before { s with
      running := s.running.eraseIdx index
      finished := s.finished ++ [(handlers place event).render] } := by
  have hsenders := balanced.senders
  have hrendered : (s.running.map fun handled => (handlers handled.1 handled.2).render)[index]? =
      some (handlers place event).render := by simp [found]
  refine ⟨balanced.taken, ?_, ?_, balanced.closed, balanced.ended⟩
  · refine List.Perm.trans ?_ balanced.owed
    rw [List.perm_iff_count]
    intro answer
    have hcount := count_eraseIdx hrendered answer
    simp only [List.count_append, List.count_cons, List.count_nil, count_owed,
      List.eraseIdx_map] at hcount ⊢
    omega
  · have hlt := (List.getElem?_eq_some_iff.mp found).1
    simp only [List.length_append, List.length_singleton, List.length_eraseIdx_of_lt hlt]
    omega

theorem Balanced.enqueue {index : Nat} {line : String} (balanced : Balanced handlers before s)
    (found : s.finished[index]? = some line)
    (sent : { s with finished := s.finished.eraseIdx index }.send line = some s') :
    Balanced handlers before s' := by
  have hsenders := balanced.senders
  refine balanced.sent sent rfl rfl rfl ?_ ?_ balanced.closed
  · rw [List.perm_iff_count]
    intro answer
    have hcount := count_eraseIdx found answer
    simp only [List.count_cons, count_owed] at hcount ⊢
    omega
  · have hlt := (List.getElem?_eq_some_iff.mp found).1
    simp only [List.length_eraseIdx_of_lt hlt]
    omega

theorem Balanced.write {line : String} {rest : List String}
    (balanced : Balanced handlers before s) (works : s.writing = true)
    (next : s.queue = line :: rest) :
    Balanced handlers before { s with queue := rest, written := s.written ++ [line] } := by
  refine ⟨balanced.taken, ?_, balanced.senders, balanced.closed, by simp [works]⟩
  refine List.Perm.trans ?_ balanced.owed
  rw [List.perm_iff_count]
  intro answer
  simp only [List.count_append, List.count_cons, List.count_nil, count_owed, next]
  omega

theorem Balanced.close (balanced : Balanced handlers before s) (works : s.reading = true)
    (free : s.held = none) (ended : s.unread = []) :
    Balanced handlers before { s with reading := false, senders := s.senders - 1 } := by
  have hsenders := balanced.senders
  rw [works, Bool.toNat_true] at hsenders
  refine ⟨balanced.taken, balanced.owed, ?_, fun _ => ⟨free, ended⟩, fun hidle => ?_⟩
  · simp only [Bool.toNat_false]
    omega
  · have hended := (balanced.ended hidle).2
    omega

theorem Balanced.finish (balanced : Balanced handlers before s) (empty : s.queue = [])
    (unsent : s.senders = 0) : Balanced handlers before { s with writing := false } :=
  ⟨balanced.taken, balanced.owed, balanced.senders, balanced.closed, fun _ => ⟨empty, unsent⟩⟩

/-- What each step keeps, with the line that it reads if it does. -/
theorem Balanced.step {label : Label} (balanced : Balanced handlers before s)
    (moves : Moves handlers s label s') :
    ∃ read, s.unread = read ++ s'.unread ∧ Balanced handlers (before ++ read) s' := by
  have unread (same : s'.unread = s.unread) (kept : Balanced handlers before s') :
      ∃ read, s.unread = read ++ s'.unread ∧ Balanced handlers (before ++ read) s' :=
    ⟨[], same.symm, (List.append_nil before).symm ▸ kept⟩
  cases moves with
  | skip free next blank => exact ⟨_, next, balanced.skip next blank⟩
  | spawn free next solid parsed => exact ⟨_, next, balanced.spawn next solid parsed⟩
  | refuse free next solid unparsed => exact ⟨_, next, balanced.refuse free next solid unparsed⟩
  | handOver holds sent =>
    have hunread := send_unread sent
    exact unread hunread (balanced.handOver holds sent)
  | complete found => exact unread rfl (balanced.complete found)
  | enqueue found sent =>
    have hunread := send_unread sent
    exact unread hunread (balanced.enqueue found sent)
  | write works next => exact unread rfl (balanced.write works next)
  | close works free ended => exact unread rfl (balanced.close works free ended)
  | finish works empty unsent => exact unread rfl (balanced.finish empty unsent)

theorem Run.balanced {labels : List Label} (run : Run handlers lines labels s) :
    ∃ before, lines = before ++ s.unread ∧ Balanced handlers before s := by
  induction run with
  | start => exact ⟨[], rfl, .start handlers lines⟩
  | step _ _ stepped ih =>
    obtain ⟨before, hlines, hbalanced⟩ := ih
    obtain ⟨read, hread, hnext⟩ := hbalanced.step (moves_of_step stepped)
    exact ⟨before ++ read, by rw [hlines, hread, List.append_assoc], hnext⟩

/-- Where reader and writer have ended, all that was read is written. -/
theorem Balanced.perm_of_isOver (balanced : Balanced handlers before s)
    (done : s.isOver = true) : s.unread = [] ∧ s.written.Perm (expected handlers before) := by
  simp only [isOver, Bool.and_eq_true, Bool.not_eq_true'] at done
  obtain ⟨hfree, hread⟩ := balanced.closed done.1
  obtain ⟨hempty, hunsent⟩ := balanced.ended done.2
  have hsenders := balanced.senders
  rw [hunsent] at hsenders
  have hfinished : s.finished = [] := List.eq_nil_of_length_eq_zero (by omega)
  have hrunning : s.running = [] := List.eq_nil_of_length_eq_zero (by omega)
  have howed := balanced.owed
  simp only [Serving.owed, hempty, hfree, hfinished, hrunning, Option.toList_none, List.map_nil,
    List.append_nil] at howed
  exact ⟨hread, howed⟩

/-- Until reader and writer have ended, one of the eager steps can be taken. -/
theorem Balanced.goes_on (balanced : Balanced handlers before s) (done : s.isOver = false) :
    ∃ label ∈ eager, (s.step handlers label).isSome = true := by
  have hsenders := balanced.senders
  cases hwriting : s.writing with
  -- The writer has not ended before the reader: that holds a sender.
  | false =>
    have hunsent := (balanced.ended hwriting).2
    have hreading : s.reading = true := by simpa [isOver, hwriting] using done
    rw [hreading, Bool.toNat_true] at hsenders
    omega
  | true =>
    cases hqueue : s.queue with
    | cons line rest => exact ⟨.write, by decide, by simp [Serving.step, hwriting, hqueue]⟩
    | nil =>
      cases hfinished : s.finished with
      | cons line rest =>
        refine ⟨.enqueue 0, by decide, ?_⟩
        have hsent := @isSome_send { s with finished := rest } hqueue line
        simpa [Serving.step, hfinished] using hsent
      | nil =>
        cases hrunning : s.running with
        | cons handled rest => exact ⟨.complete 0, by decide, by simp [Serving.step, hrunning]⟩
        | nil =>
          cases hheld : s.held with
          | some line =>
            refine ⟨.handOver, by decide, ?_⟩
            have hsent := @isSome_send { s with held := none } hqueue line
            simpa [Serving.step, hheld] using hsent
          | none =>
            cases hunread : s.unread with
            | cons line rest => exact ⟨.read, by decide, by simp [Serving.step, hheld, hunread]⟩
            | nil =>
              cases hreading : s.reading with
              | true => exact ⟨.close, by decide, by simp [Serving.step, hreading, hheld, hunread]⟩
              | false =>
                have hunsent : s.senders = 0 := by
                  rw [hsenders, hreading, hheld, hfinished, hrunning]
                  rfl
                exact ⟨.finish, by decide, by simp [Serving.step, hwriting, hqueue, hunsent]⟩

theorem Moves.remaining_lt {label : Label} (moves : Moves handlers s label s') :
    s'.remaining < s.remaining := by
  cases moves with
  | skip free next blank =>
    simp only [remaining, next, List.length_cons]
    omega
  | spawn free next solid parsed =>
    simp only [remaining, next, List.length_cons, List.length_append, List.length_nil]
    omega
  | refuse free next solid unparsed =>
    simp only [remaining, next, free, List.length_cons, Option.toList_none, Option.toList_some,
      List.length_nil]
    omega
  | handOver holds sent =>
    have hsent := remaining_send sent
    simp only [remaining, holds, Option.toList_none, Option.toList_some, List.length_singleton,
      List.length_nil] at hsent ⊢
    omega
  | complete found =>
    have hlt := (List.getElem?_eq_some_iff.mp found).1
    simp only [remaining, List.length_eraseIdx_of_lt hlt, List.length_append,
      List.length_singleton]
    omega
  | enqueue found sent =>
    have hsent := remaining_send sent
    have hlt := (List.getElem?_eq_some_iff.mp found).1
    simp only [remaining, List.length_eraseIdx_of_lt hlt] at hsent ⊢
    omega
  | write works next =>
    simp only [remaining, next, List.length_cons]
    omega
  | close works free ended =>
    simp only [remaining, works, Bool.toNat_true, Bool.toNat_false]
    omega
  | finish works empty unsent =>
    simp only [remaining, works, Bool.toNat_true, Bool.toNat_false]
    omega

theorem Run.length_labels_le {labels : List Label} (run : Run handlers lines labels s) :
    labels.length + s.remaining ≤ 4 * lines.length + 2 := by
  induction run with
  | start => exact Nat.le_of_eq (by rw [remaining_start, List.length_nil, Nat.zero_add])
  | step _ _ stepped ih =>
    have hless := (moves_of_step stepped).remaining_lt
    rw [List.length_append, List.length_singleton]
    omega

/-- With as many steps as may be left, the eager steps come to the end. -/
theorem Run.exists_over {labels : List Label} (reached : Run handlers lines labels s) {steps : Nat}
    (enough : s.remaining ≤ steps) :
    ∃ all, Run handlers lines all (Serving.run handlers steps s) ∧
      (Serving.run handlers steps s).isOver = true := by
  induction steps generalizing labels s with
  | zero =>
    refine ⟨labels, reached, ?_⟩
    simp only [remaining] at enough
    cases hreading : s.reading <;> cases hwriting : s.writing <;>
      simp_all [Serving.run, isOver]
  | succ steps ih =>
    unfold Serving.run
    split
    next next hfound =>
      obtain ⟨label, _, hstep⟩ := List.exists_of_findSome?_eq_some hfound
      have hless := (moves_of_step hstep).remaining_lt
      exact ih (reached.step label hstep) (by omega)
    next hnone =>
      refine ⟨labels, reached, ?_⟩
      obtain ⟨before, _, hbalanced⟩ := reached.balanced
      cases hover : s.isOver with
      | true => rfl
      | false =>
        obtain ⟨label, hlabel, hstep⟩ := hbalanced.goes_on hover
        rw [List.findSome?_eq_none_iff.mp hnone label hlabel] at hstep
        cases hstep

theorem Run.perm_of_isOver {labels : List Label} (run : Run handlers lines labels s)
    (done : s.isOver = true) : s.written.Perm (expected handlers lines) := by
  obtain ⟨before, hlines, hbalanced⟩ := run.balanced
  obtain ⟨hread, hperm⟩ := hbalanced.perm_of_isOver done
  rw [hread, List.append_nil] at hlines
  exact hlines ▸ hperm

/-- The answers of one handler, where each line is answered before the next one is read, are among
those that can be written. -/
theorem perm_answers (handler : Handler) (lines : List String) :
    (answers handler lines).Perm (expected (fun _ => handler) lines) := by
  obtain ⟨_, hrun, hover⟩ := Run.start.exists_over (Nat.le_of_eq (remaining_start lines))
  exact hrun.perm_of_isOver hover

/-- Reader, handlers and writer take their steps in any order, at most four for a line and one for
each end. Once reader and writer have ended, the written lines are the answers to the lines that are
not blank, one for each: what the handler for the line says of its event, or that the line is no
event. Until then there is a step to take. -/
theorem Run.written_perm {labels : List Label} (run : Run handlers lines labels s) :
    (s.isOver = true → s.written.Perm (expected handlers lines)) ∧
      (s.isOver = false → ∃ label s', s.step handlers label = some s') ∧
      labels.length ≤ 4 * lines.length + 2 := by
  obtain ⟨before, _, hbalanced⟩ := run.balanced
  have hlength := run.length_labels_le
  refine ⟨run.perm_of_isOver, fun hover => ?_, by omega⟩
  obtain ⟨label, _, hstep⟩ := hbalanced.goes_on hover
  obtain ⟨s', hs'⟩ := Option.isSome_iff_exists.mp hstep
  exact ⟨label, s', hs'⟩

end Steps
end Complaints

/-- A reader of events that says where it gave up on a single word. -/
@[reducible] def wordComplaints : Complaints where
  json _ := none
  event _ := some "expected value at line 1 column 1"
  config _ := none

/-- A blank line, one that is no event, and two events, of which the second is handled first. -/
theorem Run.written_perm_overtaking :
    letI := wordComplaints
    let handlers : Nat → Handler := fun _ event => .ingested event.payload 200 event.carried
    let lines := ["  ", "hello", "\x7b\"payload\":1\x7d", "\x7b\"payload\":2\x7d"]
    ∃ labels s, Run handlers lines labels s ∧ s.isOver = true ∧
      s.written.Perm ["\x7b\"error\":\"invalid event: expected value at line 1 column 1\"\x7d",
        "\x7b\"payload\":1,\"statusCode\":200\x7d",
        "\x7b\"payload\":2,\"statusCode\":200\x7d"] := by
  intro handlers lines
  let := wordComplaints
  have hsteps : ([.read, .read, .handOver, .read, .read, .complete 1, .complete 0, .enqueue 0,
      .write, .enqueue 0, .write, .close, .write, .finish].foldlM (Serving.step handlers)
      (.start lines)).any isOver = true := by
    decide +kernel
  obtain ⟨s, hs, hover⟩ := (Option.any_eq_true ..).mp hsteps
  have run := (Run.start : Run handlers lines _ _).append hs
  have hexpected : expected handlers lines =
      ["\x7b\"error\":\"invalid event: expected value at line 1 column 1\"\x7d",
        "\x7b\"payload\":1,\"statusCode\":200\x7d",
        "\x7b\"payload\":2,\"statusCode\":200\x7d"] := by
    decide +kernel
  obtain ⟨hperm, _, _⟩ := run.written_perm
  exact ⟨_, s, run, hover, hexpected ▸ hperm hover⟩

end CalendarRollup.Serving
