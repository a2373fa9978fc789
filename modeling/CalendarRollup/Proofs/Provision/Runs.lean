import CalendarRollup.Proofs.Provision.Messages
import CalendarRollup.Provision.Provisioner

/-! Runs of a provisioner, with any number of calls whose steps come in any order: what the memory
of known calendars tells, and what every call asks of the backend. -/
namespace CalendarRollup

theorem getElem?_concat {α : Type} (values : List α) (last : α) (place : Nat) :
    (values ++ [last])[place]? = if place = values.length then some last else values[place]? := by
  by_cases hplace : place = values.length
  · rw [if_pos hplace, hplace, List.getElem?_concat_length]
  · rw [if_neg hplace, List.getElem?_append]
    split
    · rfl
    · rw [List.getElem?_eq_none (by simp; omega), List.getElem?_eq_none (by omega)]

namespace Provisioner

/-- A gate has settled exactly when its call has ended. -/
theorem isSettled_report (call : Ensure) : (report call).isSettled = call.isDone := by
  cases call with
  | done result => cases result <;> rfl
  | _ => rfl

/-- What can be seen of a run: a call begins, with the memory that it finds then, or a message goes
between a call and the backend. -/
inductive Event where
  | began (index : Nat) (memory : List CalendarSpec)
  | message (index : Nat) (message : Message)
  deriving Repr

/-- What is seen of one step. -/
def observed (p : Provisioner) (label : Label) (command : Option Command) : List Event :=
  match label with
  | .call _ => []
  | .start index =>
    .began index p.known :: command.toList.map fun command => .message index (.issued command)
  | .answer index answer =>
    .message index (.answered answer) ::
      command.toList.map fun command => .message index (.issued command)

/-- All that a new provisioner can come to, and what has been seen until then. -/
inductive Run : List Event → Provisioner → Prop
  | start : Run [] .new
  | step {events : List Event} {p p' : Provisioner} {command : Option Command}
    (run : Run events p) (label : Label) (stepped : p.step label = some (p', command)) :
    Run (events ++ p.observed label command) p'

/-- The memories that a call has found when it began: none or one. -/
def memories (index : Nat) (events : List Event) : List (List CalendarSpec) :=
  events.filterMap fun
    | .began other memory => if other = index then some memory else none
    | .message _ _ => none

def messages (index : Nat) (events : List Event) : List Message :=
  events.filterMap fun
    | .began _ _ => none
    | .message other message => if other = index then some message else none

section Steps
variable {p p' : Provisioner} {index : Nat} {spec : CalendarSpec} {call : Ensure}

@[simp] theorem calls_advance :
    (p.advance index spec call).calls = p.calls.set index (spec, call) := rfl

theorem mem_known_advance {other : CalendarSpec} :
    other ∈ (p.advance index spec call).known ↔
      other ∈ p.known ∨ (other = spec ∧ call.succeeded = true) := by
  unfold advance
  cases hcall : call.succeeded with
  | false => simp
  | true =>
    by_cases hspec : spec ∈ p.known
    · simp only [hspec, List.contains_eq_mem, decide_true, Bool.not_true, Bool.and_false,
        Bool.false_eq_true, if_false, and_true, iff_self_or]
      rintro rfl
      exact hspec
    · simp [hspec, or_comm]

/-- The steps of a provisioner, with the command that each issues. -/
inductive Moves (p : Provisioner) : Label → Provisioner → Option Command → Prop
  | call (spec : CalendarSpec) :
    Moves p (.call spec) { p with calls := p.calls ++ [(spec, .unstarted)] } none
  | start {index : Nat} {spec : CalendarSpec} (found : p.calls[index]? = some (spec, .unstarted)) :
    Moves p (.start index) (p.advance index spec (.started (p.known.contains spec)))
      ((Ensure.started (p.known.contains spec)).command? spec)
  | answer {index : Nat} {spec : CalendarSpec} {call next : Ensure} {answer : Answer}
    (found : p.calls[index]? = some (spec, call))
    (received : call.receive? spec answer = some next) :
    Moves p (.answer index answer) (p.advance index spec next) (next.command? spec)

theorem step_eq_some_iff {label : Label} {command : Option Command} :
    p.step label = some (p', command) ↔ Moves p label p' command := by
  constructor
  · intro h
    cases label with
    | call spec =>
      cases h
      exact .call spec
    | start index =>
      simp only [step] at h
      split at h
      next spec hfound =>
        cases h
        exact .start hfound
      next => cases h
    | answer index answer =>
      simp only [step, Option.bind_eq_bind, Option.bind_eq_some_iff, Prod.exists] at h
      obtain ⟨spec, call, hfound, next, hnext, h⟩ := h
      cases h
      exact .answer hfound hnext
  · intro h
    cases h with
    | call spec => rfl
    | start found => simp only [step, found]
    | answer found received => simp [step, found, received]

/-- The call at an index, which had not ended, has come to stand elsewhere, and no other has. -/
structure Advances (p : Provisioner) (index : Nat) (spec : CalendarSpec) (call : Ensure)
    (p' : Provisioner) : Prop where
  waited : ∃ before, p.calls[index]? = some (spec, before) ∧ before.isDone = false
  calls : p'.calls = p.calls.set index (spec, call)

theorem exists_advances_of_start {command : Option Command}
    (h : p.step (.start index) = some (p', command)) :
    ∃ spec call, Advances p index spec call p' := by
  cases step_eq_some_iff.mp h with
  | @start index spec found => exact ⟨spec, _, ⟨_, found, rfl⟩, rfl⟩

theorem exists_advances_of_answer {command : Option Command} {answer : Answer}
    (h : p.step (.answer index answer) = some (p', command)) :
    ∃ spec call, Advances p index spec call p' := by
  cases step_eq_some_iff.mp h with
  | @answer index spec call next answer found received =>
    exact ⟨spec, next, ⟨_, found, Ensure.isDone_eq_false_of_receive received⟩, rfl⟩

theorem Advances.self (advances : Advances p index spec call p') :
    p'.calls[index]? = some (spec, call) := by
  obtain ⟨before, hbefore, _⟩ := advances.waited
  have hlt := (List.getElem?_eq_some_iff.mp hbefore).1
  rw [advances.calls]
  simp [hlt]

end Steps

section Seen
variable (p : Provisioner) (index other : Nat) (command : Option Command)

@[simp] theorem memories_append (events seen : List Event) :
    memories index (events ++ seen) = memories index events ++ memories index seen := by
  simp [memories]

@[simp] theorem messages_append (events seen : List Event) :
    messages index (events ++ seen) = messages index events ++ messages index seen := by
  simp [messages]

@[simp] theorem memories_observed_start :
    memories index (p.observed (.start other) command) =
      if other = index then [p.known] else [] := by
  cases command <;> by_cases h : other = index <;> simp [memories, observed, h]

@[simp] theorem messages_observed_start :
    messages index (p.observed (.start other) command) =
      if other = index then command.toList.map .issued else [] := by
  cases command <;> by_cases h : other = index <;> simp [messages, observed, h]

@[simp] theorem memories_observed_answer (answer : Answer) :
    memories index (p.observed (.answer other answer) command) = [] := by
  cases command <;> simp [memories, observed]

@[simp] theorem messages_observed_answer (answer : Answer) :
    messages index (p.observed (.answer other answer) command) =
      if other = index then .answered answer :: command.toList.map .issued else [] := by
  cases command <;> by_cases h : other = index <;> simp [messages, observed, h]

end Seen

/-- How a call has come to stand where it does, by the memory that it began with and its messages. A
call that finds its calendar in the memory has no messages. -/
inductive Accounted (spec : CalendarSpec) : List (List CalendarSpec) → List Message → Ensure → Prop
  | unstarted : Accounted spec [] [] .unstarted
  | found {memory : List CalendarSpec} (known : spec ∈ memory) :
    Accounted spec [memory] [] (.done (.ok ⟨.alreadyExists, .alreadyExists⟩))
  | asked {memory : List CalendarSpec} {messages : List Message} {call : Ensure}
    (unknown : spec ∉ memory) (recorded : Ensure.Recorded spec messages call) :
    Accounted spec [memory] messages call

/-- A call for a calendar has ended after both of its commands were answered with success. -/
def Ensured (events : List Event) (p : Provisioner) (spec : CalendarSpec) : Prop :=
  ∃ index call a b, p.calls[index]? = some (spec, call) ∧ call.isDone = true ∧
    messages index events = Ensure.exchange spec a b ∧ a.Succeeds ∧ b.Succeeds

/-- The calls and the memory are explained by what has been seen. -/
structure Explained (events : List Event) (p : Provisioner) : Prop where
  calls : ∀ {index spec call}, p.calls[index]? = some (spec, call) →
    Accounted spec (memories index events) (messages index events) call
  unseen : ∀ {index}, p.calls.length ≤ index →
    memories index events = [] ∧ messages index events = []
  remembered : ∀ {index memory spec}, memory ∈ memories index events → spec ∈ memory →
    spec ∈ p.known
  known : ∀ {spec}, spec ∈ p.known ↔ Ensured events p spec

theorem Explained.new : Explained [] .new where
  calls h := by simp [Provisioner.new] at h
  unseen _ := ⟨rfl, rfl⟩
  remembered h := by simp [memories] at h
  known := by simp [Provisioner.new, Ensured]

theorem Accounted.succeeded_iff {spec : CalendarSpec} {memories : List (List CalendarSpec)}
    {messages : List Message} {call : Ensure} (accounted : Accounted spec memories messages call) :
    call.succeeded = true ↔ (∃ memory ∈ memories, spec ∈ memory) ∨
      (call.isDone = true ∧
        ∃ a b, messages = Ensure.exchange spec a b ∧ a.Succeeds ∧ b.Succeeds) := by
  cases accounted with
  | unstarted => simp [Ensure.succeeded, Ensure.isDone]
  | found known => simp [Ensure.succeeded, known]
  | asked unknown recorded => simp [recorded.succeeded_iff, unknown]

theorem Accounted.of_unstarted {spec : CalendarSpec} {memories : List (List CalendarSpec)}
    {messages : List Message} (accounted : Accounted spec memories messages .unstarted) :
    memories = [] ∧ messages = [] := by
  cases accounted with
  | unstarted => exact ⟨rfl, rfl⟩
  | asked unknown recorded => cases recorded

/-- What has been seen is about one call only. -/
def Concerns (index : Nat) (seen : List Event) : Prop :=
  ∀ other, index ≠ other → memories other seen = [] ∧ messages other seen = []

section Advance
variable {events seen : List Event} {p : Provisioner} {index other : Nat}
  {spec : CalendarSpec} {call next : Ensure}

theorem getElem?_advance_self (next : Ensure) (found : p.calls[index]? = some (spec, call)) :
    (p.advance index spec next).calls[index]? = some (spec, next) := by
  have hlt := (List.getElem?_eq_some_iff.mp found).1
  simp [hlt]

theorem getElem?_advance_of_ne (hne : index ≠ other) :
    (p.advance index spec next).calls[other]? = p.calls[other]? := by
  simp [List.getElem?_set_ne hne]

theorem Concerns.memories_append (concerns : Concerns index seen) (hne : index ≠ other) :
    memories other (events ++ seen) = memories other events := by
  rw [Provisioner.memories_append, (concerns other hne).1, List.append_nil]

theorem Concerns.messages_append (concerns : Concerns index seen) (hne : index ≠ other) :
    messages other (events ++ seen) = messages other events := by
  rw [Provisioner.messages_append, (concerns other hne).2, List.append_nil]

/-- A call that moves on can ensure its own calendar, and leaves ensured what is. -/
theorem ensured_advance_iff (found : p.calls[index]? = some (spec, call))
    (waits : call.isDone = false) (concerns : Concerns index seen) (ensured : CalendarSpec) :
    Ensured (events ++ seen) (p.advance index spec next) ensured ↔
      Ensured events p ensured ∨
        (ensured = spec ∧ next.isDone = true ∧ ∃ a b,
          messages index (events ++ seen) = Ensure.exchange spec a b ∧
            a.Succeeds ∧ b.Succeeds) := by
  constructor
  · rintro ⟨i, ended, a, b, hcall, hdone, hmessages, hsucceed⟩
    by_cases hne : index = i
    · subst hne
      rw [getElem?_advance_self _ found] at hcall
      cases hcall
      exact .inr ⟨rfl, hdone, a, b, hmessages, hsucceed⟩
    · rw [getElem?_advance_of_ne hne] at hcall
      rw [concerns.messages_append hne] at hmessages
      exact .inl ⟨i, ended, a, b, hcall, hdone, hmessages, hsucceed⟩
  · rintro (⟨i, ended, a, b, hcall, hdone, hmessages, hsucceed⟩ | ⟨rfl, hdone, a, b, h⟩)
    · have hne : index ≠ i := by
        rintro rfl
        rw [found] at hcall
        cases hcall
        rw [waits] at hdone
        cases hdone
      refine ⟨i, ended, a, b, ?_, hdone, ?_, hsucceed⟩
      · rw [getElem?_advance_of_ne hne, hcall]
      · rw [concerns.messages_append hne, hmessages]
    · exact ⟨index, next, a, b, getElem?_advance_self _ found, hdone, h⟩

/-- A call that moves on changes neither the other calls nor what explains them. -/
theorem Explained.advance (explained : Explained events p)
    (found : p.calls[index]? = some (spec, call)) (waits : call.isDone = false)
    (concerns : Concerns index seen) (began : ∀ memory ∈ memories index seen, memory = p.known)
    (accounted : Accounted spec (memories index (events ++ seen)) (messages index (events ++ seen))
      next) :
    Explained (events ++ seen) (p.advance index spec next) := by
  have hremembered : ∀ {i memory spec}, memory ∈ memories i (events ++ seen) → spec ∈ memory →
      spec ∈ p.known := by
    intro i memory other hmemory hother
    by_cases hne : index = i
    · subst hne
      rw [Provisioner.memories_append, List.mem_append] at hmemory
      rcases hmemory with hbefore | hnow
      · exact explained.remembered hbefore hother
      · rw [← began memory hnow]
        exact hother
    · rw [concerns.memories_append hne] at hmemory
      exact explained.remembered hmemory hother
  constructor
  case calls =>
    intro i specᵢ callᵢ hcall
    by_cases hne : index = i
    · subst hne
      rw [getElem?_advance_self _ found] at hcall
      cases hcall
      exact accounted
    · rw [getElem?_advance_of_ne hne] at hcall
      rw [concerns.memories_append hne, concerns.messages_append hne]
      exact explained.calls hcall
  case unseen =>
    intro i hi
    rw [calls_advance, List.length_set] at hi
    have hlt := (List.getElem?_eq_some_iff.mp found).1
    have hne : index ≠ i := by omega
    rw [concerns.memories_append hne, concerns.messages_append hne]
    exact explained.unseen hi
  case remembered =>
    intro i memory other hmemory hother
    exact mem_known_advance.mpr (.inl (hremembered hmemory hother))
  case known =>
    intro other
    rw [mem_known_advance, ensured_advance_iff found waits concerns, explained.known,
      accounted.succeeded_iff]
    constructor
    · rintro (hbefore | ⟨rfl, ⟨memory, hmemory, hspec⟩ | hnow⟩)
      · exact .inl hbefore
      · exact .inl (explained.known.mp (hremembered hmemory hspec))
      · exact .inr ⟨rfl, hnow⟩
    · rintro (hbefore | ⟨rfl, hnow⟩)
      · exact .inl hbefore
      · exact .inr ⟨rfl, .inr hnow⟩

end Advance

theorem Explained.call {events : List Event} {p : Provisioner} (explained : Explained events p)
    (spec : CalendarSpec) :
    Explained events { p with calls := p.calls ++ [(spec, .unstarted)] } where
  calls := by
    intro index specᵢ call hcall
    rw [getElem?_concat] at hcall
    split at hcall
    next hlast =>
      obtain ⟨hmemories, hmessages⟩ := explained.unseen (Nat.le_of_eq hlast.symm)
      rw [hmemories, hmessages]
      cases hcall
      exact .unstarted
    next => exact explained.calls hcall
  unseen := by
    intro index hi
    rw [List.length_append] at hi
    exact explained.unseen (by omega)
  remembered := explained.remembered
  known := by
    intro other
    rw [explained.known]
    constructor
    · rintro ⟨index, call, a, b, hcall, h⟩
      have hlt := (List.getElem?_eq_some_iff.mp hcall).1
      exact ⟨index, call, a, b, by rw [List.getElem?_append_left hlt, hcall], h⟩
    · rintro ⟨index, call, a, b, hcall, hdone, h⟩
      refine ⟨index, call, a, b, ?_, hdone, h⟩
      rw [getElem?_concat] at hcall
      split at hcall
      next =>
        cases hcall
        cases hdone
      next => exact hcall

/-- What one step of a provisioner keeps. -/
theorem Explained.step {events : List Event} {p p' : Provisioner} {label : Label}
    {command : Option Command} (explained : Explained events p)
    (stepped : p.step label = some (p', command)) :
    Explained (events ++ p.observed label command) p' := by
  cases step_eq_some_iff.mp stepped with
  | call spec =>
    rw [observed, List.append_nil]
    exact explained.call spec
  | @start index spec found =>
    apply explained.advance found rfl
    · intro other hne
      simp [hne]
    · simp
    · obtain ⟨hmemories, hmessages⟩ := (explained.calls found).of_unstarted
      rw [memories_append, messages_append, memories_observed_start, messages_observed_start,
        if_pos rfl, if_pos rfl, hmemories, hmessages]
      by_cases hknown : spec ∈ p.known
      · rw [List.contains_iff_mem.mpr hknown]
        exact .found hknown
      · rw [List.contains_eq_mem, decide_eq_false hknown]
        exact .asked hknown .awaitingPattern
  | @answer index spec call next answer found received =>
    apply explained.advance found (Ensure.isDone_eq_false_of_receive received)
    · intro other hne
      simp [hne]
    · simp
    · have hbefore := explained.calls found
      rw [memories_append, messages_append, memories_observed_answer, messages_observed_answer,
        if_pos rfl, List.append_nil]
      generalize memories index events = before at hbefore ⊢
      generalize messages index events = messages at hbefore ⊢
      cases hbefore with
      | unstarted => cases received
      | found known => cases received
      | asked unknown recorded => exact .asked unknown (recorded.receive received)

namespace Run

/-- What has been seen explains every state that a new provisioner can come to. -/
theorem explained {events : List Event} {p : Provisioner} (run : Run events p) :
    Explained events p := by
  induction run with
  | start => exact .new
  | step _ _ stepped ih => exact ih.step stepped

/-- Only a calendar that is called for more than once is found in the memory. -/
theorem exists_other_call {events : List Event} {p : Provisioner} (run : Run events p)
    {index : Nat} {spec : CalendarSpec} {call : Ensure} {memory : List CalendarSpec}
    (found : p.calls[index]? = some (spec, call)) (began : memory ∈ memories index events)
    (known : spec ∈ memory) :
    ∃ other call, index ≠ other ∧ p.calls[other]? = some (spec, call) := by
  have hknown := run.explained.remembered began known
  obtain ⟨other, ended, a, b, hother, _, hexchange, _⟩ := run.explained.known.mp hknown
  refine ⟨other, ended, ?_, hother⟩
  rintro rfl
  have haccounted := run.explained.calls found
  rw [hexchange] at haccounted
  generalize memories index events = memories at began haccounted
  cases haccounted with
  | asked unknown recorded =>
    cases List.mem_singleton.mp began
    exact unknown known

/-- A call that has ended has asked the backend, unless its calendar is called for again. -/
theorem messages_of_isDone {events : List Event} {p : Provisioner} (run : Run events p)
    (distinct : (p.calls.map Prod.fst).Nodup) {index : Nat} {spec : CalendarSpec} {call : Ensure}
    (found : p.calls[index]? = some (spec, call)) (done : call.isDone = true) :
    ∃ a b, messages index events = Ensure.exchange spec a b := by
  have haccounted := run.explained.calls found
  generalize hmemories : memories index events = memories at haccounted
  generalize messages index events = messages at haccounted ⊢
  cases haccounted with
  | unstarted => cases done
  | @found memory known =>
    have hbegan : memory ∈ Provisioner.memories index events := by simp [hmemories]
    obtain ⟨other, ended, hne, hother⟩ := run.exists_other_call found hbegan known
    have hlt : index < (p.calls.map Prod.fst).length := by
      rw [List.length_map]
      exact (List.getElem?_eq_some_iff.mp found).1
    have hsame : (p.calls.map Prod.fst)[index]? = (p.calls.map Prod.fst)[other]? := by
      rw [List.getElem?_map, List.getElem?_map, found, hother]
      rfl
    exact absurd (List.getElem?_inj hlt distinct |>.mp hsame) hne
  | asked unknown recorded =>
    cases recorded with
    | awaitingPattern => cases done
    | awaitingCalendar a => cases done
    | done a b => exact ⟨a, b, rfl⟩

/-- Calls that have not begun can be made at any time. -/
theorem of_calls (specs : List CalendarSpec) : Run [] ⟨[], specs.map (·, .unstarted)⟩ := by
  have hcalls : ∀ before, Run [] ⟨[], before.map (·, .unstarted)⟩ →
      Run [] ⟨[], (before ++ specs).map (·, .unstarted)⟩ := by
    induction specs with
    | nil => simp
    | cons spec rest ih =>
      intro before run
      have hcalled : Run [] ⟨[], (before ++ [spec]).map (·, .unstarted)⟩ := by
        rw [List.map_append]
        exact run.step (.call spec) rfl
      simpa using ih (before ++ [spec]) hcalled
  exact hcalls [] .start

end Run

end Provisioner
end CalendarRollup
