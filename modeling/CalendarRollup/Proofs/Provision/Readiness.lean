import CalendarRollup.Proofs.Provision.Runs

/-! A calendar that is provisioned while any number of waits for its gate begin and end: the steps
of calls, of the reporter, of waits and of the clock come in any order, and the course of the gate
is told by the answers to the two commands alone.

The clock does not pass the deadline of a wait that goes on: when a limit falls due is a matter of
moments, and a timer that goes off late would leave open whether a gate that settles in between was
in time. A wait that is looked at late finds whatever the gate is then. The runs of an orchestrator
leave room for that, and what is said of them holds however late their waits end. -/
namespace CalendarRollup

/-- Where a wait stands that has begun. -/
inductive Waiter where
  | pending (wait : Wait)
  | ended (outcome : Except TransportFault ProvisionState)
  deriving Repr

/-- The call that a step of a provisioner belongs to. -/
def Provisioner.Label.index? : Provisioner.Label → Option Nat
  | .call _ => none
  | .start index => some index
  | .answer index _ => some index

/-- A gate, the provisioner whose call reports to it, and those who wait for it. -/
structure Readiness where
  now : Nat
  provisioner : Provisioner
  gate : Gate
  waiters : Nat → Option Waiter

theorem Provisioner.provisioning_ne_report_done (result : Except Fault Provisioned) :
    ProvisionState.provisioning ≠ report (.done result) := by
  cases result <;> simp [report]

namespace Readiness

/-- What can be seen: something of a call, a change of the gate, or the beginning of a wait with
the state that it finds. -/
inductive Event where
  | call (event : Provisioner.Event)
  | changed (moment : Nat) (state : ProvisionState)
  | began (waiter moment limit : Nat) (found : ProvisionState)
  deriving Repr

def calls (events : List Event) : List Provisioner.Event :=
  events.filterMap fun
    | .call event => some event
    | _ => none

def changes (events : List Event) : List (Nat × ProvisionState) :=
  events.filterMap fun
    | .changed moment state => some (moment, state)
    | _ => none

/-- A new gate for a calendar that a provisioner has been called for, after its other calls. -/
def opened (now : Nat) (p : Provisioner) (spec : CalendarSpec) : Readiness where
  now
  provisioner := { p with calls := p.calls ++ [(spec, .unstarted)] }
  gate := .new spec
  waiters _ := none

/-- The reporter tells the gate how its call stands. -/
def report (s : Readiness) (provisioner : Provisioner) (call : Ensure) : Readiness :=
  { s with provisioner, gate := s.gate.set (Provisioner.report call) }

def change (s : Readiness) (state : ProvisionState) : List Event :=
  if s.gate.state = state then [] else [.changed s.now state]

def setWaiter (s : Readiness) (name : Nat) (waiter : Waiter) : Readiness :=
  { s with waiters := fun other => if other = name then some waiter else s.waiters other }

theorem provisioner_report (s : Readiness) (provisioner : Provisioner) (call : Ensure) :
    (s.report provisioner call).provisioner = provisioner := rfl

/-- The steps, with what is seen of them; the call that reports is the one at `place`. The reporter
goes after its call has ended. No time passes beyond the deadline of a wait. -/
inductive Step (place : Nat) (s : Readiness) : List Event → Readiness → Prop
  | report {label : Provisioner.Label} {provisioner : Provisioner} {command : Option Command}
    {spec : CalendarSpec} {call : Ensure} (own : label.index? = some place)
    (stepped : s.provisioner.step label = some (provisioner, command))
    (found : provisioner.calls[place]? = some (spec, call)) :
    Step place s
      ((s.provisioner.observed label command).map .call ++ s.change (Provisioner.report call))
      (s.report provisioner call)
  | other {label : Provisioner.Label} {provisioner : Provisioner} {command : Option Command}
    (other : label.index? ≠ some place)
    (stepped : s.provisioner.step label = some (provisioner, command)) :
    Step place s ((s.provisioner.observed label command).map .call) { s with provisioner }
  | leave {spec : CalendarSpec} {call : Ensure}
    (found : s.provisioner.calls[place]? = some (spec, call)) (done : call.isDone = true) :
    Step place s [] { s with gate := s.gate.leave }
  | await (name limit : Nat) (unused : s.waiters name = none) :
    Step place s [.began name s.now limit s.gate.state]
      (s.setWaiter name (.pending (.begun s.now limit)))
  | finish {name : Nat} {wait : Wait} {outcome : Except TransportFault ProvisionState}
    (waits : s.waiters name = some (.pending wait))
    (ended : wait.outcome? s.gate s.now = some outcome) :
    Step place s [] (s.setWaiter name (.ended outcome))
  | elapse (millis : Nat)
    (within : ∀ name wait, s.waiters name = some (.pending wait) → s.now + millis ≤ wait.deadline) :
    Step place s [] { s with now := s.now + millis }

/-- All that can happen from a first state on, and what has been seen until then. -/
inductive Run (place : Nat) (first : Readiness) : List Event → Readiness → Prop
  | start : Run place first [] first
  | step {events seen : List Event} {s s' : Readiness} (run : Run place first events s)
    (stepped : Step place s seen s') : Run place first (events ++ seen) s'

section Seen
variable (s : Readiness) (events seen : List Event)

@[simp] theorem calls_append : calls (events ++ seen) = calls events ++ calls seen := by
  simp [calls]

@[simp] theorem changes_append : changes (events ++ seen) = changes events ++ changes seen := by
  simp [changes]

@[simp] theorem calls_map_call (observed : List Provisioner.Event) :
    calls (observed.map .call) = observed := by
  unfold calls
  rw [List.filterMap_map]
  exact List.filterMap_some

@[simp] theorem changes_map_call (observed : List Provisioner.Event) :
    changes (observed.map .call) = [] := by
  simp [changes]

@[simp] theorem calls_change (state : ProvisionState) : calls (s.change state) = [] := by
  unfold change
  split <;> rfl

@[simp] theorem changes_change (state : ProvisionState) :
    changes (s.change state) = if s.gate.state = state then [] else [(s.now, state)] := by
  unfold change
  split <;> rfl

end Seen

/-- The changes of a gate, as the call that is reported to it stands. -/
inductive Course : List (Nat × ProvisionState) → Ensure → Prop
  | pending : Course [] .unstarted
  | provisioning (begun : Nat) {call : Ensure}
    (asks : Provisioner.report call = .provisioning) : Course [(begun, .provisioning)] call
  | settled (begun ended : Nat) (result : Except Fault Provisioned) :
    Course [(begun, .provisioning), (ended, Provisioner.report (.done result))] (.done result)

/-- The gate stands as its call does, after the changes that have been seen. -/
structure Reported (place : Nat) (spec : CalendarSpec) (past : List Provisioner.Event)
    (events : List Event) (s : Readiness) : Prop where
  run : Provisioner.Run (past ++ calls events) s.provisioner
  calendar : s.gate.calendar = spec
  attended : s.gate.attended = false → s.gate.state.isSettled = true
  times : ∀ moment state, (moment, state) ∈ changes events → moment ≤ s.now
  course : ∃ call, s.provisioner.calls[place]? = some (spec, call) ∧
    s.gate.state = Provisioner.report call ∧ Course (changes events) call

/-- The memory that the call finds does not hold its calendar. -/
def Unknown (place : Nat) (spec : CalendarSpec) (events : List Event) : Prop :=
  ∀ memory ∈ Provisioner.memories place (calls events), spec ∉ memory

theorem Unknown.of_append {place : Nat} {spec : CalendarSpec} {events seen : List Event}
    (unknown : Unknown place spec (events ++ seen)) : Unknown place spec events := by
  intro memory hmemory
  exact unknown memory (by simp [hmemory])

section Course
variable {place : Nat} {spec : CalendarSpec} {past : List Provisioner.Event}
  {events seen : List Event} {s s' : Readiness}

/-- A step of the call that reports changes the gate when the call starts and when it ends. -/
theorem Course.report {changes : List (Nat × ProvisionState)} {call next : Ensure}
    {p p' : Provisioner} {label : Provisioner.Label} {command : Option Command}
    (course : Course changes call) (found : p.calls[place]? = some (spec, call))
    (own : label.index? = some place) (stepped : p.step label = some (p', command))
    (there : p'.calls[place]? = some (spec, next))
    (unknown : ∀ memory ∈ Provisioner.memories place (p.observed label command), spec ∉ memory)
    (now : Nat) :
    Course (changes ++ if Provisioner.report call = Provisioner.report next then []
      else [(now, Provisioner.report next)]) next := by
  cases Provisioner.step_eq_some_iff.mp stepped with
  | call other => cases own
  | @start index other begins =>
    cases own
    rw [found] at begins
    cases begins
    have hknown : p.known.contains spec = false := by
      rw [List.contains_eq_mem, decide_eq_false (unknown p.known (by simp))]
    rw [Provisioner.getElem?_advance_self _ found, hknown] at there
    cases there
    cases course with
    | pending => exact .provisioning now rfl
    | provisioning begun asks => cases asks
  | @answer index other waiting received answer takes receives =>
    cases own
    rw [found] at takes
    cases takes
    rw [Provisioner.getElem?_advance_self _ found] at there
    cases there
    cases course with
    | pending => cases receives
    | settled begun ended result => cases receives
    | @provisioning begun _ asks =>
      cases call with
      | unstarted => cases receives
      | done result => cases receives
      | awaitingPattern =>
        cases receives
        exact .provisioning begun rfl
      | awaitingCalendar pattern =>
        cases receives
        rw [asks, if_neg (Provisioner.provisioning_ne_report_done _)]
        exact .settled begun now _

/-- The other calls leave the one that reports where it is. -/
theorem getElem?_of_index?_ne {p p' : Provisioner} {label : Provisioner.Label}
    {command : Option Command} {call : CalendarSpec × Ensure}
    (found : p.calls[place]? = some call) (other : label.index? ≠ some place)
    (stepped : p.step label = some (p', command)) : p'.calls[place]? = some call := by
  cases Provisioner.step_eq_some_iff.mp stepped with
  | call spec =>
    have hlt := (List.getElem?_eq_some_iff.mp found).1
    rw [List.getElem?_append_left hlt, found]
  | @start index _ begins =>
    have hne : index ≠ place := fun h => other (congrArg some h)
    rw [Provisioner.getElem?_advance_of_ne hne, found]
  | @answer index _ _ _ _ takes receives =>
    have hne : index ≠ place := fun h => other (congrArg some h)
    rw [Provisioner.getElem?_advance_of_ne hne, found]

theorem exists_advances_of_own {p p' : Provisioner} {label : Provisioner.Label}
    {command : Option Command} (own : label.index? = some place)
    (stepped : p.step label = some (p', command)) :
    ∃ spec call, p.Advances place spec call p' := by
  cases label with
  | call spec => cases own
  | start index =>
    cases own
    exact Provisioner.exists_advances_of_start stepped
  | answer index answer =>
    cases own
    exact Provisioner.exists_advances_of_answer stepped

/-- Steps that are no change of the gate keep what the gate tells. -/
theorem Reported.of_quiet (reported : Reported place spec past events s)
    (run : Provisioner.Run (past ++ calls (events ++ seen)) s'.provisioner)
    (quiet : changes seen = []) (state : s'.gate.state = s.gate.state)
    (calendar : s'.gate.calendar = s.gate.calendar)
    (attended : s'.gate.attended = false → s'.gate.state.isSettled = true)
    (later : s.now ≤ s'.now)
    (same : ∀ call, s.provisioner.calls[place]? = some (spec, call) →
      s'.provisioner.calls[place]? = some (spec, call)) :
    Reported place spec past (events ++ seen) s' where
  run := run
  calendar := calendar.trans reported.calendar
  attended := attended
  times := by
    intro moment state hchange
    rw [changes_append, quiet, List.append_nil] at hchange
    exact Nat.le_trans (reported.times moment state hchange) later
  course := by
    obtain ⟨call, hcall, hstate, hcourse⟩ := reported.course
    refine ⟨call, same call hcall, state.trans hstate, ?_⟩
    rw [changes_append, quiet, List.append_nil]
    exact hcourse

theorem Reported.of_same (reported : Reported place spec past events s)
    (gate : s'.gate = s.gate) (provisioner : s'.provisioner = s.provisioner)
    (unseen : calls seen = []) (quiet : changes seen = []) (later : s.now ≤ s'.now) :
    Reported place spec past (events ++ seen) s' := by
  refine reported.of_quiet ?_ quiet (by rw [gate]) (by rw [gate]) (gate ▸ reported.attended) later
    fun _ => provisioner ▸ id
  rw [calls_append, unseen, List.append_nil, provisioner]
  exact reported.run

/-- The gate is told how its call stands, which has not ended until then. -/
theorem Reported.report {label : Provisioner.Label} {provisioner : Provisioner}
    {command : Option Command} {told : CalendarSpec} {next : Ensure}
    (reported : Reported place spec past events s) (own : label.index? = some place)
    (moved : s.provisioner.step label = some (provisioner, command))
    (there : provisioner.calls[place]? = some (told, next))
    (unknown : ∀ memory ∈ Provisioner.memories place (s.provisioner.observed label command),
      spec ∉ memory) :
    Reported place spec past
      (events ++ ((s.provisioner.observed label command).map .call ++
        s.change (Provisioner.report next))) (s.report provisioner next) := by
  obtain ⟨call, hcall, hstate, hcourse⟩ := reported.course
  obtain ⟨_, _, hadvances⟩ := exists_advances_of_own own moved
  obtain ⟨before, hbefore, hwaits⟩ := hadvances.waited
  cases hadvances.self.symm.trans there
  cases hcall.symm.trans hbefore
  constructor
  case run => simpa [provisioner_report] using reported.run.step label moved
  case calendar => exact reported.calendar
  case attended =>
    intro left
    have hsettled := reported.attended left
    rw [hstate, Provisioner.isSettled_report, hwaits] at hsettled
    cases hsettled
  case times =>
    intro moment state hchange
    simp only [changes_append, changes_map_call, changes_change, List.nil_append,
      List.mem_append] at hchange
    rcases hchange with hbefore | hnow
    · exact reported.times moment state hbefore
    · split at hnow
      · cases hnow
      · cases List.mem_singleton.mp hnow
        exact Nat.le_refl _
  case course =>
    refine ⟨next, there, rfl, ?_⟩
    have hnext := hcourse.report hcall own moved there unknown s.now
    simpa [hstate] using hnext

theorem Reported.step (reported : Reported place spec past events s)
    (stepped : Step place s seen s') (unknown : Unknown place spec (events ++ seen)) :
    Reported place spec past (events ++ seen) s' := by
  cases stepped with
  | report own moved there =>
    exact reported.report own moved there fun memory hmemory => unknown memory (by simp [hmemory])
  | @other label provisioner command other moved =>
    refine reported.of_quiet ?_ (by simp) rfl rfl reported.attended (Nat.le_refl _)
      fun call hcall => getElem?_of_index?_ne hcall other moved
    simpa using reported.run.step label moved
  | leave found done =>
    obtain ⟨call, hcall, hstate, _⟩ := reported.course
    cases hcall.symm.trans found
    refine reported.of_quiet (by simpa [calls] using reported.run) rfl rfl rfl (fun _ => ?_)
      (Nat.le_refl _) fun _ => id
    change s.gate.state.isSettled = true
    rw [hstate, Provisioner.isSettled_report, done]
  | await name limit unused => exact reported.of_same rfl rfl rfl rfl (Nat.le_refl _)
  | finish waits ended => exact reported.of_same rfl rfl rfl rfl (Nat.le_refl _)
  | elapse millis within => exact reported.of_same rfl rfl rfl rfl (Nat.le_add_right _ _)

/-- A gate whose call has ended changes no more. -/
theorem Step.state_of_done {call : Ensure} (stepped : Step place s seen s')
    (found : s.provisioner.calls[place]? = some (spec, call)) (done : call.isDone = true) :
    s'.provisioner.calls[place]? = some (spec, call) ∧ s'.gate.state = s.gate.state := by
  cases stepped with
  | report own moved there =>
    obtain ⟨_, _, hadvances⟩ := exists_advances_of_own own moved
    obtain ⟨before, hbefore, hwaits⟩ := hadvances.waited
    cases found.symm.trans hbefore
    rw [done] at hwaits
    cases hwaits
  | other other moved => exact ⟨getElem?_of_index?_ne found other moved, rfl⟩
  | _ => exact ⟨found, rfl⟩

theorem Run.state_of_done {call : Ensure} (run : Run place s seen s')
    (found : s.provisioner.calls[place]? = some (spec, call)) (done : call.isDone = true) :
    s'.provisioner.calls[place]? = some (spec, call) ∧ s'.gate.state = s.gate.state := by
  induction run with
  | start => exact ⟨found, rfl⟩
  | step _ stepped ih =>
    obtain ⟨hfound, hstate⟩ := ih
    obtain ⟨hfound', hstate'⟩ := stepped.state_of_done hfound done
    exact ⟨hfound', hstate'.trans hstate⟩

end Course

section Opened
variable {past : List Provisioner.Event} {p : Provisioner} {spec : CalendarSpec} {now : Nat}
  {events : List Event} {s : Readiness}

theorem Reported.opened (reachable : Provisioner.Run past p) :
    Reported p.calls.length spec past [] (opened now p spec) where
  run := reachable.step (.call spec) rfl
  calendar := rfl
  attended left := by cases left
  times moment state hchange := by cases hchange
  course := ⟨.unstarted, List.getElem?_concat_length, rfl, .pending⟩

theorem Run.reported (reachable : Provisioner.Run past p)
    (run : Run p.calls.length (Readiness.opened now p spec) events s)
    (unknown : Unknown p.calls.length spec events) :
    Reported p.calls.length spec past events s := by
  induction run with
  | start => exact .opened reachable
  | step _ stepped ih => exact (ih unknown.of_append).step stepped unknown

/-- The messages of the call are those of an exchange about its calendar. -/
theorem Run.recorded (reachable : Provisioner.Run past p)
    (run : Run p.calls.length (Readiness.opened now p spec) events s)
    (unknown : Unknown p.calls.length spec events) :
    (s.provisioner.calls[p.calls.length]? = some (spec, .unstarted) ∧
      Provisioner.messages p.calls.length (calls events) = []) ∨
    ∃ call, s.provisioner.calls[p.calls.length]? = some (spec, call) ∧
      Ensure.Recorded spec (Provisioner.messages p.calls.length (calls events)) call := by
  have hreported := run.reported reachable unknown
  obtain ⟨call, hcall, _⟩ := hreported.course
  obtain ⟨hmemories, hmessages⟩ := reachable.explained.unseen (Nat.le_refl p.calls.length)
  have haccounted := hreported.run.explained.calls hcall
  rw [Provisioner.memories_append, Provisioner.messages_append, hmemories, hmessages,
    List.nil_append, List.nil_append] at haccounted
  generalize hfound : Provisioner.memories p.calls.length (calls events) = memories at haccounted
  generalize Provisioner.messages p.calls.length (calls events) = messages at haccounted ⊢
  cases haccounted with
  | unstarted => exact .inl ⟨hcall, rfl⟩
  | @found memory known => exact absurd known (unknown memory (by simp [hfound]))
  | asked _ recorded => exact .inr ⟨call, hcall, recorded⟩

end Opened

end Readiness
end CalendarRollup
