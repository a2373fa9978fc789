import CalendarRollup.Orchestrator.Basic
import CalendarRollup.Proofs.Provision.Runs

/-! Runs of an orchestrator in which tasks and handlings take their steps in any order, and how the
tasks of a run are those of a provisioner. -/
namespace CalendarRollup.Orchestrator

/-- What can be seen of a run: a payload arrives, a wait of its handling ends, or a message goes
between a task or a handling and the backend. -/
inductive Event where
  | arrived (index : Nat) (payload : Json) (moment : Instant)
  | waited (index : Nat) (outcome : Except TransportFault ProvisionState)
  | message (issuer : Issuer) (message : Message)
  deriving Repr

/-- How the present wait of a handling ends, if it can end now. -/
def waitOutcome? (o : Orchestrator) (index : Nat) :
    Option (Except TransportFault ProvisionState) :=
  match o.handlings[index]? with
  | some (.waiting _ gate wait) => o.gates[gate]?.bind fun gate => wait.outcome? gate o.now
  | _ => none

/-- What is seen of a step besides the commands that are issued in it. -/
def observed (o : Orchestrator) : Label → List Event
  | .startTask _ => []
  | .answerTask gate answer => [.message (.task gate) (.answered answer)]
  | .arrive payload moment => [.arrived o.handlings.length payload moment]
  | .proceed index => (o.waitOutcome? index).toList.map (.waited index)
  | .answerQuery index answer => [.message (.handling index) (.answered answer)]
  | .elapse _ => []

def issuedEvents (issued : List (Issuer × Command)) : List Event :=
  issued.map fun (issuer, command) => .message issuer (.issued command)

/-- What is seen of a step. -/
def seen (o : Orchestrator) (label : Label) (o' : Orchestrator) : List Event :=
  o.observed label ++ issuedEvents (o'.issued.drop o.issued.length)

/-- All that can happen under a plan. Other than in single steps, the clock may move on at any
moment, also past a deadline, and a reporter may go before its calendar has settled. -/
inductive Run (plan : RollupPlan) : List Event → Orchestrator → Prop
  | start {o : Orchestrator} : Orchestrator.start plan = .ok o → Run plan [] o
  | step {events : List Event} {o o' : Orchestrator} (run : Run plan events o) (label : Label)
    (stepped : o.step label = some o') : Run plan (events ++ o.seen label o') o'
  | lag {events : List Event} {o : Orchestrator} (run : Run plan events o) (millis : Nat) :
    Run plan events { o with now := o.now + millis }
  | abandon {events : List Event} {o : Orchestrator} (run : Run plan events o) (gate : Nat) :
    Run plan events { o with gates := o.gates.modify gate Gate.leave }

def messages (issuer : Issuer) (events : List Event) : List Message :=
  events.filterMap fun
    | .message other message => if other = issuer then some message else none
    | _ => none

/-- The commands that a task or a handling has issued. -/
def commands (issuer : Issuer) (events : List Event) : List Command :=
  (messages issuer events).filterMap Message.command?

/-- How the waits of a handling have ended, one for each gate that it has been at. -/
def waits (index : Nat) (events : List Event) : List (Except TransportFault ProvisionState) :=
  events.filterMap fun
    | .waited other outcome => if other = index then some outcome else none
    | _ => none

/-- The payloads that a handling is for: none or one. -/
def arrivals (index : Nat) (events : List Event) : List (Json × Instant) :=
  events.filterMap fun
    | .arrived other payload moment => if other = index then some (payload, moment) else none
    | _ => none

section Seen
variable (issuer other : Issuer) (index place : Nat) (events seen : List Event)

@[simp] theorem messages_append :
    messages issuer (events ++ seen) = messages issuer events ++ messages issuer seen := by
  simp [messages]

@[simp] theorem messages_cons_message (message : Message) :
    messages issuer (.message other message :: events) =
      if other = issuer then message :: messages issuer events else messages issuer events := by
  by_cases h : other = issuer <;> simp [messages, h]

@[simp] theorem messages_cons_arrived (payload : Json) (moment : Instant) :
    messages issuer (.arrived index payload moment :: events) = messages issuer events := rfl

@[simp] theorem messages_cons_waited (outcome : Except TransportFault ProvisionState) :
    messages issuer (.waited index outcome :: events) = messages issuer events := rfl

@[simp] theorem messages_map_waited (outcomes : List (Except TransportFault ProvisionState)) :
    messages issuer (outcomes.map (.waited index)) = [] := by
  simp [messages]

@[simp] theorem messages_issuedEvents_log (command : Option Command) :
    messages issuer (issuedEvents (log other command)) =
      if other = issuer then command.toList.map .issued else [] := by
  cases command <;> by_cases h : other = issuer <;> simp [messages, issuedEvents, log, h]

@[simp] theorem waits_append :
    waits index (events ++ seen) = waits index events ++ waits index seen := by
  simp [waits]

@[simp] theorem waits_cons_message (message : Message) :
    waits index (.message other message :: events) = waits index events := rfl

@[simp] theorem waits_cons_arrived (payload : Json) (moment : Instant) :
    waits index (.arrived place payload moment :: events) = waits index events := rfl

@[simp] theorem waits_cons_waited (outcome : Except TransportFault ProvisionState) :
    waits index (.waited place outcome :: events) =
      if place = index then outcome :: waits index events else waits index events := by
  by_cases h : place = index <;> simp [waits, h]

@[simp] theorem waits_map_waited (outcomes : List (Except TransportFault ProvisionState)) :
    waits index (outcomes.map (.waited place)) = if place = index then outcomes else [] := by
  by_cases h : place = index
  · rw [if_pos h]
    induction outcomes with
    | nil => rfl
    | cons outcome rest ih => rw [List.map_cons, waits_cons_waited, if_pos h, ih]
  · rw [if_neg h]
    induction outcomes with
    | nil => rfl
    | cons outcome rest ih => rw [List.map_cons, waits_cons_waited, if_neg h, ih]

@[simp] theorem waits_issuedEvents (issued : List (Issuer × Command)) :
    waits index (issuedEvents issued) = [] := by
  simp [waits, issuedEvents]

@[simp] theorem arrivals_append :
    arrivals index (events ++ seen) = arrivals index events ++ arrivals index seen := by
  simp [arrivals]

@[simp] theorem arrivals_cons_message (message : Message) :
    arrivals index (.message other message :: events) = arrivals index events := rfl

@[simp] theorem arrivals_cons_arrived (payload : Json) (moment : Instant) :
    arrivals index (.arrived place payload moment :: events) =
      if place = index then (payload, moment) :: arrivals index events
      else arrivals index events := by
  by_cases h : place = index <;> simp [arrivals, h]

@[simp] theorem arrivals_cons_waited (outcome : Except TransportFault ProvisionState) :
    arrivals index (.waited place outcome :: events) = arrivals index events := rfl

@[simp] theorem arrivals_map_waited (outcomes : List (Except TransportFault ProvisionState)) :
    arrivals index (outcomes.map (.waited place)) = [] := by
  simp [arrivals]

@[simp] theorem arrivals_issuedEvents (issued : List (Issuer × Command)) :
    arrivals index (issuedEvents issued) = [] := by
  simp [arrivals, issuedEvents]

end Seen

section Members
variable {issuer : Issuer} {index : Nat} {events : List Event}

theorem mem_commands {command : Command} (h : .message issuer (.issued command) ∈ events) :
    command ∈ commands issuer events := by
  refine List.mem_filterMap.mpr ⟨.issued command, ?_, rfl⟩
  exact List.mem_filterMap.mpr ⟨_, h, by simp⟩

theorem mem_waits {outcome : Except TransportFault ProvisionState}
    (h : .waited index outcome ∈ events) : outcome ∈ waits index events :=
  List.mem_filterMap.mpr ⟨_, h, by simp⟩

theorem mem_arrivals {payload : Json} {moment : Instant}
    (h : .arrived index payload moment ∈ events) : (payload, moment) ∈ arrivals index events :=
  List.mem_filterMap.mpr ⟨_, h, by simp⟩

end Members

/-- The orchestrator after a step of the task of a gate. -/
def afterTask (o : Orchestrator) (gate : Nat) (provisioner : Provisioner) (call : Ensure)
    (command : Option Command) : Orchestrator :=
  { o with
    provisioner
    gates := o.gates.modify gate (·.follow call)
    issued := o.issued ++ log (.task gate) command }

/-- The orchestrator after the arrival of a payload, whose handling is added. -/
def afterArrival (o : Orchestrator) (handling : Handling) : Orchestrator :=
  { o with
    handlings := o.handlings ++ [handling]
    issued := o.issued ++ log (.handling o.handlings.length) handling.command? }

/-- The steps of an orchestrator. -/
inductive Moves (o : Orchestrator) : Label → Orchestrator → Prop
  | startTask {gate : Nat} {provisioner : Provisioner} {command : Option Command}
    {spec : CalendarSpec} {call : Ensure}
    (stepped : o.provisioner.step (.start gate) = some (provisioner, command))
    (advances : o.provisioner.Advances gate spec call provisioner) :
    Moves o (.startTask gate) (o.afterTask gate provisioner call command)
  | answerTask {gate : Nat} {answer : Answer} {provisioner : Provisioner}
    {command : Option Command} {spec : CalendarSpec} {call : Ensure}
    (stepped : o.provisioner.step (.answer gate answer) = some (provisioner, command))
    (advances : o.provisioner.Advances gate spec call provisioner) :
    Moves o (.answerTask gate answer) (o.afterTask gate provisioner call command)
  | arrive {payload : Json} {moment : Instant} {handling : Handling}
    (made : handling = .ofPayload o.plan o.gates o.limit o.now payload moment) :
    Moves o (.arrive payload moment)
      (o.afterArrival handling)
  | proceed {index : Nat} {handling next : Handling} (found : o.handlings[index]? = some handling)
    (ended : handling.proceed? o.gates o.limit o.now = some next) :
    Moves o (.proceed index) (o.setHandling index next)
  | answerQuery {index : Nat} {answer : Answer} {handling next : Handling}
    (found : o.handlings[index]? = some handling)
    (received : handling.receive? answer = some next) :
    Moves o (.answerQuery index answer) (o.setHandling index next)
  | elapse (millis : Nat) : Moves o (.elapse millis) { o with now := o.now + millis }

theorem taskStep_eq_some {o o' : Orchestrator} {gate : Nat} {label : Provisioner.Label}
    (h : o.taskStep gate label = some o') :
    ∃ provisioner command spec call, o.provisioner.step label = some (provisioner, command) ∧
      provisioner.calls[gate]? = some (spec, call) ∧
        o' = o.afterTask gate provisioner call command := by
  simp only [taskStep, Option.bind_eq_bind, Option.bind_eq_some_iff, Prod.exists,
    Option.some.injEq] at h
  obtain ⟨provisioner, command, hstep, spec, call, hcall, rfl⟩ := h
  exact ⟨provisioner, command, spec, call, hstep, hcall, rfl⟩

theorem moves_of_step {o o' : Orchestrator} {label : Label} (h : o.step label = some o') :
    Moves o label o' := by
  cases label with
  | startTask gate =>
    obtain ⟨provisioner, command, spec, call, hstep, hcall, rfl⟩ := taskStep_eq_some h
    obtain ⟨_, _, hadvances⟩ := Provisioner.exists_advances_of_start hstep
    cases hadvances.self.symm.trans hcall
    exact .startTask hstep hadvances
  | answerTask gate answer =>
    obtain ⟨provisioner, command, spec, call, hstep, hcall, rfl⟩ := taskStep_eq_some h
    obtain ⟨_, _, hadvances⟩ := Provisioner.exists_advances_of_answer hstep
    cases hadvances.self.symm.trans hcall
    exact .answerTask hstep hadvances
  | arrive payload moment =>
    cases h
    exact .arrive rfl
  | proceed index =>
    simp only [step, Option.bind_eq_bind, Option.bind_eq_some_iff, Option.some.injEq] at h
    obtain ⟨handling, hfound, next, hnext, rfl⟩ := h
    exact .proceed hfound hnext
  | answerQuery index answer =>
    simp only [step, Option.bind_eq_bind, Option.bind_eq_some_iff, Option.some.injEq] at h
    obtain ⟨handling, hfound, next, hnext, rfl⟩ := h
    exact .answerQuery hfound hnext
  | elapse millis =>
    simp only [step] at h
    split at h
    · cases h
      exact .elapse millis
    · cases h

section SeenMoves
variable (o : Orchestrator) (gate index : Nat) (provisioner : Provisioner) (call : Ensure)
  (command : Option Command)

@[simp] theorem seen_startTask :
    o.seen (.startTask gate) (o.afterTask gate provisioner call command) =
      issuedEvents (log (.task gate) command) := by
  simp [seen, observed, afterTask]

@[simp] theorem seen_answerTask (answer : Answer) :
    o.seen (.answerTask gate answer) (o.afterTask gate provisioner call command) =
      [.message (.task gate) (.answered answer)] ++ issuedEvents (log (.task gate) command) := by
  simp [seen, observed, afterTask]

@[simp] theorem seen_proceed (handling : Handling) :
    o.seen (.proceed index) (o.setHandling index handling) =
      (o.waitOutcome? index).toList.map (.waited index) ++
        issuedEvents (log (.handling index) handling.command?) := by
  simp [seen, observed, setHandling]

@[simp] theorem seen_answerQuery (answer : Answer) (handling : Handling) :
    o.seen (.answerQuery index answer) (o.setHandling index handling) =
      [.message (.handling index) (.answered answer)] ++
        issuedEvents (log (.handling index) handling.command?) := by
  simp [seen, observed, setHandling]

@[simp] theorem seen_elapse (millis : Nat) :
    o.seen (.elapse millis) { o with now := o.now + millis } = [] := by
  simp [seen, observed, issuedEvents]

@[simp] theorem seen_arrive (payload : Json) (moment : Instant) (handling : Handling) :
    o.seen (.arrive payload moment) (o.afterArrival handling) =
      [.arrived o.handlings.length payload moment] ++
        issuedEvents (log (.handling o.handlings.length) handling.command?) := by
  simp [seen, observed, afterArrival]

end SeenMoves

end CalendarRollup.Orchestrator
