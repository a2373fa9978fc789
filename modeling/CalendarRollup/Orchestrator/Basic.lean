import CalendarRollup.Orchestrator.Handling
import CalendarRollup.Provision.Provisioner

/-! The orchestrator: the calendars of a plan are provisioned once, each by a task of its own,
while any number of payloads are handled. All that happens is a sequence of labelled steps, and
the clock moves only where nothing else can. -/
namespace CalendarRollup

/-- The calendars that the queries of a plan name: the plan's own, and for a continuous signal the
finer one unless it is the same. -/
def RollupPlan.selectCalendars (plan : RollupPlan) : Except CalendarFault (List CalendarSpec) :=
  match plan.mode with
  | .discrete => .ok [plan.calendar]
  | .continuous => do
    let finer := (← plan.calendar.selectBucket).calendar
    return if finer = plan.calendar then [plan.calendar] else [plan.calendar, finer]

/-- Whose command it is: that of the task of a gate, or of the handling of a payload. -/
inductive Issuer where
  | task (gate : Nat)
  | handling (index : Nat)
  deriving DecidableEq, Repr

structure Orchestrator where
  plan : RollupPlan
  /-- Milliseconds since the start. -/
  now : Nat
  /-- One gate for every calendar, in the order of the calls that provision them. -/
  gates : List Gate
  provisioner : Provisioner
  handlings : List Handling
  /-- The commands issued, in order. -/
  issued : List (Issuer × Command)
  deriving Repr

namespace Orchestrator

/-- A plan without rules cannot be started. -/
def start (plan : RollupPlan) : Except RequestFault Orchestrator :=
  if plan.rules.isEmpty then .error .noRules
  else do
    let calendars ← plan.selectCalendars.mapError .calendar
    return {
      plan, now := 0
      gates := calendars.map Gate.new
      provisioner := ⟨[], calendars.map (·, .unstarted)⟩
      handlings := []
      issued := [] }

/-- How long a request waits for each gate, in milliseconds. -/
def limit (o : Orchestrator) : Nat := o.plan.provisionTimeoutSecs * 1000

inductive Label where
  /-- The task of a gate starts. -/
  | startTask (gate : Nat)
  | answerTask (gate : Nat) (answer : Answer)
  /-- A payload arrives, to be handled as of a moment. -/
  | arrive (payload : Json) (moment : Instant)
  /-- A wait ends. -/
  | proceed (index : Nat)
  | answerQuery (index : Nat) (answer : Answer)
  | elapse (millis : Nat)
  deriving Repr

def log (issuer : Issuer) (command : Option Command) : List (Issuer × Command) :=
  command.toList.map (issuer, ·)

/-- The task of a gate takes a step, and its reporter tells the gate. -/
def taskStep (o : Orchestrator) (gate : Nat) (label : Provisioner.Label) : Option Orchestrator := do
  let (provisioner, command) ← o.provisioner.step label
  let (_, call) ← provisioner.calls[gate]?
  some { o with
    provisioner
    gates := o.gates.modify gate (·.follow call)
    issued := o.issued ++ log (.task gate) command }

def setHandling (o : Orchestrator) (index : Nat) (handling : Handling) : Orchestrator :=
  { o with
    handlings := o.handlings.set index handling
    issued := o.issued ++ log (.handling index) handling.command? }

def canProceed (o : Orchestrator) (handling : Handling) : Bool :=
  (handling.proceed? o.gates o.limit o.now).isSome

/-- Every task has started, and no wait can end. -/
def isIdle (o : Orchestrator) : Bool :=
  o.provisioner.calls.all (fun call => match call.2 with
    | .unstarted => false
    | _ => true) &&
  o.handlings.all fun handling => !o.canProceed handling

/-- The orchestrator after what happens, where it can happen. No time passes beyond a deadline. -/
def step (o : Orchestrator) : Label → Option Orchestrator
  | .startTask gate => o.taskStep gate (.start gate)
  | .answerTask gate answer => o.taskStep gate (.answer gate answer)
  | .arrive payload moment =>
    let handling := Handling.ofPayload o.plan o.gates o.limit o.now payload moment
    some { o with
      handlings := o.handlings ++ [handling]
      issued := o.issued ++ log (.handling o.handlings.length) handling.command? }
  | .proceed index => do
    let handling ← o.handlings[index]?
    let handling ← handling.proceed? o.gates o.limit o.now
    some (o.setHandling index handling)
  | .answerQuery index answer => do
    let handling ← o.handlings[index]?
    let handling ← handling.receive? answer
    some (o.setHandling index handling)
  | .elapse millis =>
    if o.isIdle && o.handlings.all (fun handling =>
        match handling.deadline? with
        | some deadline => o.now + millis ≤ deadline
        | none => true) then
      some { o with now := o.now + millis }
    else none

end Orchestrator
end CalendarRollup
