import CalendarRollup.Orchestrator.Basic
import CalendarRollup.Simulation.Exchange

/-! One schedule of an orchestrator against a scripted backend. Handlings move on in order, then
tasks in order, each as far as it can; the clock moves to the next moment at which something is due
only where all wait. -/
namespace CalendarRollup

/-- An answer on its way. -/
structure Delivery where
  issuer : Issuer
  due : Nat
  answer : Answer
  deriving Repr

structure Simulation where
  orchestrator : Orchestrator
  script : Script
  deliveries : List Delivery
  deriving Repr

namespace Simulation

def start (plan : RollupPlan) (script : Script) : Except RequestFault Simulation :=
  (Orchestrator.start plan).map fun orchestrator => { orchestrator, script, deliveries := [] }

def now (s : Simulation) : Nat := s.orchestrator.now

/-- A step of the orchestrator. The command that is issued in it takes the next answer. -/
def apply (s : Simulation) (issuer : Issuer) (label : Orchestrator.Label) : Option Simulation := do
  let orchestrator ← s.orchestrator.step label
  if orchestrator.issued.length = s.orchestrator.issued.length then some { s with orchestrator }
  else
    let (next, script) := s.script.next
    some {
      orchestrator, script
      deliveries := s.deliveries ++ [⟨issuer, s.now + next.delay, next.answer⟩] }

/-- The step of an issuer that no answer is due for. -/
def ownStep : Issuer → Orchestrator.Label
  | .task gate => .startTask gate
  | .handling index => .proceed index

def answerStep (answer : Answer) : Issuer → Orchestrator.Label
  | .task gate => .answerTask gate answer
  | .handling index => .answerQuery index answer

/-- An issuer takes its answer, if that is due, or a step of its own. -/
def move? (s : Simulation) (issuer : Issuer) : Option Simulation :=
  match s.deliveries.find? (fun d => d.issuer == issuer && d.due ≤ s.now) with
  | some delivery =>
    let rest := s.deliveries.filter fun d => d.issuer != issuer
    apply { s with deliveries := rest } issuer (answerStep delivery.answer issuer)
  | none => s.apply issuer (ownStep issuer)

/-- An issuer moves as far as it can, in at most a number of moves. -/
def moveOn (s : Simulation) (issuer : Issuer) : Nat → Simulation
  | 0 => s
  | moves + 1 =>
    match s.move? issuer with
    | some s => moveOn s issuer moves
    | none => s

def tasks (s : Simulation) : List Issuer :=
  (List.range s.orchestrator.gates.length).map .task

def handlings (s : Simulation) : List Issuer :=
  (List.range s.orchestrator.handlings.length).map .handling

/-- A task starts and takes two answers. -/
def taskMoves : Nat := 3

/-- A handling passes every gate and takes one answer. -/
def handlingMoves (s : Simulation) : Nat := s.orchestrator.gates.length + 2

def moveHandlings (s : Simulation) : Simulation :=
  s.handlings.foldl (fun s issuer => s.moveOn issuer s.handlingMoves) s

def moveTasks (s : Simulation) : Simulation :=
  s.tasks.foldl (fun s issuer => s.moveOn issuer taskMoves) s

/-- The moments ahead at which an answer or a deadline is due, or a timer. -/
def moments (s : Simulation) (timers : List Nat) : List Nat :=
  (s.deliveries.map Delivery.due ++ s.orchestrator.handlings.filterMap Handling.deadline? ++
    timers).filter (s.now < ·)

/-- Runs until `goal` holds, with `timers` for those who wait outside. -/
def runFor (goal : Simulation → Bool) (timers : List Nat) : Nat → Simulation → Simulation
  | 0, s => s
  | turns + 1, s =>
    let s := s.moveHandlings
    if goal s then s
    else if s.tasks.any fun issuer => (s.move? issuer).isSome then
      runFor goal timers turns s.moveTasks
    else match (s.moments timers).min? with
      | none => s
      | some moment =>
        match s.orchestrator.step (.elapse (moment - s.now)) with
        | some orchestrator => runFor goal timers turns { s with orchestrator }
        | none => s

/-- More turns than there can be: every task moves three times and every handling once for each
gate and its answer, and every turn has a move or ends at a timer. -/
def enoughTurns (s : Simulation) (timers : List Nat) : Nat :=
  let gates := s.orchestrator.gates.length
  6 * gates + (gates + 2) * s.orchestrator.handlings.length + timers.length + 1

def runUntil (s : Simulation) (goal : Simulation → Bool) (timers : List Nat) : Simulation :=
  runFor goal timers (s.enoughTurns timers) s

/-- Lets time pass. -/
def advance (s : Simulation) (millis : Nat) : Simulation :=
  let moment := s.now + millis
  s.runUntil (fun s => moment ≤ s.now) [moment]

/-- Waits for one gate, at most a number of milliseconds. -/
def settleGate (s : Simulation) (limit index : Nat) :
    Simulation × Option (Except TransportFault ProvisionState) :=
  let wait := Wait.begun s.now limit
  let outcome (s : Simulation) := do wait.outcome? (← s.orchestrator.gates[index]?) s.now
  let s := s.runUntil (fun s => (outcome s).isSome) [wait.deadline]
  (s, outcome s)

/-- Waits for every gate in turn. -/
def settle (s : Simulation) (limit : Nat) :
    Simulation × List (Except TransportFault ProvisionState) :=
  (List.range s.orchestrator.gates.length).foldl
    (fun (s, outcomes) index =>
      let (s, outcome) := s.settleGate limit index
      (s, outcomes ++ outcome.toList))
    (s, [])

/-- Handles payloads at once, as of one moment, until each of them has its result. -/
def handle (s : Simulation) (payloads : List Json) (moment : Instant) :
    Simulation × List (Except Fault RollupResult) :=
  let before := s.orchestrator.handlings.length
  let s := payloads.foldl
    (fun s payload =>
      (s.apply (.handling s.orchestrator.handlings.length) (.arrive payload moment)).getD s) s
  let results (s : Simulation) :=
    (s.orchestrator.handlings.drop before).filterMap Handling.result?
  let s := s.runUntil (fun s => (results s).length = payloads.length) []
  (s, results s)

end Simulation
end CalendarRollup
