import CalendarRollup.Ingest.Ingester
import CalendarRollup.Provision.Provisioner

/-! A backend that answers from a script: the answers are taken in the order in which commands are
issued, and each is delivered after a delay. Commands can be issued to it one after another, and
calls made of them. -/
namespace CalendarRollup

structure ScriptedAnswer where
  answer : Answer
  /-- Milliseconds from the command to its answer. -/
  delay : Nat
  deriving Repr

abbrev Script := List ScriptedAnswer

namespace Script

/-- Past the end of its script a backend cannot be reached. -/
def exhausted : ScriptedAnswer := ⟨.error (.failed "script exhausted"), 0⟩

def next : Script → ScriptedAnswer × Script
  | [] => (exhausted, [])
  | answer :: rest => (answer, rest)

end Script

structure Exchange where
  script : Script
  /-- The commands issued, in order. -/
  issued : List Command
  deriving Repr

namespace Exchange

def start (script : Script) : Exchange := ⟨script, []⟩

/-- Issues a command and waits for its answer. -/
def ask (exchange : Exchange) (command : Command) : Exchange × Answer :=
  let (next, script) := exchange.script.next
  (⟨script, exchange.issued ++ [command]⟩, next.answer)

def query (exchange : Exchange) (statement : String) :
    Exchange × Except TransportFault String :=
  let (exchange, answer) := exchange.ask (.execute statement)
  (exchange, answer.queryBody)

/-- Answers the commands of one call, at most a number of them. -/
def answerCall (index : Nat) :
    Nat → Option Command → Exchange × Provisioner → Exchange × Provisioner
  | commands + 1, some command, (exchange, provisioner) =>
    let (exchange, answer) := exchange.ask command
    match provisioner.step (.answer index answer) with
    | some (provisioner, command) => answerCall index commands command (exchange, provisioner)
    | none => (exchange, provisioner)
  | _, _, state => state

/-- Makes sure of a calendar by a call that runs alone. -/
def ensure (exchange : Exchange) (provisioner : Provisioner) (spec : CalendarSpec) :
    Exchange × Provisioner × Ensure :=
  let index := provisioner.calls.length
  let run := do
    let (provisioner, _) ← provisioner.step (.call spec)
    let (provisioner, command) ← provisioner.step (.start index)
    let (exchange, provisioner) := answerCall index 2 command (exchange, provisioner)
    let (_, call) ← provisioner.calls[index]?
    some (exchange, provisioner, call)
  run.getD (exchange, provisioner, .unstarted)

/-- Creates the virtual table over a base table. -/
def ensureVirtualTable (exchange : Exchange) (table : String) :
    Exchange × Except Fault Creation :=
  let object := BackendObject.virtualTable table
  let (exchange, answer) := exchange.ask (.execute object.createStatement)
  (exchange, Creation.ofAnswer object answer)

/-- Stores one payload. -/
def ingest (exchange : Exchange) (table : String) (payload : Json) : Exchange × Ingesting :=
  let ingesting := Ingesting.ofPayload payload
  match ingesting.command? table with
  | none => (exchange, ingesting)
  | some command =>
    let (exchange, answer) := exchange.ask command
    (exchange, (ingesting.receive? answer).getD ingesting)

end Exchange
end CalendarRollup
