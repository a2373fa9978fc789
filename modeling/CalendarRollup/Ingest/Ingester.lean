import CalendarRollup.Event

/-! Storing the payloads of events, any number of them at once: each that makes a record is
inserted into the virtual table once, and the event that answers it tells what became of that. -/
namespace CalendarRollup

/-- Where the storing of one payload stands. -/
inductive Ingesting where
  | awaiting (record : Json)
  | done (result : Except Fault Response)
  deriving Repr

namespace Ingesting

def ofPayload (payload : Json) : Ingesting :=
  match Record.ofPayload payload with
  | .ok record => .awaiting record
  | .error fault => .done (.error (.record fault))

/-- The command that is waited on, for a base table. -/
def command? (table : String) : Ingesting → Option Command
  | .awaiting record => some (.insert (virtualTableName table) record)
  | .done _ => none

/-- Every answer is a result, whatever its status. -/
def receive? (answer : Answer) : Ingesting → Option Ingesting
  | .awaiting _ => some (.done (answer.mapError Fault.transport))
  | .done _ => none

def result? : Ingesting → Option (Except Fault Response)
  | .done result => some result
  | .awaiting _ => none

end Ingesting

/-- The answer to an event whose payload has been stored, or could not be. -/
def OutboundEvent.ofIngest [Complaints] (result : Except Fault Response) (event : InboundEvent) :
    OutboundEvent :=
  match result with
  | .ok response => ofResponse response event
  | .error fault => ofFault fault event

structure Ingester where
  table : String
  events : List (InboundEvent × Ingesting)
  /-- The commands issued, each with the index of its event. -/
  issued : List (Nat × Command)
  deriving Repr

namespace Ingester

def new (table : String) : Ingester := ⟨table, [], []⟩

inductive Label where
  | arrive (event : InboundEvent)
  | answer (index : Nat) (answer : Answer)
  deriving Repr

def step (ingester : Ingester) : Label → Option Ingester
  | .arrive event =>
    let ingesting := Ingesting.ofPayload event.payload
    let index := ingester.events.length
    some { ingester with
      events := ingester.events ++ [(event, ingesting)]
      issued := ingester.issued ++ (ingesting.command? ingester.table).toList.map (index, ·) }
  | .answer index answer => do
    let (event, ingesting) ← ingester.events[index]?
    let ingesting ← ingesting.receive? answer
    some { ingester with events := ingester.events.set index (event, ingesting) }

/-- The events that answer those whose storing is done, in the order of arrival. -/
def emitted [Complaints] (ingester : Ingester) : List OutboundEvent :=
  ingester.events.filterMap fun (event, ingesting) =>
    ingesting.result?.map (OutboundEvent.ofIngest · event)

end Ingester
end CalendarRollup
