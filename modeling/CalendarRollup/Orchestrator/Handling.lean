import CalendarRollup.Fault
import CalendarRollup.Provision.Gate
import CalendarRollup.Rollup.Payload

/-! The handling of one payload: its request is made, every gate is waited for in turn, then the
query runs and its answer becomes the result. -/
namespace CalendarRollup

/-- Where the handling stands. -/
inductive Handling where
  /-- The request waits for the gate at an index. -/
  | waiting (request : RollupRequest) (index : Nat) (wait : Wait)
  | querying (request : RollupRequest) (statement : String)
  | done (result : Except Fault RollupResult)
  deriving Repr

namespace Handling

def command? : Handling → Option Command
  | .querying _ statement => some (.execute statement)
  | _ => none

/-- The query of a request that has waited for all gates. -/
def query (request : RollupRequest) : Handling :=
  match request.query with
  | .ok statement => .querying request statement
  | .error fault => .done (.error (.ofRequest fault))

/-- A request on its way to the gate at an index, or to its query past the last one. -/
def approach (gates : List Gate) (limit now : Nat) (request : RollupRequest) (index : Nat) :
    Handling :=
  if index < gates.length then .waiting request index (.begun now limit) else query request

/-- A payload that makes no request waits for nothing. -/
def ofPayload (plan : RollupPlan) (gates : List Gate) (limit now : Nat) (payload : Json)
    (moment : Instant) : Handling :=
  match plan.request payload moment with
  | .ok request => approach gates limit now request 0
  | .error fault => .done (.error (.ofRequest fault))

/-- Ends the present wait, if that is possible now. A calendar that failed to be provisioned does
not stop the request: the backend will tell what is missing. -/
def proceed? (gates : List Gate) (limit now : Nat) : Handling → Option Handling
  | .waiting request index wait => do
    let gate ← gates[index]?
    match ← wait.outcome? gate now with
    | .ok _ => some (approach gates limit now request (index + 1))
    | .error fault => some (.done (.error (.transport fault)))
  | _ => none

/-- The result that the answer to a query makes. -/
def resultOf (request : RollupRequest) (answer : Answer) : Except Fault RollupResult := do
  let body ← answer.queryBody.mapError Fault.transport
  (RollupResult.ofBody body request.idColumn request.ids).mapError .response

def receive? (answer : Answer) : Handling → Option Handling
  | .querying request _ => some (.done (resultOf request answer))
  | _ => none

def deadline? : Handling → Option Nat
  | .waiting _ _ wait => some wait.deadline
  | _ => none

def result? : Handling → Option (Except Fault RollupResult)
  | .done result => some result
  | _ => none

end Handling

/-- The result of a payload handled alone, given how its waits end and how its query is
answered. -/
def RollupPlan.outcome (plan : RollupPlan) (payload : Json) (moment : Instant)
    (waits : Except TransportFault Unit) (answer : Answer) : Except Fault RollupResult := do
  let request ← (plan.request payload moment).mapError Fault.ofRequest
  waits.mapError Fault.transport
  let _ ← request.query.mapError Fault.ofRequest
  Handling.resultOf request answer

end CalendarRollup
