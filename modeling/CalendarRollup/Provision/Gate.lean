import CalendarRollup.Backend.Response

/-! Gates: where the provisioning of a calendar stands, and waiting until it has settled. -/
namespace CalendarRollup

inductive ProvisionState where
  | pending
  | provisioning
  | ready
  | failed (reason : String)
  deriving DecidableEq, Repr, Inhabited

namespace ProvisionState

def isSettled : ProvisionState → Bool
  | .ready => true
  | .failed _ => true
  | _ => false

def name : ProvisionState → String
  | .pending => "pending"
  | .provisioning => "provisioning"
  | .ready => "ready"
  | .failed _ => "failed"

def reason? : ProvisionState → Option String
  | .failed reason => some reason
  | _ => none

end ProvisionState

/-- The state of a calendar as its reporter last set it. -/
structure Gate where
  calendar : CalendarSpec
  state : ProvisionState
  /-- Whether there still is a reporter that may change the state. -/
  attended : Bool
  deriving DecidableEq, Repr

namespace Gate

def new (calendar : CalendarSpec) : Gate := ⟨calendar, .pending, true⟩

def set (gate : Gate) (state : ProvisionState) : Gate := { gate with state }

/-- The gate after its reporter has gone. -/
def leave (gate : Gate) : Gate := { gate with attended := false }

/-- What a wait finds at once: the settled state, or that nobody will settle it. -/
def settled? (gate : Gate) : Option (Except TransportFault ProvisionState) :=
  if gate.state.isSettled then some (.ok gate.state)
  else if gate.attended then none
  else some (.error (.abandoned gate.calendar))

end Gate

/-- Waiting for a gate, up to a moment of the clock in milliseconds. -/
structure Wait where
  deadline : Nat
  deriving DecidableEq, Repr

namespace Wait

def begun (now limit : Nat) : Wait := ⟨now + limit⟩

/-- How a wait ends, if it does at this moment: the gate is looked at before the clock. -/
def outcome? (wait : Wait) (gate : Gate) (now : Nat) :
    Option (Except TransportFault ProvisionState) :=
  match gate.settled? with
  | some outcome => some outcome
  | none => if wait.deadline ≤ now then some (.error (.timedOut gate.calendar)) else none

end Wait
end CalendarRollup
