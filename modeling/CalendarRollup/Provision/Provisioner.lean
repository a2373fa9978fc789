import CalendarRollup.Provision.Ensure
import CalendarRollup.Provision.Gate

/-! Calls that make sure of calendars, any number of them at once, with a memory of the calendars
that are known to exist. The memory only saves commands. -/
namespace CalendarRollup

structure Provisioner where
  known : List CalendarSpec
  /-- The calls so far, each with its calendar. -/
  calls : List (CalendarSpec × Ensure)
  deriving Repr

namespace Provisioner

def new : Provisioner := ⟨[], []⟩

/-- What can happen to a provisioner. -/
inductive Label where
  | call (spec : CalendarSpec)
  | start (index : Nat)
  | answer (index : Nat) (answer : Answer)
  deriving Repr

/-- A call moves on. One that ends well is remembered. -/
def advance (p : Provisioner) (index : Nat) (spec : CalendarSpec) (call : Ensure) :
    Provisioner where
  known := if call.succeeded && !p.known.contains spec then spec :: p.known else p.known
  calls := p.calls.set index (spec, call)

/-- The provisioner after what happens, and the command that is issued then. -/
def step (p : Provisioner) : Label → Option (Provisioner × Option Command)
  | .call spec => some ({ p with calls := p.calls ++ [(spec, .unstarted)] }, none)
  | .start index =>
    match p.calls[index]? with
    | some (spec, .unstarted) =>
      let call := Ensure.started (p.known.contains spec)
      some (p.advance index spec call, call.command? spec)
    | _ => none
  | .answer index answer => do
    let (spec, call) ← p.calls[index]?
    let call ← call.receive? spec answer
    some (p.advance index spec call, call.command? spec)

/-- How the call for a gate stands, as its reporter tells. -/
def report : Ensure → ProvisionState
  | .unstarted => .pending
  | .awaitingPattern => .provisioning
  | .awaitingCalendar _ => .provisioning
  | .done (.ok _) => .ready
  | .done (.error fault) => .failed fault.message

end Provisioner

/-- The reporter of a gate sets the state as its call moves on, and goes when the call is done. -/
def Gate.follow (gate : Gate) (call : Ensure) : Gate :=
  let gate := gate.set (Provisioner.report call)
  if call.isDone then gate.leave else gate

end CalendarRollup
