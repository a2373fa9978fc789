import CalendarRollup.Fault

/-! Making sure of a calendar: its pattern is created, then the calendar itself, each unless it is
there. A call is a small machine that waits for the answers to its two commands in turn. -/
namespace CalendarRollup

structure Provisioned where
  pattern : Creation
  calendar : Creation
  deriving DecidableEq, Repr

/-- Where one call stands. -/
inductive Ensure where
  | unstarted
  | awaitingPattern
  | awaitingCalendar (pattern : Except Fault Creation)
  | done (result : Except Fault Provisioned)
  deriving Repr

namespace Ensure

/-- The command that a call waits on. -/
def command? (spec : CalendarSpec) : Ensure → Option Command
  | .awaitingPattern => some (.execute (BackendObject.pattern spec).createStatement)
  | .awaitingCalendar _ => some (.execute (BackendObject.calendar spec).createStatement)
  | _ => none

/-- A call for a calendar that is known has nothing to do. -/
def started (known : Bool) : Ensure :=
  if known then .done (.ok ⟨.alreadyExists, .alreadyExists⟩) else .awaitingPattern

/-- The calendar is tried even where its pattern failed; of two failures the first is the
result. -/
def receive? (spec : CalendarSpec) (answer : Answer) : Ensure → Option Ensure
  | .awaitingPattern => some (.awaitingCalendar (Creation.ofAnswer (.pattern spec) answer))
  | .awaitingCalendar pattern => some <| .done do
      let pattern ← pattern
      let calendar ← Creation.ofAnswer (.calendar spec) answer
      return { pattern, calendar }
  | _ => none

def isDone : Ensure → Bool
  | .done _ => true
  | _ => false

/-- Whether the call has made sure of its calendar. -/
def succeeded : Ensure → Bool
  | .done (.ok _) => true
  | _ => false

end Ensure
end CalendarRollup
