import CalendarRollup.Calendar.Basic
import CalendarRollup.Json.Printer

/-! What the backend is asked and what it answers. A command that is answered has succeeded or not;
one that is not answered has failed in transport. -/
namespace CalendarRollup

structure Response where
  status : UInt16
  body : String
  deriving DecidableEq, Repr

namespace Response

def isSuccess (response : Response) : Bool :=
  200 ≤ response.status.toNat && response.status.toNat < 300

/-- The status and the body in one line. -/
def summary (response : Response) : String :=
  "status " ++ Numeral.text response.status.toNat ++ ": " ++ response.body

end Response

/-- A statement of the query language, or a document for a table. -/
inductive Command where
  | execute (statement : String)
  | insert (table : String) (record : Json)
  deriving Repr

/-- The command in one line. -/
def Command.summary : Command → String
  | .execute statement => statement
  | .insert table record => "POST " ++ table ++ " " ++ record.render

inductive TransportFault where
  | failed (message : String)
  | refused (response : Response)
  | timedOut (calendar : CalendarSpec)
  | abandoned (calendar : CalendarSpec)
  deriving DecidableEq, Repr

def TransportFault.message : TransportFault → String
  | .failed message => message
  | .refused response => response.summary
  | .timedOut calendar =>
    "timed out waiting for calendar " ++ calendar.calendarName ++ " to be provisioned"
  | .abandoned calendar => "provisioning of calendar " ++ calendar.calendarName ++ " was abandoned"

/-- The address of the backend is none that a request can be made for. -/
def TransportFault.noRequest : TransportFault := .failed "builder error"

/-- What becomes of a command: an answer, or a failure in transport. -/
abbrev Answer := Except TransportFault Response

/-- The body of a query's answer, which only a success has. -/
def Answer.queryBody (answer : Answer) : Except TransportFault String := do
  let response ← answer
  if response.isSuccess then .ok response.body else .error (.refused response)

end CalendarRollup
