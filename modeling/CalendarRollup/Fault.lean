import CalendarRollup.Backend.Creation
import CalendarRollup.Calendar.Json
import CalendarRollup.Config.Fault
import CalendarRollup.Ingest.Record
import CalendarRollup.Rollup.Result

/-! Everything that can go wrong, by the part it goes wrong in. -/
namespace CalendarRollup

/-- What the readers of JSON, of events and of configurations say about a text that they refuse.
That is up to these readers, which may also say nothing. -/
class Complaints where
  json : String → Option String
  event : String → Option String
  config : String → Option String

namespace Complaints

/-- Readers that say nothing. -/
instance (priority := low) silent : Complaints where
  json _ := none
  event _ := none
  config _ := none

/-- A message, and behind a colon what a reader says. -/
def behind (message : String) : Option String → String
  | some complaint => message ++ ": " ++ complaint
  | none => message

end Complaints

inductive Fault where
  | calendar (fault : CalendarFault)
  | provision (fault : ProvisionFault)
  | request (fault : RequestFault)
  | record (fault : RecordFault)
  | transport (fault : TransportFault)
  | response (fault : ResponseFault)
  | config (fault : ConfigFault)
  deriving Repr

def Fault.ofRequest : RequestFault → Fault
  | .calendar fault => .calendar fault
  | fault => .request fault

/-- The message up to what the reader says whose refusal is the fault. -/
def Fault.message : Fault → String
  | .calendar fault => "Invalid calendar specification: " ++ fault.message
  | .provision fault =>
    "Failed to provision " ++ fault.object.description ++ ": " ++ fault.response.summary
  | .request fault => "Invalid rollup request: " ++ fault.message
  | .record fault => "Invalid ingest record: " ++ fault.message
  | .transport fault => "Error communicating with timeseries backend: " ++ fault.message
  | .response fault => "Malformed backend response: " ++ fault.message
  | .config fault => "Invalid configuration: " ++ fault.message

/-- What is said about the text whose refusal is the fault. -/
def Fault.complaint? [Complaints] : Fault → Option String
  | .record (.textNotJson text) => Complaints.json text
  | .response (.notJson body) => Complaints.json body
  | .config (.unusable file _) => Complaints.config file.text
  | _ => none

/-- The whole message. -/
def Fault.report [Complaints] (fault : Fault) : String :=
  Complaints.behind fault.message fault.complaint?

/-- What becomes of an object when its creation is answered. -/
def Creation.ofAnswer (object : BackendObject) (answer : Answer) : Except Fault Creation := do
  let response ← answer.mapError Fault.transport
  match Creation.ofResponse? response with
  | some creation => .ok creation
  | none => .error (.provision ⟨object, response⟩)

end CalendarRollup
