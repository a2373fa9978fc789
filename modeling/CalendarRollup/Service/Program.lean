import CalendarRollup.Config.Basic
import CalendarRollup.Ingest.Ingester
import CalendarRollup.Orchestrator.Basic
import CalendarRollup.Service.Arguments
import CalendarRollup.Service.Serving
import CalendarRollup.Text.Lines

/-! What the program does for each of its commands, against a backend that no request can be made
for. -/
namespace CalendarRollup

/-- A line, unless its bytes are no text. -/
inductive InputLine where
  | text (line : String)
  | undecodable
  deriving DecidableEq, Repr

namespace InputLine

def decode (line : List UInt8) : InputLine :=
  match String.fromUTF8? ⟨line.toArray⟩ with
  | some line => .text line
  | none => .undecodable

/-- The lines of an input, with the bytes of a line feed and of a carriage return. -/
def split (bytes : List UInt8) : List InputLine := (Text.splitLines 10 13 bytes).map decode

end InputLine

/-- Why a command ends early. -/
inductive ProgramFault where
  | config (fault : ConfigFault)
  | payloadNotJson
  | request (fault : RequestFault)
  | undecodableInput
  deriving Repr

def ProgramFault.message [Complaints] : ProgramFault → String
  | .config fault => (Fault.config fault).report
  | .payloadNotJson => "parsing payload"
  | .request fault => (Fault.ofRequest fault).report
  | .undecodableInput => "reading stdin"

namespace Program
variable [Complaints]

/-- The query that a payload would run. The payload is read before the time it is processed at. -/
def query (config : Config) (payload : String) (moment : Option String) (clock : Instant) :
    Except ProgramFault String := do
  let payload ← match Json.parse? payload with
    | some payload => .ok payload
    | none => .error .payloadNotJson
  let now ← match moment with
    | some text => (Instant.ofText text).mapError .request
    | none => .ok clock
  let request ← (config.plan.request payload now).mapError .request
  request.query.mapError .request

/-- The texts of lines, all of which have to be texts. -/
def texts (lines : List InputLine) : Except ProgramFault (List String) :=
  lines.mapM fun line =>
    match line with
    | .text line => .ok line
    | .undecodable => .error .undecodableInput

/-- Rolls events up. That the provisioning fails does not keep queries from being tried. -/
def rollupHandler (plan : RollupPlan) (clock : Instant) : Handler := fun event =>
  .ofRollup (plan.outcome event.payload clock (.ok ()) (.error .noRequest)) event

/-- The answers to lines with events to roll up. -/
def run (config : Config) (lines : List InputLine) (clock : Instant) :
    Except ProgramFault (List String) := do
  let _ ← (Orchestrator.start config.plan).mapError .request
  return Serving.answers (rollupHandler config.plan clock) (← texts lines)

/-- Stores events. That the virtual table is not created does not keep records from being tried. -/
def ingestHandler : Handler := fun event =>
  match Ingesting.ofPayload event.payload with
  | .done result => .ofIngest result event
  | .awaiting _ => .ofIngest (.error (.transport .noRequest)) event

/-- The answers to lines with events to store. -/
def ingest (lines : List InputLine) : Except ProgramFault (List String) := do
  return Serving.answers ingestHandler (← texts lines)

/-- The configuration, with its log opened. -/
def prepare (files : Files) (path : String) : Except ProgramFault Config := do
  let config ← (Config.load files path).mapError .config
  let _ ← (Log.openTarget files config.log).mapError .config
  return config

/-- Performs a command among some files: the lines that it prints. -/
def perform (files : Files) (lines : List InputLine) (clock : Instant) :
    Invocation → Except ProgramFault (List String)
  | .query path payload moment => do
    let config ← (Config.load files path).mapError .config
    return [← query config payload moment clock]
  | .run path => do run (← prepare files path) lines clock
  | .ingest path => do
    let _ ← prepare files path
    ingest lines

/-- The code that the program exits with. -/
def exitCode : Option (Except ProgramFault (List String)) → UInt32
  | none => 2
  | some (.error _) => 1
  | some (.ok _) => 0

end Program
end CalendarRollup
