import Std.Time.DateTime.Timestamp
import CalendarRollup.Service.Program

/-! The command line: reads the configuration and the events, and prints what comes of them. -/
namespace CalendarRollup.Main

def fileFault : IO.Error → FileFault
  | .noFileOrDirectory .. => .missing
  | .alreadyExists .. => .present
  | .inappropriateType _ 20 _ => .notDirectory
  | .inappropriateType .. => .isDirectory
  | e => .other (toString e)

/-- The text of a file. -/
def readText (path : String) : IO (Except FileFault String) := do
  try
    let bytes ← IO.FS.readBinFile path
    match String.fromUTF8? bytes with
    | some text => return .ok text
    | none => return .error (.other "stream did not contain valid UTF-8")
  catch e => return .error (fileFault e)

def openMode : Files.IfExists → IO.FS.Mode
  | .fail => .writeNew
  | .truncate => .write
  | .append => .append

/-- Opens the file of a log, and says on the standard error where the log goes. -/
def openLog : LogTarget → IO (Except ConfigFault Unit)
  | .terminal _ => return .ok ()
  | .file _ path ifExists => do
    try
      let parent := Files.parent path
      if !parent.isEmpty then IO.FS.createDirAll parent
      let _ ← IO.FS.Handle.mk path (openMode ifExists)
      IO.eprintln ("note: configured to log to \"" ++ path ++ "\"")
      return .ok ()
    catch e => return .error (.logUnopened path (fileFault e))

def clock : IO Instant := do
  let nanos := (← Std.Time.Timestamp.now).toNanosecondsSinceUnixEpoch.val
  let second := Instant.secondNanos
  return (Instant.ofSeconds? (nanos / second) (nanos % second).toNat).getD ⟨0, 0, by decide⟩

def inputLines : IO (List InputLine) := do
  let bytes ← (← IO.getStdin).readBinToEnd
  return InputLine.split bytes.toList

def perform : Invocation → IO (Except ProgramFault (List String))
  | .query path payload moment => do
    let now ← clock
    let config := Config.ofFile path (← readText path)
    return do
      let sql ← Program.query (← config.mapError .config) payload moment now
      return [sql]
  | .run path => do
    match Config.ofFile path (← readText path) with
    | .error fault => return .error (.config fault)
    | .ok config =>
      match ← openLog config.log with
      | .error fault => return .error (.config fault)
      | .ok () => return Program.run config (← inputLines) (← clock)
  | .ingest path => do
    match Config.ofFile path (← readText path) with
    | .error fault => return .error (.config fault)
    | .ok config =>
      match ← openLog config.log with
      | .error fault => return .error (.config fault)
      | .ok () => return Program.ingest (← inputLines)

def usage : String :=
  "usage: rollupd run CONFIG_FILE\n" ++
  "       rollupd ingest CONFIG_FILE\n" ++
  "       rollupd query CONFIG_FILE --payload PAYLOAD [--now NOW]"

end CalendarRollup.Main

open CalendarRollup in
def main (arguments : List String) : IO UInt32 := do
  let outcome ← (Invocation.parse? arguments).mapM Main.perform
  match outcome with
  | none => IO.eprintln Main.usage
  | some (.error fault) => IO.eprintln ("Error: " ++ fault.message)
  | some (.ok lines) => lines.forM fun line => IO.println line
  return Program.exitCode outcome
