import CalendarRollup.Config.Files
import CalendarRollup.Fault
import CalendarRollup.Text.Lines

/-! Where log records go, and which of them. -/
namespace CalendarRollup

inductive LogLevel where
  | trace | debug | info | warn | error | critical
  deriving DecidableEq, Repr

namespace LogLevel

def all : List LogLevel := [.trace, .debug, .info, .warn, .error, .critical]

def name : LogLevel → String
  | .trace => "trace"
  | .debug => "debug"
  | .info => "info"
  | .warn => "warn"
  | .error => "error"
  | .critical => "critical"

def named? (text : String) : Option LogLevel := all.find? fun level => level.name == text

/-- The number of a level in log records; the graver a level, the greater. -/
def number : LogLevel → Nat
  | .trace => 10
  | .debug => 20
  | .info => 30
  | .warn => 40
  | .error => 50
  | .critical => 60

end LogLevel

namespace Files.IfExists

def name : IfExists → String
  | .fail => "fail"
  | .truncate => "truncate"
  | .append => "append"

def named? (text : String) : Option IfExists :=
  [IfExists.fail, .truncate, .append].find? fun choice => choice.name == text

end Files.IfExists

/-- Records go to the terminal or to a file. -/
inductive LogTarget where
  | terminal (level : LogLevel)
  | file (level : LogLevel) (path : String) (ifExists : Files.IfExists)
  deriving DecidableEq, Repr

structure LogRecord where
  name : String
  level : LogLevel
  message : String
  deriving DecidableEq, Repr

/-- An open log: what its file held before, if it goes to one, and the records since. -/
structure Log where
  level : LogLevel
  before : Option String
  records : List LogRecord
  deriving Repr

namespace Log

def openTarget (files : Files) : LogTarget → Except ConfigFault Log
  | .terminal level => .ok ⟨level, none, []⟩
  | .file level path ifExists =>
    match files.openForWriting path ifExists with
    | .ok before => .ok ⟨level, some before, []⟩
    | .error cause => .error (.logUnopened path cause)

/-- Records below the level of the log are dropped. -/
def write (log : Log) (record : LogRecord) : Log :=
  if record.level.number < log.level.number then log
  else { log with records := log.records ++ [record] }

/-- Whether a text stops within a line of blanks, where JSON may follow in the same line. -/
def endsInBlanks (text : String) : Bool :=
  text.toList.getLast? != some '\n' &&
    (Text.lines text).getLast?.any fun line => line.toList.all Json.Parser.isSpace

/-- The lines that the file of a log held before. Blanks that the first record follows are no line
of their own. -/
def oldLines (log : Log) : List String :=
  let before := log.before.getD ""
  let lines := Text.lines before
  if endsInBlanks before && !log.records.isEmpty then lines.dropLast else lines

end Log

namespace Setting

def asLevel : Decoder LogLevel := asChoice .tagged LogLevel.named?

def asLogTarget : Decoder LogTarget := fun s => do
  let names : String → Option (List String)
    | "stderr-terminal" => some ["level"]
    | "file" => some ["level", "path", "if_exists"]
    | _ => none
  let asIfExists := asChoice .tagged Files.IfExists.named?
  let (mode, fields) ← asTagged "mode" names s
  match mode with
  | "file" =>
    fields.check
      [("level", checked asLevel), ("path", checked asText), ("if_exists", checked asIfExists)]
    let level ← fields.required "level" asLevel
    let path ← fields.required "path" asText
    let ifExists ← fields.required "if_exists" asIfExists
    return .file level path ifExists
  | _ =>
    fields.check [("level", checked asLevel)]
    return .terminal (← fields.required "level" asLevel)

end Setting
end CalendarRollup
