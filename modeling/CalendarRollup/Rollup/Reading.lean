import CalendarRollup.Instant.Parser
import CalendarRollup.Rollup.Fault

/-! Reading the names of functions and modes, without regard to case and to blanks around them, and
timestamps in JSON: texts in any of the timestamp forms, or milliseconds since 1970-01-01. -/
namespace CalendarRollup

def AggregateFunction.parse (text : String) : Except RequestFault AggregateFunction :=
  let word := (Text.trim text).toUpper
  match AggregateFunction.all.find? fun function => function.name == word with
  | some function => .ok function
  | none => .error (.unknownFunction text)

/-- A mode by its exact name. -/
def AggregationMode.named? (text : String) : Option AggregationMode :=
  AggregationMode.all.find? fun mode => mode.name == text

def AggregationMode.parse (text : String) : Except RequestFault AggregationMode :=
  match AggregationMode.named? (Text.trim text).toLower with
  | some mode => .ok mode
  | none => .error (.unknownMode text)

namespace Instant

def ofNumber? : Json.Number → Option Instant
  | .integer millis _ => ofMillis? millis
  | .float _ => none

def ofText (s : String) : Except RequestFault Instant :=
  match ofText? s with
  | some t => .ok t
  | none => .error (.unreadableTimestamp (Text.trim s))

def ofJson : Json → Except RequestFault Instant
  | .text s => ofText s
  | .number n =>
    match ofNumber? n with
    | some t => .ok t
    | none => .error (.notMillis n)
  | value => .error (.notTimestamp value)

end Instant
end CalendarRollup
