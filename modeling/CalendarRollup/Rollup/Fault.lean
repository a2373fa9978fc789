import CalendarRollup.Calendar.Json
import CalendarRollup.Instant.Format
import CalendarRollup.Json.Printer
import CalendarRollup.Rollup.Rule
import CalendarRollup.Text.Quoted

/-! What can be wrong with a rollup request, or with the rules and timestamps it is made of. -/
namespace CalendarRollup

inductive RequestFault where
  | unknownFunction (text : String)
  | unknownMode (text : String)
  | noRules
  | blankField (function : AggregateFunction)
  | quotedField (field : String)
  | noIds
  | missingId (column : String)
  | invalidId (value : Json) (column : String)
  | payloadNotObject
  | payloadTextNotObject
  | notTimestamp (value : Json)
  | notMillis (number : Json.Number)
  | unreadableTimestamp (text : String)
  | noReference
  | lookbackOutOfRange (range : Nat) (unit : TimeUnit) (finish : Instant)
  | emptyWindow (bound : Instant)
  /-- The fault is the calendar's, and is told as one. -/
  | calendar (fault : CalendarFault)
  deriving Repr

def RequestFault.message : RequestFault → String
  | .unknownFunction text => "unsupported aggregate function '" ++ text ++ "'"
  | .unknownMode text => "unsupported aggregation mode '" ++ text ++ "'"
  | .noRules => "at least one rollup rule is required"
  | .blankField function => "rollup rule for " ++ function.name ++ " has an empty field name"
  | .quotedField field => "rollup field " ++ Text.quoted field ++ " must not contain a quote"
  | .noIds => "at least one id value is required"
  | .missingId column => "payload is missing the id column '" ++ column ++ "'"
  | .invalidId value column =>
    "invalid value " ++ value.render ++ " for id column '" ++ column ++ "'"
  | .payloadNotObject => "payload must be a JSON object"
  | .payloadTextNotObject => "payload text is not a JSON object"
  | .notTimestamp value => "expected a timestamp, found " ++ value.render
  | .notMillis number =>
    "timestamp " ++ (Json.number number).render ++ " is not a valid epoch milliseconds value"
  | .unreadableTimestamp text => "unrecognized timestamp '" ++ text ++ "'"
  | .noReference => "payload has no 'timestamp' to end the window at"
  | .lookbackOutOfRange range unit finish =>
    "lookback of " ++ Numeral.text range ++ " " ++ unit.name ++ " before " ++ finish.display ++
      " is out of range"
  | .emptyWindow bound => "window start and end are both " ++ bound.display
  | .calendar fault => fault.message

end CalendarRollup
