import CalendarRollup.Json.Parser

/-! The record that is stored for a payload. -/
namespace CalendarRollup

inductive RecordFault where
  | noPayload
  | textNotJson (text : String)
  deriving DecidableEq, Repr

def RecordFault.message : RecordFault → String
  | .noPayload => "event has no payload"
  | .textNotJson _ => "payload text is not JSON"

namespace Record

/-- An object is its own record; any other value is stored under a key. -/
def ofValue : Json → Json
  | .object members => .object members
  | value => .object [("payload", value)]

/-- A text is read as JSON first, and what it says is stored. -/
def ofPayload : Json → Except RecordFault Json
  | .null => .error .noPayload
  | .text s =>
    match Json.parse? s with
    | some value => .ok (ofValue value)
    | none => .error (.textNotJson s)
  | value => .ok (ofValue value)

end Record
end CalendarRollup
