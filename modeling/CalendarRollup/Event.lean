import CalendarRollup.Fault

/-! Events as they arrive, and the events that answer them. An answer carries the fields of its
event, apart from those that tell the outcome. -/
namespace CalendarRollup

structure InboundEvent where
  payload : Json
  /-- The other fields, in order; no key is there twice. -/
  rest : Json.Members
  distinct : rest.keys.Nodup
  deriving Repr

namespace InboundEvent

/-- The event that members make, as they are written: the payload may be missing, but may not be
given twice. -/
def ofPairs? (pairs : List (String × Json)) : Option InboundEvent :=
  let others := pairs.filter (·.1 != "payload")
  let rest := Json.Members.ofPairs others
  let distinct := Json.Members.nodup_keys_ofPairs others
  match pairs.filter (·.1 == "payload") with
  | [] => some { payload := .null, rest, distinct }
  | [(_, payload)] => some { payload, rest, distinct }
  | _ => none

/-- The event of a text that is an object. -/
def parse? (text : String) : Option InboundEvent := do
  ofPairs? (← Json.Parser.objectPairs text.toList)

/-- The fields that tell the outcome of an event. -/
def outcomeKeys : List String := ["payload", "error", "statusCode"]

def carried (event : InboundEvent) : Json.Members :=
  event.rest.filter fun member => !outcomeKeys.contains member.1

end InboundEvent

inductive OutboundEvent where
  | rollup (result : RollupResult) (rest : Json.Members)
  | ingested (payload : Json) (status : UInt16) (rest : Json.Members)
  | failure (error : String) (rest : Json.Members)
  deriving Repr

namespace OutboundEvent

variable [Complaints]

def ofFault (fault : Fault) (event : InboundEvent) : OutboundEvent :=
  .failure fault.report event.carried

def ofRollup (result : Except Fault RollupResult) (event : InboundEvent) : OutboundEvent :=
  match result with
  | .ok result => .rollup result event.carried
  | .error fault => ofFault fault event

/-- The backend's answer to a record: its body as JSON where it is that, else as a text. -/
def ofResponse (response : Response) (event : InboundEvent) : OutboundEvent :=
  .ingested ((Json.parse? response.body).getD (.text response.body)) response.status event.carried

/-- The answer to a text that is no event. -/
def unreadable (text : String) : OutboundEvent :=
  .failure (Complaints.behind "invalid event" (Complaints.event text)) []

def isFailure : OutboundEvent → Bool
  | .failure _ _ => true
  | _ => false

def toJson : OutboundEvent → Json
  | .rollup result rest => .object (("payload", result.toJson) :: rest)
  | .ingested payload status rest =>
    .object (("payload", payload) ::
      ("statusCode", .ofNat status.toNat (Nat.lt_trans status.toNat_lt (by decide))) :: rest)
  | .failure error rest => .object (("error", .text error) :: rest)

/-- The event as one line. -/
def render (event : OutboundEvent) : String := event.toJson.render

end OutboundEvent
end CalendarRollup
