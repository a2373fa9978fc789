import CalendarRollup.Json.Parser
import CalendarRollup.Rollup.Request

/-! The request that a payload asks for, under a fixed plan. -/
namespace CalendarRollup

/-- The part of every request that does not depend on the payload. -/
structure RollupPlan where
  table : String
  idColumn : String
  timeColumn : String
  rules : List Rule
  mode : AggregationMode
  calendar : CalendarSpec
  lookback : Lookback
  endTime : EndTime
  /-- How long a request waits for each calendar it needs. -/
  provisionTimeoutSecs : Nat
  deriving DecidableEq, Repr

namespace Payload

/-- The members of a payload: an object, or the text of one. -/
def members : Json → Except RequestFault Json.Members
  | .object members => .ok members
  | .text text =>
    match Json.parse? text with
    | some (.object members) => .ok members
    | _ => .error .payloadTextNotObject
  | _ => .error .payloadNotObject

/-- An id is a text with something in it, or a number. -/
def id (column : String) (value : Json) : Except RequestFault String :=
  match value with
  | .text s => if s.isEmpty then .error (.invalidId value column) else .ok s
  | .number _ => .ok value.render
  | _ => .error (.invalidId value column)

/-- The ids under the id column: one, or a list of at least one. -/
def ids (column : String) (payload : Json.Members) : Except RequestFault IdFilter :=
  match payload.get? column with
  | none | some .null => .error (.missingId column)
  | some (.array values) => do IdFilter.ofValues (← values.mapM (id column))
  | some value => (id column value).map .single

/-- A timestamp that may be missing or null. -/
def timestamp? (key : String) (payload : Json.Members) : Except RequestFault (Option Instant) :=
  match payload.get? key with
  | none | some .null => .ok none
  | some value => (Instant.ofJson value).map some

/-- The bounds that a payload gives, and its timestamp where the policy asks for it. -/
def windowRequest (policy : EndTime) (payload : Json.Members) :
    Except RequestFault WindowRequest := do
  let reference ← match policy with
    | .payloadTimestamp => timestamp? "timestamp" payload
    | _ => .ok none
  let start ← timestamp? "start" payload
  let finish ← timestamp? "end" payload
  return { start, finish, reference }

end Payload

/-- The request of a payload that is processed at `now`. -/
def RollupPlan.request (plan : RollupPlan) (payload : Json) (now : Instant) :
    Except RequestFault RollupRequest := do
  let members ← Payload.members payload
  let ids ← Payload.ids plan.idColumn members
  let asked ← Payload.windowRequest plan.endTime members
  let window ← asked.resolve plan.endTime plan.lookback now
  return {
    table := plan.table, idColumn := plan.idColumn, ids, timeColumn := plan.timeColumn,
    rules := plan.rules, mode := plan.mode, calendar := plan.calendar, window }

end CalendarRollup
