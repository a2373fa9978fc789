import CalendarRollup.Config.Setting
import CalendarRollup.Rollup.Payload
import CalendarRollup.Rollup.Reading

/-! Calendars, lookbacks, rules and plans as settings. -/
namespace CalendarRollup.Setting

def asTimeUnit : Decoder TimeUnit := fun s => do
  (TimeUnit.parse (← asText s)).mapError .calendar

/-- The range is judged after both fields have been read. -/
def asCalendar (dialect : Dialect) : Decoder CalendarSpec := fun s => do
  let range := asIntegerIn (-9223372036854775808) 9223372036854775807
  let fields ← asFields dialect ["range", "unit"] s
  fields.check [("range", checked range), ("unit", checked asTimeUnit)]
  let range ← fields.required "range" range
  let unit ← fields.required "unit" asTimeUnit
  (CalendarSpec.make range unit).mapError .calendar

def asLookback (dialect : Dialect) : Decoder Lookback := fun s => do
  let range := asIntegerIn 0 4294967295
  let fields ← asFields dialect ["range", "unit"] s
  fields.check [("range", checked range), ("unit", checked asTimeUnit)]
  let range ← fields.required "range" range
  let unit ← fields.required "unit" asTimeUnit
  if h : range.toNat ≤ 4294967295 then .ok ⟨range.toNat, unit, h⟩ else .error .shape

def asFunction : Decoder AggregateFunction := fun s => do
  (AggregateFunction.parse (← asText s)).mapError .request

def asRule (dialect : Dialect) : Decoder Rule := fun s => do
  let fields ← asFields dialect ["field", "function"] s
  fields.check [("field", checked asText), ("function", checked asFunction)]
  let field ← fields.required "field" asText
  let function ← fields.required "function" asFunction
  return { field, function }

/-- Modes have exact names here. -/
def asMode (dialect : Dialect) : Decoder AggregationMode :=
  asChoice dialect AggregationMode.named?

def asEndTime : Decoder EndTime := fun s => do
  let names : String → Option (List String)
    | "now" => some []
    | "payload-timestamp" => some []
    | "fixed" => some ["reference"]
    | _ => none
  let (policy, fields) ← asTagged "policy" names s
  match policy with
  | "fixed" =>
    fields.check [("reference", checked asText)]
    return .fixed (← fields.required "reference" asText)
  | "payload-timestamp" =>
    fields.check []
    return .payloadTimestamp
  | _ =>
    fields.check []
    return .now

/-- The seconds that a request waits for a calendar, where nothing is said. -/
def defaultProvisionTimeoutSecs : Nat := 60

def asPlan (dialect : Dialect) : Decoder RollupPlan := fun s => do
  let fields ← asFields dialect
    ["table", "id_column", "time_column", "rules", "mode", "calendar", "lookback", "end_time",
      "provision_timeout_secs"] s
  fields.check
    [("table", checked asText), ("id_column", checked asText), ("time_column", checked asText),
      ("rules", checked (asList (asRule dialect))), ("mode", checked (asMode dialect)),
      ("calendar", checked (asCalendar dialect)), ("lookback", checked (asLookback dialect)),
      ("end_time", checked asEndTime), ("provision_timeout_secs", checked asCount)]
  let table ← fields.required "table" asText
  let idColumn ← fields.required "id_column" asText
  let timeColumn ← fields.required "time_column" asText
  let rules ← fields.required "rules" (asList (asRule dialect))
  let mode ← fields.optional? "mode" (asMode dialect)
  let calendar ← fields.required "calendar" (asCalendar dialect)
  let lookback ← fields.required "lookback" (asLookback dialect)
  let endTime ← fields.required "end_time" asEndTime
  let timeout ← fields.optional? "provision_timeout_secs" asCount
  return {
    table, idColumn, timeColumn, rules, mode := mode.getD .discrete, calendar, lookback, endTime,
    provisionTimeoutSecs := timeout.getD defaultProvisionTimeoutSecs }

end CalendarRollup.Setting
