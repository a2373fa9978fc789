import CalendarRollup.Calendar.Sampling
import CalendarRollup.Rollup.IdFilter
import CalendarRollup.Rollup.Window

/-! Rollup requests, and the queries that they compile to. -/
namespace CalendarRollup

/-- All that one query is compiled from. -/
structure RollupRequest where
  table : String
  idColumn : String
  ids : IdFilter
  timeColumn : String
  rules : List Rule
  mode : AggregationMode
  calendar : CalendarSpec
  window : Window
  deriving Repr

namespace RollupRequest

/-- There is a rule, and every rule's field can stand in a quoted argument. Blank fields are
reported before fields with quotes. -/
def checkRules (rules : List Rule) : Except RequestFault Unit :=
  if rules.isEmpty then .error .noRules
  else match rules.find? fun rule => Text.isAllBlank rule.field with
    | some rule => .error (.blankField rule.function)
    | none => match rules.find? fun rule => rule.field.toList.contains '\'' with
      | some rule => .error (.quotedField rule.field)
      | none => .ok ()

/-- A timestamp, and a number for every rule. -/
def columns (rules : List Rule) : List String :=
  ("timestamp " ++ Instant.sqlType) :: rules.map fun rule => rule.column ++ " float"

/-- The type of the result's rows. -/
def rowSchema (request : RollupRequest) : Except RequestFault String := do
  checkRules request.rules
  return ", ".intercalate (columns request.rules)

/-- Calls over raw fields, each rule with its own function. -/
def ruleCalls (rules : List Rule) : String :=
  ",".intercalate (rules.map fun rule => rule.rawCall rule.function)

/-- Averages of the raw fields, whatever the functions of the rules. -/
def averageCalls (rules : List Rule) : String :=
  ",".intercalate (rules.map fun rule => rule.rawCall .avg)

/-- The functions of the rules over the columns of an aggregated series. -/
def columnCalls (rules : List Rule) : String :=
  ",".intercalate (rules.map Rule.columnCall)

/-- The flags of an aggregation over raw rows, and of one over an aggregated series. -/
def rawFlags : Nat := 0
def aggregatedFlags : Nat := 1

def seriesType (schema : String) : String := "timeseries(row(" ++ schema ++ "))"

/-- An aggregation of the raw series over the buckets of a calendar, within the window. -/
def rawAggregation (request : RollupRequest) (schema calls calendarName : String) : String :=
  "AggregateBy('" ++ calls ++ "', '" ++ calendarName ++ "', " ++ request.timeColumn ++ ", " ++
    Numeral.text rawFlags ++ ", " ++ request.window.start.literal ++ ", " ++
    request.window.finish.literal ++ ")::" ++ seriesType schema

/-- An aggregation of an aggregated series over the buckets of a calendar. -/
def seriesAggregation (schema calls calendarName series : String) : String :=
  "AggregateBy('" ++ calls ++ "', '" ++ calendarName ++ "', " ++ series ++ ", " ++
    Numeral.text aggregatedFlags ++ ")::" ++ seriesType schema

/-- The rules over the calendar; a continuous signal is averaged over the finer buckets first. -/
def aggregation (request : RollupRequest) (schema : String) : Except RequestFault String :=
  match request.mode with
  | .discrete =>
    .ok (request.rawAggregation schema (ruleCalls request.rules) request.calendar.calendarName)
  | .continuous => do
    let bucket ← request.calendar.selectBucket.mapError .calendar
    return seriesAggregation schema (columnCalls request.rules) request.calendar.calendarName
      (request.rawAggregation schema (averageCalls request.rules) bucket.calendarName)

/-- The text of the query. Faults of the rules are reported first, those of the ids last. -/
def query (request : RollupRequest) : Except RequestFault String := do
  let schema ← request.rowSchema
  let aggregation ← request.aggregation schema
  let predicate ← request.ids.predicate request.idColumn
  return "SELECT t.* FROM TABLE(TRANSPOSE((SELECT " ++ aggregation ++ " FROM " ++
    request.table ++ " WHERE " ++ predicate ++ "))) AS tab(t);"

end RollupRequest
end CalendarRollup
