import CalendarRollup.Json.Value

/-! Rules: which function the backend applies to which field of the raw signal, and the column
that the result is named by. -/
namespace CalendarRollup

/-- A function over the values of a calendar bucket. -/
inductive AggregateFunction where
  | sum | avg | min | max | count | first | last | median
  deriving DecidableEq, Repr, Inhabited

namespace AggregateFunction

def all : List AggregateFunction := [.sum, .avg, .min, .max, .count, .first, .last, .median]

def name : AggregateFunction → String
  | .sum => "SUM"
  | .avg => "AVG"
  | .min => "MIN"
  | .max => "MAX"
  | .count => "COUNT"
  | .first => "FIRST"
  | .last => "LAST"
  | .median => "MEDIAN"

end AggregateFunction

/-- One function of one field. The field is a path of names with points between them. -/
structure Rule where
  field : String
  function : AggregateFunction
  deriving DecidableEq, Repr, Inhabited

namespace Rule

/-- What is left of a path after its first name, or the whole path where there is only one. -/
def innerPath (path : List Char) : List Char :=
  match path.dropWhile (· != '.') with
  | [] => path
  | _ :: rest => rest

/-- The inner path with underscores for points. -/
def columnStem (path : List Char) : List Char :=
  (innerPath path).map fun c => if c = '.' then '_' else c

/-- The column of the result, such as `temp_AVG` for the average of `d.temp`. -/
def column (rule : Rule) : String :=
  String.ofList (columnStem rule.field.toList) ++ "_" ++ rule.function.name

/-- `function` of the raw field. -/
def rawCall (rule : Rule) (function : AggregateFunction) : String :=
  function.name ++ "($" ++ rule.field ++ ")"

/-- The rule's function of its own column in an aggregated series. -/
def columnCall (rule : Rule) : String := rule.function.name ++ "($" ++ rule.column ++ ")"

def toJson (rule : Rule) : Json :=
  .object [("field", .text rule.field), ("function", .text rule.function.name)]

end Rule

/-- How rules are applied to the raw signal: over the calendar's buckets at once, or over the
averages of finer buckets. -/
inductive AggregationMode where
  | discrete | continuous
  deriving DecidableEq, Repr, Inhabited

namespace AggregationMode

def all : List AggregationMode := [.discrete, .continuous]

def name : AggregationMode → String
  | .discrete => "discrete"
  | .continuous => "continuous"

end AggregationMode
end CalendarRollup
