import CalendarRollup.Rollup.Fault
import CalendarRollup.Text.Basic

/-! The entities that a rollup is restricted to. -/
namespace CalendarRollup

/-- One id, or a list of them. A list of one id stays a list. -/
inductive IdFilter where
  | single (value : String)
  | many (values : List String)
  deriving DecidableEq, Repr, Inhabited

namespace IdFilter

def values : IdFilter → List String
  | .single value => [value]
  | .many values => values

/-- A list of ids as a filter, which an empty list is not. -/
def ofValues (values : List String) : Except RequestFault IdFilter :=
  if values.isEmpty then .error .noIds else .ok (.many values)

def toJson : IdFilter → Json
  | .single value => .text value
  | .many values => .array (values.map .text)

/-- The condition that selects the ids from a column. -/
def predicate (ids : IdFilter) (column : String) : Except RequestFault String :=
  match ids.values with
  | [] => .error .noIds
  | [value] => .ok (column ++ " = " ++ Text.literal value)
  | values => .ok (column ++ " IN (" ++ ", ".intercalate (values.map Text.literal) ++ ")")

end IdFilter
end CalendarRollup
