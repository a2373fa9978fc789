import CalendarRollup.Json.Parser
import CalendarRollup.Rollup.IdFilter
import CalendarRollup.Rollup.Reading

/-! The rows of a rollup, from the body that the backend answers with. -/
namespace CalendarRollup

/-- What can be wrong with a row. -/
inductive RowFault where
  | notObject
  | noDate
  | unknownDate (value : Json)
  deriving Repr

inductive ResponseFault where
  | notJson (body : String)
  | notRows
  | row (index : Nat) (fault : RowFault)
  deriving Repr

def RowFault.message : RowFault → String
  | .notObject => "row is not an object"
  | .noDate => "missing 'timestamp.$date'"
  | .unknownDate value => "unrecognized date value " ++ value.render

def ResponseFault.message : ResponseFault → String
  | .notJson _ => "response is not valid JSON"
  | .notRows => "expected a JSON array of rows"
  | .row index fault => "row " ++ Numeral.text index ++ ": " ++ fault.message

structure RollupResult where
  idColumn : String
  ids : IdFilter
  rows : List Json.Members
  deriving Repr

namespace RollupResult

def toJson (result : RollupResult) : Json :=
  .object [(result.idColumn, result.ids.toJson), ("d", .array (result.rows.map .object))]

/-- The instant of a date: milliseconds since 1970-01-01, or an RFC 3339 text. -/
def dateInstant? : Json → Option Instant
  | .number n => Instant.ofNumber? n
  | .text s => Instant.ofRfc3339? s
  | _ => none

/-- The date that a row's timestamp wraps. -/
def wrappedDate? (row : Json.Members) : Option Json := do
  (← row.get? "timestamp").get? "$date"

/-- A row with its wrapped timestamp written to the second, at the same place. -/
def reshapeRow : Json → Except RowFault Json.Members
  | .object members =>
    match wrappedDate? members with
    | none => .error .noDate
    | some date =>
      match dateInstant? date with
      | none => .error (.unknownDate date)
      | some t => .ok (Json.Members.insert members "timestamp" (.text t.toSecond))
  | _ => .error .notObject

/-- Rows in order, with the number of the first: the first fault is reported. -/
def reshapeRows (first : Nat) : List Json → Except ResponseFault (List Json.Members)
  | [] => .ok []
  | value :: rest => do
    let head ← (reshapeRow value).mapError (.row first)
    let tail ← reshapeRows (first + 1) rest
    return head :: tail

/-- The result for `ids` out of a body that is an array of rows. -/
def ofBody (body : String) (idColumn : String) (ids : IdFilter) :
    Except ResponseFault RollupResult :=
  match Json.parse? body with
  | none => .error (.notJson body)
  | some (.array values) => (reshapeRows 0 values).map fun rows => { idColumn, ids, rows }
  | some _ => .error .notRows

end RollupResult
end CalendarRollup
