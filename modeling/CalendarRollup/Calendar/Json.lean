import CalendarRollup.Calendar.Basic
import CalendarRollup.Json.Value
import CalendarRollup.Text.Basic

/-! Reading time units and calendars, and what can be wrong with them; calendars as JSON. -/
namespace CalendarRollup

inductive CalendarFault where
  | unknownUnit (text : String)
  | range (found : Int)
  deriving DecidableEq, Repr

def CalendarFault.message : CalendarFault → String
  | .unknownUnit text => "unrecognized time unit '" ++ text ++ "'"
  | .range found => "calendar range must be a positive integer, found " ++ Numeral.intText found

namespace TimeUnit

def all : List TimeUnit := [.second, .minute, .hour, .day, .week, .month, .year]

/-- A unit by its name or abbreviation, without regard to case and to blanks around it. -/
def parse (text : String) : Except CalendarFault TimeUnit :=
  let word := (Text.trim text).toLower
  match all.find? fun unit => unit.name == word || unit.abbreviation == word with
  | some unit => .ok unit
  | none => .error (.unknownUnit text)

end TimeUnit

namespace CalendarSpec

/-- A calendar of a range from 1 up to `2 ^ 32 - 1`. -/
def make (range : Int) (unit : TimeUnit) : Except CalendarFault CalendarSpec :=
  if h : 0 < range.toNat ∧ range.toNat < 4294967296 then .ok ⟨range.toNat, unit, h.1, h.2⟩
  else .error (.range range)

def toJson (spec : CalendarSpec) : Json :=
  .object [("range", .ofNat spec.range (Nat.lt_trans spec.range_lt (by decide))),
    ("unit", .text spec.unit.name)]

end CalendarSpec
end CalendarRollup
