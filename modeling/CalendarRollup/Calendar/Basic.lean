import CalendarRollup.Decimal.Numeral

/-! Time units, and the repeating calendars that are a number of units long. Equal calendars share
the names of their backend objects, and no others do. -/
namespace CalendarRollup

inductive TimeUnit where
  | second | minute | hour | day | week | month | year
  deriving DecidableEq, Repr, Inhabited

namespace TimeUnit

/-- The fixed length of a unit: a month counts as 30 days, a year as 365. -/
def seconds : TimeUnit → Nat
  | .second => 1
  | .minute => 60
  | .hour => 3600
  | .day => 86400
  | .week => 604800
  | .month => 2592000
  | .year => 31536000

def name : TimeUnit → String
  | .second => "second"
  | .minute => "minute"
  | .hour => "hour"
  | .day => "day"
  | .week => "week"
  | .month => "month"
  | .year => "year"

/-- The unit as it stands in a calendar's name. -/
def abbreviation : TimeUnit → String
  | .second => "sec"
  | .minute => "min"
  | unit => unit.name

/-- Units from the shortest to the longest. -/
def rank : TimeUnit → Nat
  | .second => 0
  | .minute => 1
  | .hour => 2
  | .day => 3
  | .week => 4
  | .month => 5
  | .year => 6

theorem seconds_pos (unit : TimeUnit) : 0 < unit.seconds := by
  cases unit <;> decide

end TimeUnit

/-- An interval of `range` units that repeats. -/
structure CalendarSpec where
  range : Nat
  unit : TimeUnit
  range_pos : 0 < range
  range_lt : range < 4294967296
  deriving DecidableEq, Repr

namespace CalendarSpec

/-- The date that every calendar and pattern is anchored at. -/
def anchor : String := "2011-01-01 00:00:00"

def totalSeconds (spec : CalendarSpec) : Nat := spec.range * spec.unit.seconds

def display (spec : CalendarSpec) : String := Numeral.text spec.range ++ " " ++ spec.unit.name

def calendarName (spec : CalendarSpec) : String :=
  "ts_" ++ Numeral.text spec.range ++ spec.unit.abbreviation

/-- Patterns and calendars are kept apart by the backend, so they share a name. -/
def patternName (spec : CalendarSpec) : String := spec.calendarName

/-- One unit on, the other units of the range off. -/
def patternDefinition (spec : CalendarSpec) : String :=
  "\x7b1 on, " ++ Numeral.text (spec.range - 1) ++ " off\x7d, " ++ spec.unit.name

/-- Calendars in order of range, and of unit where the ranges are equal. -/
def before (a b : CalendarSpec) : Bool :=
  a.range < b.range || (a.range == b.range && a.unit.rank ≤ b.unit.rank)

/-- The calendars in order, each of them once. -/
def sorted (specs : List CalendarSpec) : List CalendarSpec :=
  (specs.mergeSort before).eraseReps

end CalendarSpec
end CalendarRollup
