import CalendarRollup.Decimal.Numeral
import CalendarRollup.Instant.Basic

/-! How instants are written: to the second, to five places for the backend, and for messages with
as many places as needed. -/
namespace CalendarRollup

/-- Four digits for the years 0 to 9999; all others have a sign and at least four. -/
def Date.yearChars (year : Int) : List Char :=
  if 0 ≤ year ∧ year ≤ 9999 then Numeral.fixed 4 year.natAbs
  else (if year < 0 then '-' else '+') :: Numeral.padded 4 year.natAbs

def Date.chars (d : Date) : List Char :=
  Date.yearChars d.year ++ '-' :: Numeral.fixed 2 d.month ++ '-' :: Numeral.fixed 2 d.day

/-- Hours, minutes and seconds. -/
def ClockTime.chars (t : ClockTime) : List Char :=
  Numeral.fixed 2 t.hour ++ ':' :: Numeral.fixed 2 t.minute ++ ':' :: Numeral.fixed 2 t.second

namespace Instant

def secondChars (t : Instant) : List Char := t.date.chars ++ ' ' :: t.clock.chars

/-- `YYYY-MM-DD HH:MM:SS`. -/
def toSecond (t : Instant) : String := String.ofList t.secondChars

/-- Decimal places of the backend's datetimes. -/
def places : Nat := 5

def datetimeChars (t : Instant) : List Char :=
  t.secondChars ++ '.' :: Numeral.fixed places (t.clock.nano / Nat.pow 10 (9 - places))

/-- `YYYY-MM-DD HH:MM:SS.fffff`, what is left of the fraction dropped. -/
def datetime (t : Instant) : String := String.ofList t.datetimeChars

/-- The backend's type of datetime columns and literals. -/
def sqlType : String := "datetime year to fraction(5)"

/-- The datetime as a quoted literal with its type. -/
def literal (t : Instant) : String := "'" ++ t.datetime ++ "'::" ++ sqlType

/-- The fewest places out of 0, 3, 6 and 9 that hold all nanoseconds. -/
def fractionChars (nano : Nat) : List Char :=
  if nano = 0 then []
  else if nano % 1000000 = 0 then '.' :: Numeral.fixed 3 (nano / 1000000)
  else if nano % 1000 = 0 then '.' :: Numeral.fixed 6 (nano / 1000)
  else '.' :: Numeral.fixed 9 nano

/-- The instant as messages show it. -/
def display (t : Instant) : String :=
  String.ofList (t.secondChars ++ fractionChars t.clock.nano) ++ " UTC"

end Instant
end CalendarRollup
