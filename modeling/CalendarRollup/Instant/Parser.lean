import CalendarRollup.Decimal.Numeral
import CalendarRollup.Instant.Basic
import CalendarRollup.Text.Basic

/-! Reading timestamps: RFC 3339 with an offset, or a date with or without a time of day, which
are then universal time. Every reader takes the characters ahead and gives back those it leaves. -/
namespace CalendarRollup.Instant.Parser

abbrev Chars := List Char

def expect (c : Char) : Chars → Option Chars
  | [] => none
  | d :: rest => if d = c then some rest else none

/-- A number of exactly `width` digits. -/
def exactly (width : Nat) (cs : Chars) : Option (Nat × Chars) :=
  let digits := (cs.take width).takeWhile Char.isDigit
  if digits.length = width then some (Numeral.value digits, cs.drop width) else none

/-- A number of at least one digit and at most `width`. -/
def upTo (width : Nat) (cs : Chars) : Option (Nat × Chars) :=
  let digits := (cs.take width).takeWhile Char.isDigit
  if digits.isEmpty then none else some (Numeral.value digits, cs.drop digits.length)

/-- A number of any length. -/
def unbounded (cs : Chars) : Option (Nat × Chars) := upTo cs.length cs

/-- Nanoseconds after a point; digits past the ninth count nothing. Without a point there are
none. -/
def fraction : Chars → Option (Nat × Chars)
  | '.' :: cs =>
    let digits := cs.takeWhile Char.isDigit
    if digits.isEmpty then none
    else some (Numeral.value ((digits ++ List.replicate 9 '0').take 9), cs.drop digits.length)
  | cs => some (0, cs)

/-- `Z`, or hours and minutes ahead of universal time with a sign; a minus may be U+2212. -/
def offset : Chars → Option (Int × Chars)
  | [] => none
  | c :: cs =>
    if c = 'Z' ∨ c = 'z' then some (0, cs)
    else if c = '+' ∨ c = '-' ∨ c = '−' then do
      let (hours, cs) ← exactly 2 cs
      let cs ← expect ':' cs
      let (minutes, cs) ← exactly 2 cs
      if hours ≤ 23 ∧ minutes ≤ 59 then
        let seconds : Int := hours * 3600 + minutes * 60
        some (if c = '+' then seconds else -seconds, cs)
      else none
    else none

def isDateTimeSeparator (c : Char) : Bool := c == 'T' || c == 't' || c == ' '

/-- RFC 3339: all numbers of their full width, and an offset at the end. -/
def rfc3339 (cs : Chars) : Option Instant := do
  let (year, cs) ← exactly 4 cs
  let cs ← expect '-' cs
  let (month, cs) ← exactly 2 cs
  let cs ← expect '-' cs
  let (day, cs) ← exactly 2 cs
  match cs with
  | [] => none
  | separator :: cs =>
    if isDateTimeSeparator separator then do
      let (hour, cs) ← exactly 2 cs
      let cs ← expect ':' cs
      let (minute, cs) ← exactly 2 cs
      let cs ← expect ':' cs
      let (second, cs) ← exactly 2 cs
      let (nano, cs) ← fraction cs
      let (offset, cs) ← offset cs
      if cs.isEmpty then ofClock? ⟨year, month, day⟩ ⟨hour, minute, second, nano⟩ offset else none
    else none

/-- A year of up to four digits, or of any number of them after a sign. -/
def year (cs : Chars) : Option (Int × Chars) :=
  match Text.trimStart cs with
  | '-' :: cs => do
    let (n, cs) ← unbounded cs
    some (-n, cs)
  | '+' :: cs => do
    let (n, cs) ← unbounded cs
    some (n, cs)
  | cs => do
    let (n, cs) ← upTo 4 cs
    some (n, cs)

/-- One or two digits, after any blanks. -/
def part (cs : Chars) : Option (Nat × Chars) := upTo 2 (Text.trimStart cs)

def date (cs : Chars) : Option (Date × Chars) := do
  let (year, cs) ← year cs
  let cs ← expect '-' cs
  let (month, cs) ← part cs
  let cs ← expect '-' cs
  let (day, cs) ← part cs
  some (⟨year, month, day⟩, cs)

def time (cs : Chars) : Option (ClockTime × Chars) := do
  let (hour, cs) ← part cs
  let cs ← expect ':' cs
  let (minute, cs) ← part cs
  let cs ← expect ':' cs
  let (second, cs) ← part cs
  let (nano, cs) ← fraction cs
  some (⟨hour, minute, second, nano⟩, cs)

/-- A date and a time of day, with any blanks between them, or none. -/
def spaced (cs : Chars) : Option Instant := do
  let (date, cs) ← date cs
  let (time, cs) ← time cs
  if cs.isEmpty then ofClock? date time 0 else none

/-- A date and a time of day, with a `T` between them. -/
def joined (cs : Chars) : Option Instant := do
  let (date, cs) ← date cs
  let cs ← expect 'T' cs
  let (time, cs) ← time cs
  if cs.isEmpty then ofClock? date time 0 else none

/-- A date alone stands for its midnight. -/
def dateOnly (cs : Chars) : Option Instant := do
  let (date, cs) ← date cs
  if cs.isEmpty then ofClock? date .midnight 0 else none

/-- The forms in turn, for a text without blanks around it. -/
def timestamp (cs : Chars) : Option Instant :=
  rfc3339 cs <|> spaced cs <|> joined cs <|> dateOnly cs

end Parser

/-- The instant of an RFC 3339 text, which may not have blanks around it. -/
def ofRfc3339? (s : String) : Option Instant := Parser.rfc3339 s.toList

/-- The instant of a timestamp in any of the forms, with or without blanks around it. -/
def ofText? (s : String) : Option Instant := Parser.timestamp (Text.trim s).toList

end CalendarRollup.Instant
