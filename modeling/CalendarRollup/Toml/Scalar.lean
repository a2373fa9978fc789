import CalendarRollup.Config.Setting
import CalendarRollup.Decimal.Numeral
import CalendarRollup.Instant.Parser
import CalendarRollup.Toml.Text

/-! Numbers, truth values and times in TOML. What a setting cannot be is only recognized: fractions
and truth values are not told apart, and a time counts as a table with one entry. -/
namespace CalendarRollup.Toml

/-- Digits, with single underscores between them. -/
def digitsAfter (isDigit : Char → Bool) : Chars → Option (Chars × Chars)
  | '_' :: c :: rest =>
    if isDigit c then do
      let (ds, rest) ← digitsAfter isDigit rest
      some (c :: ds, rest)
    else none
  | c :: rest =>
    if isDigit c then do
      let (ds, rest) ← digitsAfter isDigit rest
      some (c :: ds, rest)
    else if c = '_' then none
    else some ([], c :: rest)
  | [] => some ([], [])

/-- At least one digit. -/
def digits (isDigit : Char → Bool) : Chars → Option (Chars × Chars)
  | c :: rest =>
    if isDigit c then do
      let (ds, rest) ← digitsAfter isDigit rest
      some (c :: ds, rest)
    else none
  | [] => none

/-- A sign, and whether it is a minus. -/
def sign : Chars → Bool × Chars
  | '-' :: rest => (true, rest)
  | '+' :: rest => (false, rest)
  | cs => (false, cs)

/-- The whole part of a number, without superfluous zeros in front. -/
def wholeDigits : Chars → Option (Chars × Chars)
  | '0' :: rest => some (['0'], rest)
  | cs => digits Char.isDigit cs

/-- A whole number that 64 bits hold with a sign. -/
def inRange (i : Int) : Option Setting :=
  if -9223372036854775808 ≤ i ∧ i < 9223372036854775808 then some (.integer i) else none

/-- A number in another base, whose digits are given. -/
def based (base : Nat) (isDigit : Char → Bool) (cs : Chars) : Option (Setting × Chars) := do
  let (ds, rest) ← digits isDigit cs
  let values ← ds.mapM Json.Parser.hexValue?
  some (← inRange (values.foldl (fun n v => n * base + v) 0 : Nat), rest)

/-- A whole number, in decimal or with the mark of another base. -/
def integer : Chars → Option (Setting × Chars)
  | '0' :: 'x' :: rest => based 16 (fun c => (Json.Parser.hexValue? c).isSome) rest
  | '0' :: 'o' :: rest => based 8 (fun c => '0' ≤ c && c ≤ '7') rest
  | '0' :: 'b' :: rest => based 2 (fun c => c == '0' || c == '1') rest
  | cs => do
    let (negative, cs) := sign cs
    let (ds, rest) ← wholeDigits cs
    let n : Int := Numeral.value ds
    some (← inRange (if negative then -n else n), rest)

/-- Whether a number with these digits, times `10 ^ exponent`, is past the largest number of binary
floating point by half a step or more. -/
def overflows (digits : Chars) (exponent : Int) : Bool :=
  let n := Numeral.value digits
  let bound := (Nat.pow 2 54 - 1) * Nat.pow 2 970
  if n = 0 then false
  else if 0 ≤ exponent then 400 < exponent || bound ≤ n * Nat.pow 10 exponent.toNat
  else exponent.natAbs < digits.length && bound ≤ n / Nat.pow 10 exponent.natAbs

def exponent : Chars → Option (Option Int × Chars)
  | c :: rest =>
    if c = 'e' ∨ c = 'E' then do
      let (negative, rest) := sign rest
      let (ds, rest) ← digits Char.isDigit rest
      let n : Int := Numeral.value ds
      some (some (if negative then -n else n), rest)
    else some (none, c :: rest)
  | [] => some (none, [])

/-- A number with a fraction or an exponent. One that is too large is refused, unless it is
negative. -/
def fraction (cs : Chars) : Option (Setting × Chars) := do
  let (negative, cs) := sign cs
  let (whole, rest) ← wholeDigits cs
  let (part, rest) ← match rest with
    | '.' :: rest => digits Char.isDigit rest
    | rest => some ([], rest)
  let (power, rest) ← exponent rest
  if part.isEmpty && power.isNone then none
  else if !negative && overflows (whole ++ part) (power.getD 0 - part.length) then none
  else some (.other, rest)

def keyword (word : Chars) (cs : Chars) : Option (Setting × Chars) :=
  if word.isPrefixOf cs then some (.other, cs.drop word.length) else none

/-- Infinity and the undefined number, with or without a sign. -/
def special (cs : Chars) : Option (Setting × Chars) :=
  let (_, cs) := sign cs
  keyword ['i', 'n', 'f'] cs <|> keyword ['n', 'a', 'n'] cs

open Instant.Parser (exactly expect) in
/-- A date, with all its digits. -/
def date (cs : Chars) : Option Chars := do
  let (year, cs) ← exactly 4 cs
  let cs ← expect '-' cs
  let (month, cs) ← exactly 2 cs
  let cs ← expect '-' cs
  let (day, cs) ← exactly 2 cs
  if (Date.mk year month day).IsValid then some cs else none

open Instant.Parser (exactly expect) in
/-- A time of day, with all its digits; a second may be a leap second. -/
def time (cs : Chars) : Option Chars := do
  let (hour, cs) ← exactly 2 cs
  let cs ← expect ':' cs
  let (minute, cs) ← exactly 2 cs
  let cs ← expect ':' cs
  let (second, cs) ← exactly 2 cs
  let (_, cs) ← Instant.Parser.fraction cs
  if (ClockTime.mk hour minute second 0).IsValid then some cs else none

open Instant.Parser (exactly expect) in
def offset : Chars → Option Chars
  | [] => none
  | c :: cs =>
    if c = 'Z' ∨ c = 'z' then some cs
    else if c = '+' ∨ c = '-' then do
      let (hours, cs) ← exactly 2 cs
      let cs ← expect ':' cs
      let (minutes, cs) ← exactly 2 cs
      if hours ≤ 23 ∧ minutes ≤ 59 then some cs else none
    else none

/-- What follows a date: a time of day with or without an offset, or nothing. -/
def timeAfterDate (cs : Chars) : Chars :=
  match cs with
  | [] => []
  | separator :: rest =>
    if Instant.Parser.isDateTimeSeparator separator then
      match time rest with
      | some rest => (offset rest).getD rest
      | none => cs
    else cs

/-- A date, a time of day, or both. -/
def moment (cs : Chars) : Option (Setting × Chars) := do
  let rest ← (date cs).map timeAfterDate <|> time cs
  let written := cs.take (cs.length - rest.length)
  some (.table [("time", .text (String.ofList written))], rest)

/-- A number, truth value or time. -/
def scalar (cs : Chars) : Option (Setting × Chars) :=
  keyword ['t', 'r', 'u', 'e'] cs <|> keyword ['f', 'a', 'l', 's', 'e'] cs <|> special cs <|>
    moment cs <|> fraction cs <|> integer cs

end CalendarRollup.Toml
