import CalendarRollup.Decimal.Numeral
import CalendarRollup.Json.Value

/-! Reading JSON texts: strict syntax, nothing after the value, at most `maxDepth` arrays and
objects inside one another. Every reader takes the characters ahead and gives back those it
leaves. -/
namespace CalendarRollup.Json.Parser

abbrev Chars := List Char

def maxDepth : Nat := 127

def isSpace (c : Char) : Bool := c == ' ' || c == '\t' || c == '\n' || c == '\r'

def skipSpace (cs : Chars) : Chars := cs.dropWhile isSpace

def hexValue? (c : Char) : Option Nat :=
  if '0' ≤ c ∧ c ≤ '9' then some (c.toNat - '0'.toNat)
  else if 'a' ≤ c ∧ c ≤ 'f' then some (c.toNat - 'a'.toNat + 10)
  else if 'A' ≤ c ∧ c ≤ 'F' then some (c.toNat - 'A'.toNat + 10)
  else none

/-- The four hexadecimal digits of an escape. -/
def hex4 : Chars → Option (Nat × Chars)
  | a :: b :: c :: d :: rest => do
    let a ← hexValue? a
    let b ← hexValue? b
    let c ← hexValue? c
    let d ← hexValue? d
    some (((a * 16 + b) * 16 + c) * 16 + d, rest)
  | _ => none

/-- The character of an escape, with the reader past its backslash. A leading surrogate needs its
trailing one; neither may stand alone. -/
def escaped : Chars → Option (Char × Chars)
  | '"' :: rest => some ('"', rest)
  | '\\' :: rest => some ('\\', rest)
  | '/' :: rest => some ('/', rest)
  | 'b' :: rest => some ('\x08', rest)
  | 'f' :: rest => some ('\x0c', rest)
  | 'n' :: rest => some ('\n', rest)
  | 'r' :: rest => some ('\r', rest)
  | 't' :: rest => some ('\t', rest)
  | 'u' :: rest => do
    let (unit, rest) ← hex4 rest
    if unit < 0xD800 ∨ 0xDFFF < unit then some (Char.ofNat unit, rest)
    else if 0xDC00 ≤ unit then none
    else match rest with
      | '\\' :: 'u' :: rest => do
        let (trail, rest) ← hex4 rest
        if 0xDC00 ≤ trail ∧ trail ≤ 0xDFFF then
          some (Char.ofNat (0x10000 + (unit - 0xD800) * 0x400 + (trail - 0xDC00)), rest)
        else none
      | _ => none
  | _ => none

/-- The rest of a string, with the reader past its opening quote. -/
def stringChars : Nat → Chars → Option (Chars × Chars)
  | 0, _ => none
  | fuel + 1, cs => match cs with
    | [] => none
    | '"' :: rest => some ([], rest)
    | '\\' :: rest => do
      let (c, rest) ← escaped rest
      let (s, rest) ← stringChars fuel rest
      some (c :: s, rest)
    | c :: rest =>
      if c.toNat < 0x20 then none
      else do
        let (s, rest) ← stringChars fuel rest
        some (c :: s, rest)

def string (cs : Chars) : Option (String × Chars) := do
  let (s, rest) ← stringChars cs.length cs
  some (String.ofList s, rest)

/-- The parts of a number as written. -/
structure Token where
  negative : Bool
  whole : Chars
  fraction : Option Chars
  /-- Whether the exponent is negative, and its digits. -/
  exponent : Option (Bool × Chars)

/-- A run of at least one digit. -/
def digits (cs : Chars) : Option (Chars × Chars) :=
  match cs.span Char.isDigit with
  | ([], _) => none
  | (ds, rest) => some (ds, rest)

/-- The whole part has no superfluous zero in front. -/
def wholePart : Chars → Option (Chars × Chars)
  | '0' :: rest => match rest with
    | c :: _ => if c.isDigit then none else some (['0'], rest)
    | [] => some (['0'], [])
  | cs => digits cs

def fractionPart : Chars → Option (Option Chars × Chars)
  | '.' :: rest => do
    let (ds, rest) ← digits rest
    some (some ds, rest)
  | cs => some (none, cs)

def exponentPart : Chars → Option (Option (Bool × Chars) × Chars)
  | c :: rest =>
    if c = 'e' ∨ c = 'E' then do
      let (negative, rest) := match rest with
        | '+' :: r => (false, r)
        | '-' :: r => (true, r)
        | r => (false, r)
      let (ds, rest) ← digits rest
      some (some (negative, ds), rest)
    else some (none, c :: rest)
  | [] => some (none, [])

def token (cs : Chars) : Option (Token × Chars) := do
  let (negative, cs) := match cs with
    | '-' :: rest => (true, rest)
    | cs => (false, cs)
  let (whole, cs) ← wholePart cs
  let (fraction, cs) ← fractionPart cs
  let (exponent, cs) ← exponentPart cs
  some (⟨negative, whole, fraction, exponent⟩, cs)

/-- Appends digits to a significand while it stays below `2 ^ 64`, and counts those it took. -/
def absorb (significand : Nat) : Chars → Nat × Nat
  | [] => (significand, 0)
  | c :: rest =>
    let next := significand * 10 + (c.toNat - '0'.toNat)
    if next < 18446744073709551616 then
      let (s, n) := absorb next rest
      (s, n + 1)
    else (significand, 0)

/-- The greatest power of ten that is within the range of a float. -/
def maxPower : Nat := 308

/-- Multiplies by a power of ten, or gives `none` past the largest number. -/
def scaleUp (x : Binary64) (k : Nat) : Option Binary64 :=
  if k ≤ maxPower then do x.mul (← Binary64.ofNat (Nat.pow 10 k))
  else if x.isZero then some x else none

/-- Divides by a power of ten, at most `10 ^ maxPower` at a time. -/
def scaleDown (x : Binary64) (k : Nat) : Option Binary64 :=
  if k ≤ maxPower then do x.div (← Binary64.ofNat (Nat.pow 10 k))
  else if x.isZero then some x
  else do
    let y ← x.div (← Binary64.ofNat (Nat.pow 10 maxPower))
    scaleDown y (k - maxPower)
termination_by k
decreasing_by
  rw [maxPower] at *
  omega

def scale (x : Binary64) (exponent : Int) : Option Binary64 :=
  if 0 ≤ exponent then scaleUp x exponent.natAbs else scaleDown x exponent.natAbs

/-- The significand as a float, scaled by the power of ten as a float: each of the two steps rounds,
so the result can miss the nearest float by a place. Digits past the significand's range are
dropped. -/
def Token.float (t : Token) : Option Binary64 := do
  let (s, takenWhole) := absorb 0 t.whole
  let (s, takenFraction) := absorb s (t.fraction.getD [])
  let shift : Int := (t.whole.length - takenWhole : Nat) - (takenFraction : Int)
  let exponent : Int := match t.exponent with
    | none => shift
    | some (true, ds) => shift - Numeral.value ds
    | some (false, ds) => shift + Numeral.value ds
  let x ← Binary64.ofNat s
  let y ← scale x exponent
  some (if t.negative then y.neg else y)

/-- A number without fraction and exponent is whole where the exact range holds it; `-0` is not. -/
def Token.value (t : Token) : Option Number :=
  let n := Numeral.value t.whole
  let i : Int := if t.negative then -n else n
  if t.fraction.isNone && t.exponent.isNone && !(t.negative && n == 0) then
    if h : IsExact i then some (.integer i h) else t.float.map .float
  else t.float.map .float

def number (cs : Chars) : Option (Json × Chars) := do
  let (t, rest) ← token cs
  let n ← t.value
  some (.number n, rest)

def keyword (word : Chars) (value : Json) (cs : Chars) : Option (Json × Chars) :=
  if word.isPrefixOf cs then some (value, cs.drop word.length) else none

/-- A key and the colon after it. -/
def key (cs : Chars) : Option (String × Chars) :=
  match skipSpace cs with
  | '"' :: rest => do
    let (k, rest) ← string rest
    match skipSpace rest with
    | ':' :: rest => some (k, rest)
    | _ => none
  | _ => none

mutual

/-- A value, after any blanks; `depth` more levels may open inside it. -/
def value : Nat → Nat → Chars → Option (Json × Chars)
  | 0, _, _ => none
  | fuel + 1, depth, cs => match skipSpace cs with
    | '[' :: rest => match depth with
      | 0 => none
      | depth + 1 => match skipSpace rest with
        | ']' :: rest => some (.array [], rest)
        | rest => do
          let (items, rest) ← items fuel depth rest
          some (.array items, rest)
    | '{' :: rest => match depth with
      | 0 => none
      | depth + 1 => do
        let (pairs, rest) ← pairs fuel depth rest
        some (.object (Members.ofPairs pairs), rest)
    | '"' :: rest => do
      let (s, rest) ← string rest
      some (.text s, rest)
    | 'n' :: rest => keyword ['u', 'l', 'l'] .null rest
    | 't' :: rest => keyword ['r', 'u', 'e'] (.bool true) rest
    | 'f' :: rest => keyword ['a', 'l', 's', 'e'] (.bool false) rest
    | cs => number cs

/-- One or more items, and the bracket that ends them. -/
def items : Nat → Nat → Chars → Option (List Json × Chars)
  | 0, _, _ => none
  | fuel + 1, depth, cs => do
    let (v, rest) ← value fuel depth cs
    match skipSpace rest with
    | ',' :: rest =>
      let (vs, rest) ← items fuel depth rest
      some (v :: vs, rest)
    | ']' :: rest => some ([v], rest)
    | _ => none

/-- The members of an object as written, with the reader past its opening brace. -/
def pairs : Nat → Nat → Chars → Option (List (String × Json) × Chars)
  | 0, _, _ => none
  | fuel + 1, depth, cs => match skipSpace cs with
    | '}' :: rest => some ([], rest)
    | cs => morePairs fuel depth cs

/-- One or more members, and the brace that ends them. -/
def morePairs : Nat → Nat → Chars → Option (List (String × Json) × Chars)
  | 0, _, _ => none
  | fuel + 1, depth, cs => do
    let (k, rest) ← key cs
    let (v, rest) ← value fuel depth rest
    match skipSpace rest with
    | ',' :: rest =>
      let (ps, rest) ← morePairs fuel depth rest
      some ((k, v) :: ps, rest)
    | '}' :: rest => some ([(k, v)], rest)
    | _ => none

end

/-- Each level of nesting and each element uses up characters, so this much never runs out. -/
def enoughFuel (cs : Chars) : Nat := 2 * cs.length + 2

/-- The members of a text that is one object, in the order written and with repetitions. -/
def objectPairs (cs : Chars) : Option (List (String × Json)) :=
  match skipSpace cs with
  | '{' :: rest => do
    let (ps, rest) ← pairs (enoughFuel cs) (maxDepth - 1) rest
    if (skipSpace rest).isEmpty then some ps else none
  | _ => none

def document (cs : Chars) : Option Json := do
  let (v, rest) ← value (enoughFuel cs) maxDepth cs
  if (skipSpace rest).isEmpty then some v else none

end Parser

/-- The value of a JSON text, or `none` where it is not one. -/
def parse? (s : String) : Option Json := Parser.document s.toList

end CalendarRollup.Json
