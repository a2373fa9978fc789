import CalendarRollup.Decimal.Shortest
import CalendarRollup.Json.Value

/-! The compact text of a JSON value: no blanks, members in order, floats by their shortest
decimal. -/
namespace CalendarRollup.Json

namespace Number

/-- The least and the greatest exponent of a leading digit that is written without an exponent. -/
def positional : Int × Int := (-5, 15)

/-- The text of `digits · 10 ^ exponent`: a point between digits where the leading digit's exponent
is in the positional range, and always a digit after it; else `d.dde±x`. -/
def decimalChars (d : Binary64.Decimal) : List Char :=
  let digits := Numeral.ofNat d.digits
  let lead : Int := d.exponent + digits.length - 1
  if positional.1 ≤ lead ∧ lead ≤ positional.2 then
    if 0 ≤ d.exponent then digits ++ List.replicate d.exponent.toNat '0' ++ ['.', '0']
    else if 0 ≤ lead then
      digits.take (lead.toNat + 1) ++ '.' :: digits.drop (lead.toNat + 1)
    else '0' :: '.' :: List.replicate (-lead - 1).toNat '0' ++ digits
  else
    let mantissa := match digits with
      | [] => []
      | [c] => [c]
      | c :: rest => c :: '.' :: rest
    mantissa ++ 'e' :: (if lead < 0 then '-' else '+') :: Numeral.ofNat lead.natAbs

def floatChars (x : Binary64) : List Char :=
  let magnitude := if x.isZero then ['0', '.', '0'] else decimalChars x.shortest
  if x.negative then '-' :: magnitude else magnitude

def chars : Number → List Char
  | .integer i _ => Numeral.ofInt i
  | .float x => floatChars x

end Number

def hexDigit (n : Nat) : Char := Nat.digitChar (n % 16)

/-- How a character stands inside a string: quotes, backslashes and control characters are
escaped, all others stand for themselves. -/
def escape (c : Char) : List Char :=
  match c with
  | '"' => ['\\', '"']
  | '\\' => ['\\', '\\']
  | '\x08' => ['\\', 'b']
  | '\x0c' => ['\\', 'f']
  | '\n' => ['\\', 'n']
  | '\r' => ['\\', 'r']
  | '\t' => ['\\', 't']
  | c =>
    if c.toNat < 0x20 then ['\\', 'u', '0', '0', hexDigit (c.toNat / 16), hexDigit c.toNat]
    else [c]

def quoted (s : String) : List Char := '"' :: s.toList.flatMap escape ++ ['"']

mutual

def chars : Json → List Char
  | .null => ['n', 'u', 'l', 'l']
  | .bool true => ['t', 'r', 'u', 'e']
  | .bool false => ['f', 'a', 'l', 's', 'e']
  | .number n => n.chars
  | .text s => quoted s
  | .array items => '[' :: itemsChars items ++ [']']
  | .object members => '{' :: membersChars members ++ ['}']

def itemsChars : List Json → List Char
  | [] => []
  | v :: rest => v.chars ++ moreItemsChars rest

def moreItemsChars : List Json → List Char
  | [] => []
  | v :: rest => ',' :: v.chars ++ moreItemsChars rest

def membersChars : List (String × Json) → List Char
  | [] => []
  | (k, v) :: rest => quoted k ++ ':' :: v.chars ++ moreMembersChars rest

def moreMembersChars : List (String × Json) → List Char
  | [] => []
  | (k, v) :: rest => ',' :: quoted k ++ ':' :: v.chars ++ moreMembersChars rest

end

/-- The compact text of a value. -/
def render (value : Json) : String := String.ofList value.chars

end CalendarRollup.Json
