import CalendarRollup.Decimal.Binary64
import CalendarRollup.Decimal.Numeral

/-! The shortest decimal of a binary floating-point number: of the decimals that round to the
number, one with the fewest digits, and of those the nearest. -/
namespace CalendarRollup.Binary64

/-- The decimal `digits · 10 ^ exponent`. -/
structure Decimal where
  digits : Nat
  exponent : Int
  deriving DecidableEq, Repr

/-- A number and the ends of the interval that rounds to it, over one denominator. -/
structure Neighbourhood where
  lower : Nat
  centre : Nat
  upper : Nat
  den : Nat
  closed : Bool

/-- The interval reaches half way to each neighbour; it holds its ends when the mantissa is even. -/
def neighbourhood (x : Binary64) : Neighbourhood :=
  let up := Nat.pow 2 (x.exponent - 2).toNat
  let below := if x.mantissa = leastFull ∧ -1074 < x.exponent then 1 else 2
  { lower := (4 * x.mantissa - below) * up
    centre := 4 * x.mantissa * up
    upper := (4 * x.mantissa + 2) * up
    den := Nat.pow 2 (2 - x.exponent).toNat
    closed := x.mantissa % 2 == 0 }

/-- Whether `digits · 10 ^ exponent` lies in the interval. -/
def Neighbourhood.holds (w : Neighbourhood) (d : Decimal) : Bool :=
  let scaled := d.digits * Nat.pow 10 d.exponent.toNat * w.den
  let unit := Nat.pow 10 (-d.exponent).toNat
  if w.closed then w.lower * unit ≤ scaled && scaled ≤ w.upper * unit
  else w.lower * unit < scaled && scaled < w.upper * unit

/-- The exponent of the leading decimal digit of `num / den`. -/
def leadingExponent (num den : Nat) : Int :=
  if den ≤ num then ((Numeral.ofNat (num / den)).length : Int) - 1
  else -((Numeral.ofNat ((den + num - 1) / num - 1)).length : Int)

/-- Of the two points around the number on the grid `10 ^ exponent`, the nearest that rounds to
it. -/
def Neighbourhood.onGrid (w : Neighbourhood) (exponent : Int) : Option Decimal :=
  let num := w.centre * Nat.pow 10 (-exponent).toNat
  let den := w.den * Nat.pow 10 exponent.toNat
  let low : Decimal := ⟨num / den, exponent⟩
  let high : Decimal := ⟨num / den + 1, exponent⟩
  let nearLow := Binary64.roundDiv num den == num / den
  match w.holds low, w.holds high with
  | true, true => some (if nearLow then low else high)
  | true, false => some low
  | false, true => some high
  | false, false => none

/-- The coarsest grid that has a point, from the power of ten above the number down to seventeen
digits. -/
def shortest (x : Binary64) : Decimal :=
  if x.isZero then ⟨0, 0⟩
  else
    let w := x.neighbourhood
    let lead := leadingExponent w.centre w.den
    ((List.range 18).findSome? fun k : Nat => w.onGrid (lead + 1 - (k : Int))).getD ⟨w.centre, 0⟩

end CalendarRollup.Binary64
