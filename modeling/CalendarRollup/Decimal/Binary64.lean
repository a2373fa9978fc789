/-! Finite binary floating-point numbers of 64 bits, and rounding to them: a quotient goes to the
nearest number, a tie to the one with an even mantissa. All arithmetic is exact, on naturals. -/
namespace CalendarRollup

namespace Binary64

/-- `2 ^ 52`, the least number of 53 binary digits. -/
def leastFull : Nat := 4503599627370496

/-- `2 ^ 53`, past the last number of 53 binary digits. -/
def pastFull : Nat := 9007199254740992

end Binary64

open Binary64 (leastFull pastFull) in
/-- The number `± mantissa · 2 ^ exponent`, each with one spelling. -/
structure Binary64 where
  negative : Bool
  mantissa : Nat
  exponent : Int
  canonical : mantissa < pastFull ∧ -1074 ≤ exponent ∧ exponent ≤ 971 ∧
    (leastFull ≤ mantissa ∨ exponent = -1074)
  deriving DecidableEq, Repr

namespace Binary64

def zero : Binary64 := ⟨false, 0, -1074, by decide⟩

instance : Inhabited Binary64 := ⟨zero⟩

def isZero (x : Binary64) : Bool := x.mantissa == 0

def neg (x : Binary64) : Binary64 := { x with negative := !x.negative }

/-- The magnitude as a numerator and a denominator. -/
def fraction (x : Binary64) : Nat × Nat :=
  (x.mantissa * Nat.pow 2 x.exponent.toNat, Nat.pow 2 (-x.exponent).toNat)

/-- `num / den` to the nearest whole number, a tie to the even one. -/
def roundDiv (num den : Nat) : Nat :=
  let q := num / den
  let r := num % den
  if 2 * r < den then q else if 2 * r = den ∧ q % 2 = 0 then q else q + 1

/-- The exponent at which `num / den` has 53 binary digits, or the least one there is. -/
def exponentFor (num den : Nat) : Int :=
  let e : Int := (num.log2 : Int) - (den.log2 : Int) - 52
  let e := if num * Nat.pow 2 (-e).toNat < den * Nat.pow 2 e.toNat * leastFull then e - 1 else e
  max e (-1074)

def assemble (mantissa : Nat) (exponent : Int) : Option Binary64 :=
  if h : mantissa < pastFull ∧ -1074 ≤ exponent ∧ exponent ≤ 971 ∧
      (leastFull ≤ mantissa ∨ exponent = -1074) then
    some ⟨false, mantissa, exponent, h⟩
  else none

/-- The number nearest to `num / den`, or `none` where that is past the largest one. -/
def ofRatio (num den : Nat) : Option Binary64 :=
  if num = 0 then some zero
  else
    let e := exponentFor num den
    let m := roundDiv (num * Nat.pow 2 (-e).toNat) (den * Nat.pow 2 e.toNat)
    if m = pastFull then assemble leastFull (e + 1) else assemble m e

def ofNat (n : Nat) : Option Binary64 := ofRatio n 1

/-- The product of two magnitudes. -/
def mul (x y : Binary64) : Option Binary64 :=
  ofRatio (x.fraction.1 * y.fraction.1) (x.fraction.2 * y.fraction.2)

/-- The quotient of two magnitudes. -/
def div (x y : Binary64) : Option Binary64 :=
  ofRatio (x.fraction.1 * y.fraction.2) (x.fraction.2 * y.fraction.1)

end Binary64
end CalendarRollup
