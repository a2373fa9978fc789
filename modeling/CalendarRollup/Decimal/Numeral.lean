/-! Whole numbers in decimal digits: of their natural length, or of a fixed width. -/
namespace CalendarRollup.Numeral

/-- The last decimal digit of `n`. -/
def digit (n : Nat) : Char := Nat.digitChar (n % 10)

/-- The last `width` digits of `n`, with zeros in front where `n` is shorter. -/
def fixed : Nat → Nat → List Char
  | 0, _ => []
  | width + 1, n => fixed width (n / 10) ++ [digit n]

@[simp] theorem length_fixed (width n : Nat) : (fixed width n).length = width := by
  induction width generalizing n with
  | zero => rfl
  | succ width ih => simp [fixed, ih]

/-- The digits of `n`, none of them superfluous. -/
def ofNat (n : Nat) : List Char := Nat.toDigits 10 n

/-- The digits of `n`, with zeros in front where there are fewer than `width`. -/
def padded (width n : Nat) : List Char :=
  let digits := ofNat n
  List.replicate (width - digits.length) '0' ++ digits

def ofInt (i : Int) : List Char :=
  if i < 0 then '-' :: ofNat i.natAbs else ofNat i.natAbs

/-- The number that a run of digits denotes; an empty run denotes zero. -/
def value (digits : List Char) : Nat := Nat.ofDigitChars 10 digits 0

@[simp] theorem value_ofNat (n : Nat) : value (ofNat n) = n :=
  Nat.ofDigitChars_toDigits (by decide) (by decide)

def text (n : Nat) : String := String.ofList (ofNat n)

def intText (i : Int) : String := String.ofList (ofInt i)

end CalendarRollup.Numeral
