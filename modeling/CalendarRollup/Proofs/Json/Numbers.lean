import CalendarRollup.Json.Printer
import CalendarRollup.Proofs.Decimal.Nearest
import CalendarRollup.Proofs.Json.Grammar

/-! Numbers and the numerals that stand for them, with floats rounded to the nearest: a numeral
stands for one number, and every number is written as a numeral that stands for it. -/
namespace CalendarRollup.Json
open Grammar
open Json.Parser (Chars Token)

namespace Parser.Token

def exponentValue : Option (Bool × Chars) → ℤ
  | none => 0
  | some (true, ds) => -(Numeral.value ds : ℤ)
  | some (false, ds) => Numeral.value ds

/-- The power of ten of the last digit. -/
def power (t : Token) : ℤ := exponentValue t.exponent - (t.fraction.getD []).length

def magnitude (t : Token) : ℚ := Numeral.value (t.whole ++ t.fraction.getD []) * 10 ^ t.power

/-- A numeral without fraction and exponent is a whole number; `-0` is not. -/
def integer? (t : Token) : Option Int :=
  let n := Numeral.value t.whole
  if t.fraction = none ∧ t.exponent = none ∧ ¬ (t.negative = true ∧ n = 0) then
    some (if t.negative then -n else n)
  else none

end Parser.Token

/-- Whole numbers in the exact range stay what they are; all other numerals stand for the nearest
float. -/
def StandsFor (t : Token) : Number → Prop
  | .integer i _ => t.integer? = some i
  | .float x => (∀ i, t.integer? = some i → ¬ IsExact i) ∧ x.negative = t.negative ∧
      x.Rounds t.magnitude

theorem StandsFor.unique {t : Token} {m n : Number} (hm : StandsFor t m) (hn : StandsFor t n) :
    m = n := by
  match m, n with
  | .integer i exact, .integer j _ =>
    cases Option.some.inj (hm.symm.trans hn)
    rfl
  | .integer i exact, .float x => exact absurd exact (hn.1 i hm)
  | .float x, .integer i exact => exact absurd exact (hm.1 i hn)
  | .float x, .float y =>
    obtain ⟨_, hxSign, hx⟩ := hm
    obtain ⟨_, hySign, hy⟩ := hn
    obtain ⟨hmantissa, hexponent⟩ := hx.unique hy
    cases x
    cases y
    cases hmantissa
    cases hexponent
    cases hxSign.trans hySign.symm
    rfl

theorem isDigits_ofNat (n : Nat) : IsDigits (Numeral.ofNat n) :=
  ⟨Nat.toDigits_ne_nil, fun _ h => Numeral.isDigit_of_mem_ofNat h⟩

theorem isWhole_of_head {cs : Chars} (digits : IsDigits cs) (head : cs.head? ≠ some '0') :
    IsWhole cs :=
  ⟨digits, fun h => absurd h head⟩

theorem isWhole_ofNat (n : Nat) : IsWhole (Numeral.ofNat n) := by
  by_cases hn : n = 0
  · subst hn
    exact ⟨isDigits_ofNat 0, fun _ => rfl⟩
  · exact isWhole_of_head (isDigits_ofNat n) (Numeral.head?_ofNat_ne hn)

theorem exists_token_integer (i : Int) :
    ∃ t, SpellsToken t (Numeral.ofInt i) ∧ t.integer? = some i := by
  unfold Numeral.ofInt
  split
  next hi =>
    refine ⟨⟨true, Numeral.ofNat i.natAbs, none, none⟩, ?_, ?_⟩
    · have spelled : SpellsToken ⟨true, Numeral.ofNat i.natAbs, none, none⟩ _ :=
        .parts (isWhole_ofNat i.natAbs) .absent .absent
      simpa using spelled
    · simp only [Token.integer?, Numeral.value_ofNat]
      rw [if_pos ⟨trivial, trivial, by omega⟩, if_pos trivial]
      congr 1
      omega
  next hi =>
    refine ⟨⟨false, Numeral.ofNat i.natAbs, none, none⟩, ?_, ?_⟩
    · have spelled : SpellsToken ⟨false, Numeral.ofNat i.natAbs, none, none⟩ _ :=
        .parts (isWhole_ofNat i.natAbs) .absent .absent
      simpa using spelled
    · simp only [Token.integer?, Numeral.value_ofNat]
      rw [if_pos ⟨trivial, trivial, by simp⟩, if_neg (by simp)]
      congr 1
      omega

/-- With or without a sign, the characters are a numeral of a magnitude that is no whole number. -/
def IsDecimal (cs : Chars) (q : ℚ) : Prop :=
  ∀ negative : Bool, ∃ t, SpellsToken t ((if negative then ['-'] else []) ++ cs) ∧
    t.negative = negative ∧ t.integer? = none ∧ t.magnitude = q

section Decimals
variable {d : Binary64.Decimal} {whole digits : Chars}

theorem isDecimal_of_parts {fraction : Option Chars} {exponent : Option (Bool × Chars)}
    {fractionCs exponentCs : Chars} {q : ℚ} (isWhole : IsWhole whole)
    (isFraction : SpellsFraction fraction fractionCs)
    (isExponent : SpellsExponent exponent exponentCs) (either : fraction ≠ none ∨ exponent ≠ none)
    (value : (Token.mk false whole fraction exponent).magnitude = q) :
    IsDecimal (whole ++ (fractionCs ++ exponentCs)) q := by
  refine fun negative => ⟨_, .parts isWhole isFraction isExponent, rfl, if_neg ?_, value⟩
  rintro ⟨hfraction, hexponent, _⟩
  exact either.elim (fun h => h hfraction) fun h => h hexponent

theorem isDecimal_point (isWhole : IsWhole whole) (isDigits : IsDigits digits) :
    IsDecimal (whole ++ '.' :: digits)
      (Numeral.value (whole ++ digits) * 10 ^ (-(digits.length : ℤ))) := by
  have hparts := isDecimal_of_parts isWhole (.point isDigits) .absent (.inl nofun) rfl
  rw [List.append_nil] at hparts
  simpa [Token.magnitude, Token.power, Token.exponentValue] using hparts

/-- A numeral with an exponent; the digits behind the point may be missing. -/
theorem isDecimal_exponent (isWhole : IsWhole whole) (all : ∀ c ∈ digits, c.isDigit = true)
    (lead : ℤ) :
    IsDecimal (whole ++ ((if digits = [] then [] else '.' :: digits) ++
        'e' :: (if lead < 0 then '-' else '+') :: Numeral.ofNat lead.natAbs))
      (Numeral.value (whole ++ digits) * 10 ^ (lead - digits.length)) := by
  have hexponent : SpellsExponent (some (decide (lead < 0), Numeral.ofNat lead.natAbs))
      ('e' :: (if lead < 0 then '-' else '+') :: Numeral.ofNat lead.natAbs) := by
    have signed : SpellsExponent (some (decide (lead < 0), Numeral.ofNat lead.natAbs)) _ :=
      .signed (.inl rfl) (isDigits_ofNat lead.natAbs)
    simpa using signed
  have hpower : Token.exponentValue (some (decide (lead < 0), Numeral.ofNat lead.natAbs)) = lead := by
    by_cases hlead : lead < 0
    · simp only [hlead, decide_true, Token.exponentValue, Numeral.value_ofNat]
      exact neg_eq_iff_eq_neg.mpr (Int.ofNat_natAbs_of_nonpos hlead.le)
    · simp only [hlead, decide_false, Token.exponentValue, Numeral.value_ofNat]
      exact Int.natAbs_of_nonneg (Int.not_lt.mp hlead)
  by_cases hnone : digits = []
  · subst hnone
    refine isDecimal_of_parts isWhole .absent hexponent (.inr nofun) ?_
    rw [Token.magnitude, Token.power, hpower]
    rfl
  · rw [if_neg hnone]
    refine isDecimal_of_parts isWhole (.point ⟨hnone, all⟩) hexponent (.inl nofun) ?_
    rw [Token.magnitude, Token.power, hpower]
    rfl

theorem isDigit_of_mem_zeros {n : ℕ} : ∀ c ∈ List.replicate n '0', c.isDigit = true := by
  intro c hc
  rw [List.eq_of_mem_replicate hc]
  decide

theorem value_zeros (n : ℕ) : Numeral.value (List.replicate n '0') = 0 := by
  simp [Numeral.value, Nat.ofDigitChars_replicate_zero]

/-- Zeros up to the point, and one behind it. -/
theorem isDecimal_zeros (isDigits : IsDigits digits) (head : digits.head? ≠ some '0') (n : ℕ) :
    IsDecimal (digits ++ List.replicate n '0' ++ ['.', '0'])
      (Numeral.value digits * 10 ^ (n : ℤ)) := by
  have hwhole : IsWhole (digits ++ List.replicate n '0') := by
    refine isWhole_of_head ⟨List.append_ne_nil_of_left_ne_nil isDigits.1 _, fun c hc => ?_⟩ ?_
    · exact (List.mem_append.mp hc).elim (isDigits.2 c) (isDigit_of_mem_zeros c)
    · rwa [List.head?_append_of_ne_nil _ isDigits.1]
  have hvalue : Numeral.value (digits ++ List.replicate n '0' ++ ['0']) =
      Numeral.value digits * 10 ^ (n + 1) := by
    rw [List.append_assoc, ← List.replicate_succ', Numeral.value_append, value_zeros,
      List.length_replicate, Nat.add_zero]
  have hpoint := isDecimal_point hwhole (isDigits_ofNat 0)
  have hscale : ((Numeral.value digits * 10 ^ (n + 1) : ℕ) : ℚ) * 10 ^ (-(1 : ℤ)) =
      Numeral.value digits * 10 ^ (n : ℤ) := by
    push_cast
    rw [zpow_neg, zpow_one, pow_succ, zpow_natCast]
    field_simp
  rw [← hscale, ← hvalue]
  exact hpoint

/-- A point between two digits. -/
theorem isDecimal_cut (count : ℕ) (isDigits : IsDigits digits) (head : digits.head? ≠ some '0')
    (positive : 0 < count) (inside : count < digits.length) :
    IsDecimal (digits.take count ++ '.' :: digits.drop count)
      (Numeral.value digits * 10 ^ ((count : ℤ) - digits.length)) := by
  have hwhole : IsWhole (digits.take count) := by
    refine isWhole_of_head ⟨?_, fun c hc => isDigits.2 c (List.mem_of_mem_take hc)⟩ ?_
    · exact List.length_pos_iff.mp (by rw [List.length_take]; omega)
    · rwa [List.head?_take, if_neg positive.ne']
  have hfraction : IsDigits (digits.drop count) := by
    refine ⟨?_, fun c hc => isDigits.2 c (List.mem_of_mem_drop hc)⟩
    exact List.length_pos_iff.mp (by rw [List.length_drop]; omega)
  have hpoint := isDecimal_point hwhole hfraction
  have hpower : -((digits.drop count).length : ℤ) = (count : ℤ) - digits.length := by
    rw [List.length_drop]
    omega
  rwa [List.take_append_drop, hpower] at hpoint

/-- Zeros behind the point. -/
theorem isDecimal_small (isDigits : IsDigits digits) (n : ℕ) :
    IsDecimal ('0' :: '.' :: List.replicate n '0' ++ digits)
      (Numeral.value digits * 10 ^ (-((n : ℤ) + digits.length))) := by
  have hfraction : IsDigits (List.replicate n '0' ++ digits) := by
    refine ⟨List.append_ne_nil_of_right_ne_nil _ isDigits.1, fun c hc => ?_⟩
    exact (List.mem_append.mp hc).elim (isDigit_of_mem_zeros c) (isDigits.2 c)
  have hvalue : Numeral.value (['0'] ++ (List.replicate n '0' ++ digits)) =
      Numeral.value digits := by
    rw [Numeral.value_append, Numeral.value_append, value_zeros, Nat.zero_mul, Nat.zero_add,
      show Numeral.value ['0'] = 0 from rfl, Nat.zero_mul, Nat.zero_add]
  have hpoint := isDecimal_point isWhole_zero hfraction
  rw [hvalue, List.length_append, List.length_replicate, Nat.cast_add] at hpoint
  exact hpoint

theorem isDecimal_decimalChars (nonzero : d.digits ≠ 0) :
    IsDecimal (Number.decimalChars d) d.toRat := by
  have hdigits := isDigits_ofNat d.digits
  have hhead := Numeral.head?_ofNat_ne nonzero
  have hvalue := Numeral.value_ofNat d.digits
  unfold Number.decimalChars Binary64.Decimal.toRat
  generalize Numeral.ofNat d.digits = digits at *
  have hlength : 0 < digits.length := List.length_pos_iff.mpr hdigits.1
  obtain ⟨lead, hlead⟩ : ∃ lead : ℤ, lead = d.exponent + digits.length - 1 := ⟨_, rfl⟩
  simp only [Number.positional, ← hlead, ← hvalue]
  by_cases hpositional : -5 ≤ lead ∧ lead ≤ 15
  · rw [if_pos hpositional]
    by_cases hwhole : 0 ≤ d.exponent
    · have hzeros := isDecimal_zeros hdigits hhead d.exponent.toNat
      rw [if_pos hwhole]
      rwa [Int.toNat_of_nonneg hwhole] at hzeros
    · rw [if_neg hwhole]
      by_cases hpoint : 0 ≤ lead
      · have hcut := isDecimal_cut (lead.toNat + 1) hdigits hhead (by omega) (by omega)
        have hpower : ((lead.toNat + 1 : ℕ) : ℤ) - digits.length = d.exponent := by omega
        rw [if_pos hpoint]
        rwa [hpower] at hcut
      · have hsmall := isDecimal_small hdigits (-lead - 1).toNat
        have hpower : -(((-lead - 1).toNat : ℤ) + digits.length) = d.exponent := by omega
        rw [if_neg hpoint]
        rwa [hpower] at hsmall
  · rw [if_neg hpositional]
    obtain ⟨c, rest, rfl⟩ := List.exists_cons_of_ne_nil hdigits.1
    have hwhole : IsWhole [c] :=
      isWhole_of_head ⟨nofun, fun e he => hdigits.2 e
        (List.mem_cons.mpr (.inl (List.mem_singleton.mp he)))⟩ hhead
    have hmantissa := isDecimal_exponent hwhole
      (fun e he => hdigits.2 e (List.mem_cons_of_mem _ he)) lead
    have hpower : lead - (rest.length : ℤ) = d.exponent := by
      rw [List.length_cons] at hlead
      omega
    rw [hpower] at hmantissa
    cases rest with
    | nil => simpa using hmantissa
    | cons e rest => simpa using hmantissa

end Decimals

theorem isDecimal_zero : IsDecimal ['0', '.', '0'] 0 := by
  have hpoint := isDecimal_point isWhole_zero (isDigits_ofNat 0)
  have hvalue : ((Numeral.value (['0'] ++ Numeral.ofNat 0) : ℕ) : ℚ) *
      10 ^ (-((Numeral.ofNat 0).length : ℤ)) = 0 := by
    rw [show Numeral.value (['0'] ++ Numeral.ofNat 0) = 0 from rfl, Nat.cast_zero, zero_mul]
  rw [hvalue] at hpoint
  exact hpoint

/-- Whatever a number is written as stands for it. -/
theorem exists_token (n : Number) : ∃ t, SpellsToken t n.chars ∧ StandsFor t n := by
  cases n with
  | integer i exact => exact exists_token_integer i
  | float x =>
    obtain ⟨q, hdecimal, hrounds⟩ : ∃ q, IsDecimal
        (if x.isZero then ['0', '.', '0'] else Number.decimalChars x.shortest) q ∧ x.Rounds q := by
      have isZero_iff : x.isZero = true ↔ x.mantissa = 0 := beq_iff_eq
      by_cases hzero : x.mantissa = 0
      · rw [if_pos (isZero_iff.mpr hzero)]
        exact ⟨0, isDecimal_zero, Binary64.rounds_zero hzero⟩
      · rw [if_neg (mt isZero_iff.mp hzero)]
        have hrounds := Binary64.rounds_shortest hzero
        exact ⟨_, isDecimal_decimalChars (hrounds.digits_ne_zero hzero), hrounds⟩
    obtain ⟨t, spelled, hsign, hinteger, hvalue⟩ := hdecimal x.negative
    refine ⟨t, ?_, fun i hi => absurd (hinteger.symm.trans hi) nofun, hsign.symm, hvalue ▸ hrounds⟩
    cases hx : x.negative <;> simpa [Number.chars, Number.floatChars, hx] using spelled

end CalendarRollup.Json
