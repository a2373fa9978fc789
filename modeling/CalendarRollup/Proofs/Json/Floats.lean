import CalendarRollup.Proofs.Decimal.Rounding
import CalendarRollup.Proofs.Json.Numbers

/-! The number that the reader gives for a numeral. It keeps the digits of a number below `2 ^ 64`,
and then rounds three times: this number, the power of ten that remains, and their product or
quotient. -/
namespace CalendarRollup.Json
open Binary64 (Nearest)
open Json.Parser (Chars Token maxPower)

/-- The longest beginning of some digits that leaves the number below `2 ^ 64`, behind those that
are kept already. -/
structure Keeps (before digits kept : Chars) : Prop where
  isPrefix : kept <+: digits
  fits : Numeral.value (before ++ kept) < 2 ^ 64
  longest : ∀ more, more <+: digits → Numeral.value (before ++ more) < 2 ^ 64 →
    more.length ≤ kept.length

/-- The number of the digits that are kept, and the power of ten of the last of them. A digit that
is dropped before the point is still a place. -/
inductive Significand (t : Token) : ℕ → ℤ → Prop
  | kept {whole fraction : Chars} (isWhole : Keeps [] t.whole whole)
    (isFraction : Keeps whole (t.fraction.getD []) fraction) :
    Significand t (Numeral.value (whole ++ fraction))
      (Token.exponentValue t.exponent + (t.whole.length - whole.length : ℕ) - fraction.length)

/-- A float times a power of ten, where the power is rounded before the product is. The greatest
power is `10 ^ maxPower`: division is repeated, and multiplication is not. -/
inductive Scaled : Binary64 → ℤ → Binary64 → Prop
  | up {x power y : Binary64} {k : ℕ} (within : k ≤ maxPower) (isPower : Nearest (10 ^ k) power)
    (product : Nearest (x.magnitude * power.magnitude) y) : Scaled x k y
  | down {x power y : Binary64} {k : ℕ} (within : k ≤ maxPower) (negative : 0 < k)
    (isPower : Nearest (10 ^ k) power) (quotient : Nearest (x.magnitude / power.magnitude) y) :
    Scaled x (-k) y
  | zero {x : Binary64} {k : ℤ} (beyond : maxPower < k.natAbs) (isZero : x.mantissa = 0) :
    Scaled x k x
  | further {x power y z : Binary64} {k : ℕ} (beyond : maxPower < k) (nonzero : x.mantissa ≠ 0)
    (isPower : Nearest (10 ^ maxPower) power) (quotient : Nearest (x.magnitude / power.magnitude) y)
    (rest : Scaled y (-(k - maxPower : ℕ)) z) : Scaled x (-k) z

/-- The float that a numeral is read as. -/
inductive ReadsFloat (t : Token) : Binary64 → Prop
  | scaled {s : ℕ} {k : ℤ} {start y : Binary64} (significand : Significand t s k)
    (isStart : Nearest s start) (scaled : Scaled start k y) :
    ReadsFloat t (if t.negative then y.neg else y)

/-- The number that a numeral is read as: a whole number in the exact range stays what it is, and
all others are read as floats. -/
def Denotes (t : Token) : Number → Prop
  | .integer i _ => t.integer? = some i
  | .float x => (∀ i, t.integer? = some i → ¬ IsExact i) ∧ ReadsFloat t x

/-- The digits that are kept are zero, or the power of ten divides, or it multiplies and stays below
the limit. -/
def InFloatRange (t : Token) : Prop := ∃ s k, Significand t s k ∧
  (s = 0 ∨ k < 0 ∨ k ≤ maxPower ∧ ∃ start power, Nearest s start ∧ Nearest (10 ^ k.toNat) power ∧
    start.magnitude * power.magnitude < Binary64.limit)

/-- The numerals that are read as numbers. -/
def InRange (t : Token) : Prop := (∃ i, t.integer? = some i ∧ IsExact i) ∨ InFloatRange t

section Digits
variable {before ds kept : Chars}

theorem Keeps.unique {other : Chars} (hkept : Keeps before ds kept)
    (hother : Keeps before ds other) : kept = other := by
  have hle := hkept.longest other hother.isPrefix hother.fits
  have hge := hother.longest kept hkept.isPrefix hkept.fits
  exact (List.prefix_of_prefix_length_le hkept.isPrefix hother.isPrefix hge).eq_of_length
    (Nat.le_antisymm hge hle)

theorem Keeps.nil (fits : Numeral.value before < 2 ^ 64) : Keeps before [] [] where
  isPrefix := List.nil_prefix
  fits := by rwa [List.append_nil]
  longest := fun more isPrefix _ => isPrefix.length_le

theorem Keeps.cons {c : Char} (keeps : Keeps (before ++ [c]) ds kept) :
    Keeps before (c :: ds) (c :: kept) where
  isPrefix := List.cons_prefix_cons.mpr ⟨rfl, keeps.isPrefix⟩
  fits := by simpa using keeps.fits
  longest := by
    intro more isPrefix fits
    cases more with
    | nil => exact Nat.zero_le _
    | cons d more =>
      obtain ⟨rfl, hmore⟩ := List.cons_prefix_cons.mp isPrefix
      exact Nat.succ_le_succ (keeps.longest more hmore (by simpa using fits))

/-- More digits never make a number less. -/
theorem value_le_append (high low : Chars) : Numeral.value high ≤ Numeral.value (high ++ low) := by
  rw [Numeral.value_append]
  exact Nat.le_add_right_of_le (Nat.le_mul_of_pos_right _ (Nat.pow_pos (by decide)))

theorem Keeps.stop {c : Char} (fits : Numeral.value before < 2 ^ 64)
    (beyond : 2 ^ 64 ≤ Numeral.value (before ++ [c])) : Keeps before (c :: ds) [] where
  isPrefix := List.nil_prefix
  fits := by rwa [List.append_nil]
  longest := by
    intro more isPrefix fits
    cases more with
    | nil => exact Nat.zero_le _
    | cons d more =>
      obtain ⟨rfl, _⟩ := List.cons_prefix_cons.mp isPrefix
      have hle := value_le_append (before ++ [d]) more
      rw [List.append_assoc, List.singleton_append] at hle
      exact absurd fits (Nat.not_lt.mpr (Nat.le_trans beyond hle))

theorem exists_absorb (ds : Chars) (fits : Numeral.value before < 2 ^ 64) :
    ∃ kept, Keeps before ds kept ∧
      Parser.absorb (Numeral.value before) ds = (Numeral.value (before ++ kept), kept.length) := by
  induction ds generalizing before with
  | nil => exact ⟨[], .nil fits, by rw [List.append_nil]; rfl⟩
  | cons c ds ih =>
    have hnext : Numeral.value before * 10 + (c.toNat - '0'.toNat) =
        Numeral.value (before ++ [c]) := by
      rw [Numeral.value_append, List.length_singleton, Nat.pow_one, Numeral.value,
        Numeral.value, Nat.ofDigitChars_cons, Nat.ofDigitChars_nil]
      omega
    rw [Parser.absorb]
    simp only [hnext]
    split
    next hsmall =>
      obtain ⟨kept, keeps, habsorb⟩ := ih hsmall
      refine ⟨c :: kept, keeps.cons, ?_⟩
      rw [habsorb, List.append_assoc]
      rfl
    next hlarge =>
      exact ⟨[], .stop fits (Nat.not_lt.mp hlarge), by rw [List.append_nil]; rfl⟩

end Digits

section Scales
variable {x y z : Binary64}

theorem maxPower_pos : 0 < maxPower := by decide

theorem power_lt_limit {k : ℕ} (within : k ≤ maxPower) : (10 : ℚ) ^ k < Binary64.limit := by
  have hgreatest : 10 ^ maxPower + 2 ^ 970 < 2 ^ 1024 := by decide +kernel
  have hcast : (10 : ℚ) ^ maxPower + 2 ^ 970 < 2 ^ 1024 := mod_cast hgreatest
  have hpower : (10 : ℚ) ^ k ≤ 10 ^ maxPower := pow_le_pow_right₀ (by norm_num) within
  exact hpower.trans_lt (lt_sub_iff_add_lt.mpr hcast)

theorem exists_power {k : ℕ} (within : k ≤ maxPower) : ∃ power, Nearest (10 ^ k) power :=
  (Binary64.exists_nearest_iff (by positivity)).mpr (power_lt_limit within)

theorem ofNat_pow_iff (k : ℕ) : Binary64.ofNat (Nat.pow 10 k) = some x ↔ Nearest (10 ^ k) x := by
  rw [Binary64.ofNat_eq_some_iff, Nat.pow_eq, Nat.cast_pow, Nat.cast_ofNat]

theorem isZero_iff : x.isZero = true ↔ x.mantissa = 0 := beq_iff_eq

theorem div_power_iff {k : ℕ} (isPower : Nearest (10 ^ k) z) :
    x.div z = some y ↔ Nearest (x.magnitude / z.magnitude) y :=
  Binary64.div_eq_some_iff (isPower.2.mantissa_ne_zero (one_le_pow₀ (by norm_num)))

theorem scaled_of_scaleUp {k : ℕ} (found : Parser.scaleUp x k = some y) : Scaled x k y := by
  unfold Parser.scaleUp at found
  split at found
  next within =>
    obtain ⟨power, hpower, hproduct⟩ := Option.bind_eq_some_iff.mp found
    exact .up within ((ofNat_pow_iff k).mp hpower) (Binary64.mul_eq_some_iff.mp hproduct)
  next beyond =>
    split at found
    next hzero =>
      cases found
      exact .zero (by omega) (isZero_iff.mp hzero)
    next => cases found

theorem scaled_of_scaleDown {k : ℕ} (negative : 0 < k) (found : Parser.scaleDown x k = some y) :
    Scaled x (-k) y := by
  induction k using Nat.strong_induction_on generalizing x with
  | _ k ih =>
    rw [Parser.scaleDown] at found
    split at found
    next within =>
      obtain ⟨power, hpower, hquotient⟩ := Option.bind_eq_some_iff.mp found
      have isPower := (ofNat_pow_iff k).mp hpower
      exact .down within negative isPower ((div_power_iff isPower).mp hquotient)
    next beyond =>
      split at found
      next hzero =>
        cases found
        exact .zero (by omega) (isZero_iff.mp hzero)
      next hnonzero =>
        obtain ⟨power, hpower, found⟩ := Option.bind_eq_some_iff.mp found
        obtain ⟨quotient, hquotient, found⟩ := Option.bind_eq_some_iff.mp found
        have isPower := (ofNat_pow_iff maxPower).mp hpower
        exact .further (by omega) (mt isZero_iff.mpr hnonzero) isPower
          ((div_power_iff isPower).mp hquotient)
          (ih (k - maxPower) (Nat.sub_lt negative maxPower_pos) (by omega) found)

theorem scale_of_scaled {k : ℤ} (scaled : Scaled x k y) : Parser.scale x k = some y := by
  induction scaled with
  | @up x power y k within isPower product =>
    rw [Parser.scale, if_pos (Int.natCast_nonneg k), Int.natAbs_natCast, Parser.scaleUp,
      if_pos within, (ofNat_pow_iff k).mpr isPower]
    exact Binary64.mul_eq_some_iff.mpr product
  | @down x power y k within negative isPower quotient =>
    rw [Parser.scale, if_neg (by omega), Int.natAbs_neg, Int.natAbs_natCast, Parser.scaleDown,
      if_pos within, (ofNat_pow_iff k).mpr isPower]
    exact (div_power_iff isPower).mpr quotient
  | zero beyond isZero =>
    have hzero := isZero_iff.mpr isZero
    unfold Parser.scale
    split
    next => rw [Parser.scaleUp, if_neg (Nat.not_le.mpr beyond), if_pos hzero]
    next => rw [Parser.scaleDown, if_neg (Nat.not_le.mpr beyond), if_pos hzero]
  | @further x power y z k beyond nonzero isPower quotient rest ih =>
    rw [Parser.scale, if_neg (by omega), Int.natAbs_neg, Int.natAbs_natCast] at ih ⊢
    rw [Parser.scaleDown, if_neg (by omega), if_neg (mt isZero_iff.mp nonzero)]
    refine Option.bind_eq_some_iff.mpr ⟨power, (ofNat_pow_iff maxPower).mpr isPower, ?_⟩
    exact Option.bind_eq_some_iff.mpr ⟨y, (div_power_iff isPower).mpr quotient, ih⟩

theorem scale_eq_some_iff {k : ℤ} : Parser.scale x k = some y ↔ Scaled x k y := by
  refine ⟨fun found => ?_, scale_of_scaled⟩
  unfold Parser.scale at found
  split at found
  next nonneg =>
    have scaled := scaled_of_scaleUp found
    rwa [Int.natAbs_of_nonneg nonneg] at scaled
  next negative =>
    have scaled := scaled_of_scaleDown (by omega) found
    rwa [Int.ofNat_natAbs_of_nonpos (by omega), neg_neg] at scaled

theorem exists_quotient {k : ℕ} (isPower : Nearest (10 ^ k) z) :
    ∃ y, Nearest (x.magnitude / z.magnitude) y := by
  have hone := isPower.2.one_le_magnitude (one_le_pow₀ (by norm_num))
  have hle : x.magnitude / z.magnitude ≤ x.magnitude := div_le_self x.magnitude_nonneg hone
  have hnonneg := div_nonneg x.magnitude_nonneg (zero_le_one.trans hone)
  exact (Binary64.exists_nearest_iff hnonneg).mpr (hle.trans_lt x.magnitude_lt_limit)

/-- Division by powers of ten always has a result. -/
theorem exists_scaled_neg (x : Binary64) {k : ℕ} (negative : 0 < k) : ∃ y, Scaled x (-k) y := by
  induction k using Nat.strong_induction_on generalizing x with
  | _ k ih =>
    by_cases hwithin : k ≤ maxPower
    · obtain ⟨power, isPower⟩ := exists_power hwithin
      obtain ⟨y, hquotient⟩ := exists_quotient (x := x) isPower
      exact ⟨y, .down hwithin negative isPower hquotient⟩
    · by_cases hzero : x.mantissa = 0
      · exact ⟨x, .zero (by omega) hzero⟩
      · obtain ⟨power, isPower⟩ := exists_power (le_refl maxPower)
        obtain ⟨y, hquotient⟩ := exists_quotient (x := x) isPower
        obtain ⟨z, scaled⟩ := ih (k - maxPower) (Nat.sub_lt negative maxPower_pos) y (by omega)
        exact ⟨z, .further (by omega) hzero isPower hquotient scaled⟩

/-- Multiplication has one up to the limit. -/
theorem exists_scaled_iff {k : ℤ} : (∃ y, Scaled x k y) ↔ x.mantissa = 0 ∨ k < 0 ∨ k ≤ maxPower ∧
    ∃ power, Nearest (10 ^ k.toNat) power ∧ x.magnitude * power.magnitude < Binary64.limit := by
  constructor
  · rintro ⟨y, scaled⟩
    cases scaled with
    | @up _ power _ k within isPower product =>
      exact .inr (.inr ⟨by omega, power, by simpa using isPower, product.2.lt_limit⟩)
    | down => exact .inr (.inl (by omega))
    | zero _ isZero => exact .inl isZero
    | further beyond => exact .inr (.inl (by omega))
  · intro reached
    rcases lt_or_ge k 0 with hnegative | hnonneg
    · obtain ⟨y, scaled⟩ := exists_scaled_neg x (k := k.natAbs) (by omega)
      rw [Int.ofNat_natAbs_of_nonpos (by omega), neg_neg] at scaled
      exact ⟨y, scaled⟩
    · obtain ⟨n, rfl⟩ := Int.eq_ofNat_of_zero_le hnonneg
      by_cases hwithin : n ≤ maxPower
      · obtain ⟨power, isPower⟩ := exists_power hwithin
        have hproduct : x.magnitude * power.magnitude < Binary64.limit := by
          rcases reached with hzero | hsmall | ⟨_, other, isOther, hless⟩
          · rw [Binary64.magnitude, hzero, Nat.cast_zero, zero_mul, zero_mul]
            exact Binary64.limit_pos
          · exact absurd hsmall (by omega)
          · rwa [isPower.unique isOther]
        obtain ⟨y, product⟩ := (Binary64.exists_nearest_iff
          (mul_nonneg x.magnitude_nonneg power.magnitude_nonneg)).mpr hproduct
        exact ⟨y, .up hwithin isPower product⟩
      · have hzero : x.mantissa = 0 := reached.resolve_right (by omega)
        exact ⟨x, .zero (by omega) hzero⟩

end Scales

/-! The whole numeral. -/

theorem Significand.unique {t : Token} {s s' : ℕ} {k k' : ℤ} (h : Significand t s k)
    (h' : Significand t s' k') : s = s' ∧ k = k' := by
  obtain ⟨isWhole, isFraction⟩ := h
  obtain ⟨isWhole', isFraction'⟩ := h'
  cases isWhole.unique isWhole'
  cases isFraction.unique isFraction'
  exact ⟨rfl, rfl⟩

theorem Significand.fits {t : Token} {s : ℕ} {k : ℤ} (significand : Significand t s k) :
    s < 2 ^ 64 := by
  obtain ⟨_, isFraction⟩ := significand
  exact isFraction.fits

theorem exists_start {t : Token} {s : ℕ} {k : ℤ} (significand : Significand t s k) :
    ∃ start, Nearest s start := by
  have hpower : 2 ^ 64 ≤ 10 ^ 20 := by decide
  have hless : (s : ℚ) < 10 ^ 20 := mod_cast Nat.lt_of_lt_of_le significand.fits hpower
  exact (Binary64.exists_nearest_iff (Nat.cast_nonneg s)).mpr
    (hless.trans (power_lt_limit (by decide)))

/-- The float of the digits is zero just where they are. -/
theorem mantissa_eq_zero_iff {s : ℕ} {start : Binary64} (isStart : Nearest s start) :
    start.mantissa = 0 ↔ s = 0 := by
  constructor
  · intro hzero
    by_contra hpositive
    exact isStart.2.mantissa_ne_zero (mod_cast Nat.pos_of_ne_zero hpositive) hzero
  · rintro rfl
    rw [Nat.cast_zero] at isStart
    rw [isStart.unique Binary64.nearest_zero]
    rfl

theorem float_eq (t : Token) : ∃ s k, Significand t s k ∧ t.float = (do
    let start ← Binary64.ofNat s
    let y ← Parser.scale start k
    some (if t.negative then y.neg else y)) := by
  have hstart : Numeral.value [] < 2 ^ 64 := by decide
  obtain ⟨whole, isWhole, hwhole⟩ := exists_absorb t.whole hstart
  obtain ⟨fraction, isFraction, hfraction⟩ :=
    exists_absorb (t.fraction.getD []) (by simpa using isWhole.fits)
  refine ⟨_, _, .kept isWhole isFraction, ?_⟩
  rw [Numeral.value_nil, List.nil_append] at hwhole
  have hplus (v w f : ℤ) : v + w - f = w - f + v := by omega
  have hminus (v w f : ℤ) : w - f + -v = w - f - v := by omega
  obtain ⟨negative, _, _, _ | ⟨_ | _, ds⟩⟩ := t <;>
    simp only [Token.float, Token.exponentValue, hwhole, hfraction, hplus, hminus, add_zero]

theorem float_eq_some_iff {t : Token} {x : Binary64} : t.float = some x ↔ ReadsFloat t x := by
  obtain ⟨s, k, significand, hfloat⟩ := float_eq t
  rw [hfloat]
  constructor
  · intro found
    obtain ⟨start, hstart, found⟩ := Option.bind_eq_some_iff.mp found
    obtain ⟨y, hy, found⟩ := Option.bind_eq_some_iff.mp found
    cases found
    exact .scaled significand (Binary64.ofNat_eq_some_iff.mp hstart) (scale_eq_some_iff.mp hy)
  · rintro @⟨_, _, start, y, other, isStart, scaled⟩
    obtain ⟨rfl, rfl⟩ := significand.unique other
    refine Option.bind_eq_some_iff.mpr ⟨start, Binary64.ofNat_eq_some_iff.mpr isStart, ?_⟩
    exact Option.bind_eq_some_iff.mpr ⟨y, scale_eq_some_iff.mpr scaled, rfl⟩

/-- A whole number in the exact range, and otherwise the float. -/
theorem value_eq (t : Token) : t.value = match t.integer? with
    | some i => if h : IsExact i then some (.integer i h) else t.float.map .float
    | none => t.float.map .float := by
  have htest : (t.fraction.isNone && t.exponent.isNone &&
      !(t.negative && Numeral.value t.whole == 0)) = true ↔ t.fraction = none ∧ t.exponent = none ∧
        ¬ (t.negative = true ∧ Numeral.value t.whole = 0) := by
    cases t.negative <;> simp [and_assoc]
  unfold Token.value Token.integer?
  simp only
  by_cases hwhole : t.fraction = none ∧ t.exponent = none ∧
      ¬ (t.negative = true ∧ Numeral.value t.whole = 0)
  · rw [if_pos (htest.mpr hwhole), if_pos hwhole]
  · rw [if_neg (mt htest.mp hwhole), if_neg hwhole]

/-- The reader gives the number that a numeral denotes. -/
theorem value_eq_some_iff {t : Token} {n : Number} : t.value = some n ↔ Denotes t n := by
  have hfloat {n : Number} : t.float.map .float = some n ↔ ∃ x, ReadsFloat t x ∧ .float x = n := by
    simp only [Option.map_eq_some_iff, float_eq_some_iff]
  rw [value_eq]
  cases hinteger : t.integer? with
  | none => cases n <;> simp [Denotes, hfloat, hinteger]
  | some i =>
    by_cases hexact : IsExact i
    · cases n <;> simp [Denotes, hexact, hinteger]
    · cases n with
      | integer j exact =>
        have hne : ¬ some i = some j := fun h => hexact (Option.some.inj h ▸ exact)
        simp [Denotes, hexact, hinteger, hfloat, hne]
      | float x => simp [Denotes, hexact, hinteger, hfloat]

theorem exists_readsFloat_iff {t : Token} : (∃ x, ReadsFloat t x) ↔ InFloatRange t := by
  constructor
  · rintro ⟨_, @⟨s, k, start, y, significand, isStart, scaled⟩⟩
    refine ⟨s, k, significand, ?_⟩
    rcases exists_scaled_iff.mp ⟨y, scaled⟩ with hzero | hnegative | ⟨within, power, isPower, hless⟩
    · exact .inl ((mantissa_eq_zero_iff isStart).mp hzero)
    · exact .inr (.inl hnegative)
    · exact .inr (.inr ⟨within, start, power, isStart, isPower, hless⟩)
  · rintro ⟨s, k, significand, reached⟩
    obtain ⟨start, isStart⟩ := exists_start significand
    obtain ⟨y, scaled⟩ : ∃ y, Scaled start k y := by
      refine exists_scaled_iff.mpr ?_
      rcases reached with hzero | hnegative | ⟨within, other, power, isOther, isPower, hless⟩
      · exact .inl ((mantissa_eq_zero_iff isStart).mpr hzero)
      · exact .inr (.inl hnegative)
      · exact .inr (.inr ⟨within, power, isPower, isStart.unique isOther ▸ hless⟩)
    exact ⟨_, .scaled significand isStart scaled⟩

/-- Only a numeral past the range of the floats is refused, as far as the digits that are kept
tell. -/
theorem exists_denotes_iff {t : Token} : (∃ n, Denotes t n) ↔ InRange t := by
  unfold InRange
  rw [← exists_readsFloat_iff]
  constructor
  · rintro ⟨n, denotes⟩
    cases n with
    | integer i exact => exact .inl ⟨i, denotes, exact⟩
    | float x => exact .inr ⟨x, denotes.2⟩
  · by_cases hexact : ∃ i, t.integer? = some i ∧ IsExact i
    · obtain ⟨i, hinteger, exact⟩ := hexact
      exact fun _ => ⟨.integer i exact, hinteger⟩
    · rintro (h | ⟨x, readsFloat⟩)
      · exact absurd h hexact
      · exact ⟨.float x, fun i hinteger exact => hexact ⟨i, hinteger, exact⟩, readsFloat⟩

/-- The roundings do not keep to the range: a numeral below the largest float is refused, and one
above it is read as this float. -/
example :
    Token.value ⟨false, "1797693134862315708".toList, none, some (false, "290".toList)⟩ = none ∧
    Token.value ⟨false, ['1'], some "79769313486231589".toList, some (false, "308".toList)⟩ =
      some (.float ⟨false, 9007199254740991, 971, by decide⟩) := by
  decide +kernel

end CalendarRollup.Json
