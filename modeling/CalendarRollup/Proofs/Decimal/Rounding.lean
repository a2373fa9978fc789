import Mathlib.Tactic.NormNum
import CalendarRollup.Proofs.Decimal.Nearest

/-! Rounding a quotient gives the float nearest to it, and nothing just where the quotient lies half
a place past the largest float, or further. -/
namespace CalendarRollup.Binary64

/-- A float that is nearest to a number, a tie going to the even mantissa. -/
def Nearest (q : ℚ) (x : Binary64) : Prop := x.negative = false ∧ x.Rounds q

/-- Half a place past the largest float. -/
def limit : ℚ := 2 ^ 1024 - 2 ^ 970

theorem Nearest.unique {q : ℚ} {x y : Binary64} (hx : Nearest q x) (hy : Nearest q y) : x = y := by
  obtain ⟨hmantissa, hexponent⟩ := hx.2.unique hy.2
  cases x
  cases y
  cases hx.1
  cases hy.1
  cases hmantissa
  cases hexponent
  rfl

theorem nearest_zero : Nearest 0 zero := ⟨rfl, rounds_zero rfl⟩

/-- The whole numbers nearest to a number, just half way only the even one. -/
def NearestNat (r : ℚ) (m : ℕ) : Prop :=
  if m % 2 = 0 then m - 1 / 2 ≤ r ∧ r ≤ m + 1 / 2 else m - 1 / 2 < r ∧ r < m + 1 / 2

section Whole
variable {r : ℚ} {m : ℕ}

theorem NearestNat.bounds (near : NearestNat r m) : m - 1 / 2 ≤ r ∧ r ≤ m + 1 / 2 := by
  unfold NearestNat at near
  split at near
  next => exact near
  next => exact ⟨near.1.le, near.2.le⟩

theorem nearestNat_roundDiv {num den : ℕ} (hden : 0 < den) :
    NearestNat (num / den) (roundDiv num den) := by
  have hpos : (0 : ℚ) < den := mod_cast hden
  have hsplit : (num : ℚ) = den * (num / den : ℕ) + (num % den : ℕ) :=
    mod_cast (Nat.div_add_mod num den).symm
  have hrest : ((num % den : ℕ) : ℚ) < den := mod_cast Nat.mod_lt num hden
  have hrest' : (0 : ℚ) ≤ (num % den : ℕ) := Nat.cast_nonneg _
  have hratio : (num : ℚ) / den = (num / den : ℕ) + (num % den : ℕ) / den := by
    rw [hsplit]
    field_simp
  unfold roundDiv NearestNat
  simp only [hratio]
  generalize num / den = q at *
  generalize num % den = r at *
  split
  next hless =>
    have hhalf : (r : ℚ) / den < 1 / 2 := by
      rw [div_lt_div_iff₀ hpos (by norm_num)]
      exact_mod_cast (by omega : r * 2 < 1 * den)
    have hleast : (0 : ℚ) ≤ r / den := by positivity
    split <;> constructor <;> linarith
  next hmore =>
    split
    next htie =>
      have hhalf : (r : ℚ) / den = 1 / 2 := by
        rw [div_eq_div_iff hpos.ne' (by norm_num)]
        exact_mod_cast (by omega : r * 2 = 1 * den)
      rw [if_pos htie.2, hhalf]
      constructor <;> linarith
    next hnot =>
      have hhalf : 1 / 2 ≤ (r : ℚ) / den := by
        rw [div_le_div_iff₀ (by norm_num) hpos]
        exact_mod_cast (by omega : 1 * den ≤ r * 2)
      have hless : (r : ℚ) / den < 1 := (div_lt_one hpos).mpr hrest
      push_cast
      split
      next => constructor <;> linarith
      next hodd =>
        have hne : (r : ℚ) / den ≠ 1 / 2 := by
          intro h
          rw [div_eq_div_iff hpos.ne' (by norm_num)] at h
          have htie : r * 2 = 1 * den := mod_cast h
          omega
        have hstrict := lt_of_le_of_ne hhalf hne.symm
        constructor <;> linarith

end Whole

variable {x : Binary64} {num den : ℕ}

/-- A number counted in places of a float rounds to it where the count rounds to the mantissa; the
float at the bottom of a binade reaches less far down, so there the count may not fall short. -/
theorem rounds_of_nearestNat {r : ℚ} (near : NearestNat r x.mantissa) (nonneg : 0 ≤ r)
    (reached : x.mantissa = leastFull → -1074 < x.exponent → x.mantissa ≤ r) :
    x.Rounds (r * 2 ^ x.exponent) := by
  have hquarter := x.quarter_pos
  rw [zpow_exponent]
  unfold NearestNat at near
  unfold Rounds
  have hupper := x.upperEnd_eq
  rw [magnitude_eq] at hupper
  split
  next heven =>
    rw [if_pos heven] at near
    constructor
    · by_cases hzero : x.mantissa = 0
      · rw [lowerEnd, hzero]
        simp only [Nat.mul_zero, Nat.zero_sub, Nat.cast_zero, zero_mul]
        positivity
      · rw [lowerEnd_eq hzero, magnitude_eq]
        unfold below
        split
        next h =>
          have hr := reached h.1 h.2
          nlinarith
        next =>
          push_cast
          nlinarith [near.1]
    · nlinarith [near.2]
  next hodd =>
    rw [if_neg hodd] at near
    have hbelow : x.below = 2 := if_neg fun h => hodd (by rw [h.1, leastFull])
    rw [lowerEnd_eq (fun h => hodd (by rw [h])), magnitude_eq, hbelow]
    push_cast
    exact ⟨by nlinarith [near.1], by nlinarith [near.2]⟩

/-! The exponent of the quotient. -/

theorem scaled_ratio (num den : ℕ) (e : ℤ) :
    ((num * Nat.pow 2 (-e).toNat : ℕ) : ℚ) / (den * Nat.pow 2 e.toNat : ℕ) = num / den / 2 ^ e := by
  rw [zpow_eq_div (b := 2) (by norm_num)]
  simp only [Nat.pow_eq]
  push_cast
  field_simp

theorem scaled_lt_iff (hden : 0 < den) (e : ℤ) :
    num * Nat.pow 2 (-e).toNat < den * Nat.pow 2 e.toNat * leastFull ↔
      (num : ℚ) / den / 2 ^ e < 2 ^ 52 := by
  have hpos : 0 < den * Nat.pow 2 e.toNat := Nat.mul_pos hden (Nat.pow_pos (by decide))
  rw [← scaled_ratio, div_lt_iff₀ (mod_cast hpos), mul_comm ((2 : ℚ) ^ 52)]
  norm_cast

theorem log2_bounds {n : ℕ} (hn : 0 < n) :
    (2 : ℚ) ^ (n.log2 : ℤ) ≤ n ∧ (n : ℚ) < 2 * 2 ^ (n.log2 : ℤ) := by
  rw [zpow_natCast, ← pow_succ']
  exact ⟨mod_cast Nat.log2_self_le hn.ne', mod_cast Nat.lt_log2_self⟩

/-- The quotient counted in places has 53 binary digits, or fewer at the least exponent there is. -/
theorem exponentFor_spec (hnum : 0 < num) (hden : 0 < den) :
    -1074 ≤ exponentFor num den ∧ (num : ℚ) / den / 2 ^ exponentFor num den < 2 ^ 53 ∧
      (2 ^ 52 ≤ (num : ℚ) / den / 2 ^ exponentFor num den ∨ exponentFor num den = -1074) := by
  obtain ⟨e, he⟩ : ∃ e, e = (num.log2 : ℤ) - den.log2 - 52 := ⟨_, rfl⟩
  have htwo : (0 : ℚ) < 2 := by norm_num
  have hpow (k : ℤ) : (0 : ℚ) < 2 ^ k := zpow_pos htwo k
  obtain ⟨hnumLow, hnumHigh⟩ := log2_bounds hnum
  obtain ⟨hdenLow, hdenHigh⟩ := log2_bounds hden
  have hden' : (0 : ℚ) < den := mod_cast hden
  have hplaces : (2 : ℚ) ^ (num.log2 : ℤ) = 2 ^ 52 * 2 ^ e * 2 ^ (den.log2 : ℤ) := by
    rw [← zpow_natCast (2 : ℚ) 52, ← zpow_add₀ htwo.ne', ← zpow_add₀ htwo.ne', he]
    congr 1
    push_cast
    ring
  have hhigh : (num : ℚ) / den / 2 ^ e < 2 ^ 53 := by
    rw [div_div, div_lt_iff₀ (mul_pos hden' (hpow e))]
    nlinarith [mul_le_mul_of_nonneg_left hdenLow (hpow e).le]
  have hlow : 2 ^ 51 < (num : ℚ) / den / 2 ^ e := by
    rw [div_div, lt_div_iff₀ (mul_pos hden' (hpow e))]
    nlinarith [mul_lt_mul_of_pos_left hdenHigh (hpow e)]
  obtain ⟨f, hf, hfHigh, hfLow⟩ : ∃ f, exponentFor num den = max f (-1074) ∧
      (num : ℚ) / den / 2 ^ f < 2 ^ 53 ∧ 2 ^ 52 ≤ (num : ℚ) / den / 2 ^ f := by
    by_cases hless : (num : ℚ) / den / 2 ^ e < 2 ^ 52
    · have hhalf : (num : ℚ) / den / 2 ^ (e - 1) = 2 * (num / den / 2 ^ e) := by
        rw [zpow_sub_one₀ htwo.ne']
        field_simp
      refine ⟨e - 1, ?_, by rw [hhalf]; linarith, by rw [hhalf]; linarith⟩
      rw [exponentFor, ← he, if_pos ((scaled_lt_iff hden e).mpr hless)]
    · refine ⟨e, ?_, hhigh, le_of_not_gt hless⟩
      rw [exponentFor, ← he, if_neg (mt (scaled_lt_iff hden e).mp hless)]
  rw [hf]
  rcases le_total (-1074) f with hle | hle
  · rw [max_eq_left hle]
    exact ⟨hle, hfHigh, .inl hfLow⟩
  · rw [max_eq_right hle]
    refine ⟨le_rfl, lt_of_le_of_lt ?_ hfHigh, .inr rfl⟩
    exact div_le_div_of_nonneg_left (by positivity) (hpow f)
      (zpow_le_zpow_right₀ (by norm_num) hle)

/-- What rounds up to one binary digit more rounds to the bottom of the next binade. -/
theorem rounds_of_carry {r : ℚ} {e : ℤ} (near : NearestNat r pastFull) (short : r < 2 ^ 53)
    (least : -1074 ≤ e) (mantissa : x.mantissa = leastFull) (exponent : x.exponent = e + 1) :
    x.Rounds (r * 2 ^ e) := by
  have hquarter := x.quarter_pos
  have hplace : (2 : ℚ) ^ e = 2 * x.quarter := by
    have hdouble := x.zpow_exponent
    rw [exponent, zpow_add_one₀ (by norm_num)] at hdouble
    linarith
  have hbelow : x.below = 1 := if_pos ⟨mantissa, by omega⟩
  have hnonzero : x.mantissa ≠ 0 := by
    rw [mantissa]
    decide
  have hlow := near.bounds.1
  have heven : x.mantissa % 2 = 0 := by
    rw [mantissa]
    decide
  rw [Rounds, if_pos heven, lowerEnd_eq hnonzero, upperEnd_eq, magnitude_eq, hbelow, mantissa,
    hplace]
  rw [pastFull] at hlow
  rw [leastFull]
  push_cast at hlow ⊢
  constructor <;> nlinarith

theorem limit_eq : limit = (2 ^ 53 - 1 / 2) * 2 ^ (971 : ℤ) := by
  have hlarge : (2 : ℚ) ^ 1024 = 2 ^ 53 * (2 * 2 ^ 970) := by
    rw [← pow_succ', ← pow_add]
  rw [limit, hlarge, show (971 : ℤ) = (971 : ℕ) from rfl, zpow_natCast, pow_succ' 2 970]
  generalize (2 : ℚ) ^ 970 = half
  ring

theorem limit_pos : 0 < limit := by
  rw [limit_eq]
  exact mul_pos (by norm_num) (zpow_pos (by norm_num) _)

theorem limit_le_of_exponent {r : ℚ} {e : ℤ} (full : 2 ^ 53 - 1 / 2 ≤ r) (large : 971 ≤ e) :
    limit ≤ r * 2 ^ e := by
  rw [limit_eq]
  exact mul_le_mul full (zpow_le_zpow_right₀ (by norm_num) large) (zpow_pos (by norm_num) _).le
    (by linarith)

theorem eq_of_assemble {mantissa : ℕ} {exponent : ℤ} (found : assemble mantissa exponent = some x) :
    x.negative = false ∧ x.mantissa = mantissa ∧ x.exponent = exponent := by
  unfold assemble at found
  split at found
  next =>
    cases found
    exact ⟨rfl, rfl, rfl⟩
  next => cases found

/-- Parts of the right size make a float, up to the largest exponent. -/
theorem lt_of_assemble_eq_none {mantissa : ℕ} {exponent : ℤ} (small : mantissa < pastFull)
    (least : -1074 ≤ exponent) (full : leastFull ≤ mantissa ∨ exponent = -1074)
    (missing : assemble mantissa exponent = none) : 971 < exponent := by
  unfold assemble at missing
  split at missing
  next => cases missing
  next hnot => exact lt_of_not_ge fun hle => hnot ⟨small, least, hle, full⟩

/-- A quotient counted in places, and its rounded count. -/
theorem assemble_spec {r : ℚ} {e : ℤ} {m : ℕ} (near : NearestNat r m) (nonneg : 0 ≤ r)
    (least : -1074 ≤ e) (short : r < 2 ^ 53) (full : 2 ^ 52 ≤ r ∨ e = -1074) :
    (∀ x, (if m = pastFull then assemble leastFull (e + 1) else assemble m e) = some x →
        Nearest (r * 2 ^ e) x) ∧
      ((if m = pastFull then assemble leastFull (e + 1) else assemble m e) = none →
        limit ≤ r * 2 ^ e) := by
  have hbounds := near.bounds
  by_cases hcarry : m = pastFull
  · rw [if_pos hcarry]
    subst hcarry
    refine ⟨fun x found => ?_, fun missing => ?_⟩
    · obtain ⟨hsign, hmantissa, hexponent⟩ := eq_of_assemble found
      exact ⟨hsign, rounds_of_carry near short least hmantissa hexponent⟩
    · have hlarge := lt_of_assemble_eq_none (by decide) (by omega) (.inl (le_refl _)) missing
      rw [pastFull] at hbounds
      exact limit_le_of_exponent (by linarith [hbounds.1]) (by omega)
  · rw [if_neg hcarry]
    have hsmall : m < pastFull := by
      have hless : (m : ℚ) < (pastFull + 1 : ℕ) := by
        rw [pastFull]
        push_cast
        linarith
      have := Nat.cast_lt.mp hless
      omega
    have hfull : leastFull ≤ m ∨ e = -1074 := by
      refine full.imp_left fun hfull => ?_
      have hless : ((leastFull : ℕ) : ℚ) < (m + 1 : ℕ) := by
        rw [leastFull]
        push_cast
        linarith
      exact Nat.lt_succ_iff.mp (Nat.cast_lt.mp hless)
    refine ⟨fun x found => ?_, fun missing => ?_⟩
    · obtain ⟨hsign, hmantissa, hexponent⟩ := eq_of_assemble found
      refine ⟨hsign, hexponent ▸ rounds_of_nearestNat (hmantissa ▸ near) nonneg ?_⟩
      intro hbinade hexceeds
      have hreached := full.resolve_right (by omega)
      rw [hbinade, leastFull]
      push_cast
      linarith
    · have hlarge := lt_of_assemble_eq_none hsmall least hfull missing
      have hreached := full.resolve_right (by omega)
      have hdouble : r * 2 ^ e = 2 * r * 2 ^ (e - 1) := by
        rw [zpow_sub_one₀ (by norm_num)]
        ring
      rw [hdouble]
      exact limit_le_of_exponent (by linarith) (by omega)

/-- What is found is nearest; where nothing is found the quotient is past the limit. -/
theorem ofRatio_spec (num : ℕ) (hden : 0 < den) :
    (∀ x, ofRatio num den = some x → Nearest (num / den) x) ∧
      (ofRatio num den = none → limit ≤ (num : ℚ) / den) := by
  rcases Nat.eq_zero_or_pos num with rfl | hnum
  · have hzero : ofRatio 0 den = some zero := rfl
    rw [hzero, Nat.cast_zero, zero_div]
    exact ⟨fun x found => Option.some.inj found ▸ nearest_zero, nofun⟩
  · obtain ⟨hleast, hshort, hfull⟩ := exponentFor_spec hnum hden
    have hnear : NearestNat (num / den / 2 ^ exponentFor num den)
        (roundDiv (num * Nat.pow 2 (-exponentFor num den).toNat)
          (den * Nat.pow 2 (exponentFor num den).toNat)) := by
      rw [← scaled_ratio]
      exact nearestNat_roundDiv (Nat.mul_pos hden (Nat.pow_pos (by decide)))
    have hplace : (2 : ℚ) ^ exponentFor num den ≠ 0 := zpow_ne_zero _ (by norm_num)
    have hspec := assemble_spec hnear (by positivity) hleast hshort hfull
    rw [div_mul_cancel₀ _ hplace] at hspec
    unfold ofRatio
    simpa only [if_neg hnum.ne'] using hspec

theorem upperEnd_le {count : ℕ} (hcount : 4 * x.mantissa + 2 ≤ count) :
    x.upperEnd ≤ count / 4 * 2 ^ (971 : ℤ) := by
  have hplace : x.quarter ≤ 2 ^ (971 : ℤ) / 4 := by
    rw [le_div_iff₀ (by norm_num), mul_comm, ← zpow_exponent]
    exact zpow_le_zpow_right₀ (by norm_num) x.canonical.2.2.1
  calc x.upperEnd
    _ ≤ count * x.quarter := mul_le_mul_of_nonneg_right (Nat.cast_le.mpr hcount) x.quarter_pos.le
    _ ≤ count * (2 ^ (971 : ℤ) / 4) := mul_le_mul_of_nonneg_left hplace (Nat.cast_nonneg _)
    _ = count / 4 * 2 ^ (971 : ℤ) := by ring

/-- The largest float has an odd mantissa, so the limit itself rounds to no float. -/
theorem Rounds.lt_limit {q : ℚ} (rounds : x.Rounds q) : q < limit := by
  have hmantissa := x.canonical.1
  have hlarge : (0 : ℚ) < 2 ^ (971 : ℤ) := zpow_pos (by norm_num) _
  rw [pastFull] at hmantissa
  rw [limit_eq]
  by_cases heven : x.mantissa % 2 = 0
  · have hupper : x.upperEnd ≤ (36028797018963962 : ℕ) / 4 * 2 ^ (971 : ℤ) :=
      upperEnd_le (by omega)
    refine lt_of_le_of_lt (rounds.bounds.2.trans hupper) (mul_lt_mul_of_pos_right ?_ hlarge)
    norm_num
  · have hupper : x.upperEnd ≤ (36028797018963966 : ℕ) / 4 * 2 ^ (971 : ℤ) :=
      upperEnd_le (by omega)
    rw [Rounds, if_neg heven] at rounds
    refine lt_of_lt_of_le (rounds.2.trans_le hupper) (mul_le_mul_of_nonneg_right ?_ hlarge.le)
    norm_num

theorem ofRatio_eq_some_iff (hden : 0 < den) :
    ofRatio num den = some x ↔ Nearest (num / den) x := by
  obtain ⟨hfound, hmissing⟩ := ofRatio_spec num hden
  refine ⟨hfound x, fun near => ?_⟩
  cases hratio : ofRatio num den with
  | none => exact absurd near.2.lt_limit (not_lt.mpr (hmissing hratio))
  | some y => rw [near.unique (hfound y hratio)]

/-- There is a nearest float for every number below the limit. -/
theorem exists_nearest_iff {q : ℚ} (nonneg : 0 ≤ q) : (∃ x, Nearest q x) ↔ q < limit := by
  obtain ⟨hfound, hmissing⟩ := ofRatio_spec q.num.toNat q.den_pos
  have hratio : (q.num.toNat : ℚ) / q.den = q := by
    have hnum : ((q.num.toNat : ℤ) : ℚ) = q.num :=
      congrArg _ (Int.toNat_of_nonneg (Rat.num_nonneg.mpr nonneg))
    rw [← Int.cast_natCast, hnum, Rat.num_div_den]
  rw [hratio] at hfound hmissing
  refine ⟨fun ⟨x, near⟩ => near.2.lt_limit, fun hless => ?_⟩
  obtain ⟨x, hx⟩ := Option.ne_none_iff_exists'.mp fun missing => not_le.mpr hless (hmissing missing)
  exact ⟨x, hfound x hx⟩

/-! Products and quotients. -/

theorem fraction_ratio (x : Binary64) : (x.fraction.1 : ℚ) / x.fraction.2 = x.magnitude := by
  rw [magnitude, zpow_eq_div (by norm_num), fraction]
  simp only [Nat.pow_eq]
  push_cast
  ring

theorem fraction_den_pos (x : Binary64) : 0 < x.fraction.2 := Nat.pow_pos (by decide)

theorem ofNat_eq_some_iff {n : ℕ} : ofNat n = some x ↔ Nearest n x := by
  rw [ofNat, ofRatio_eq_some_iff Nat.one_pos, Nat.cast_one, div_one]

theorem mul_eq_some_iff {y z : Binary64} :
    x.mul y = some z ↔ Nearest (x.magnitude * y.magnitude) z := by
  have hpos : 0 < x.fraction.2 * y.fraction.2 := Nat.mul_pos x.fraction_den_pos y.fraction_den_pos
  rw [mul, ofRatio_eq_some_iff hpos, ← fraction_ratio, ← fraction_ratio]
  push_cast
  rw [div_mul_div_comm]

theorem div_eq_some_iff {y z : Binary64} (nonzero : y.mantissa ≠ 0) :
    x.div y = some z ↔ Nearest (x.magnitude / y.magnitude) z := by
  have hpos : 0 < y.fraction.1 :=
    Nat.mul_pos (Nat.pos_of_ne_zero nonzero) (Nat.pow_pos (by decide))
  rw [div, ofRatio_eq_some_iff (Nat.mul_pos x.fraction_den_pos hpos), ← fraction_ratio,
    ← fraction_ratio]
  push_cast
  rw [div_div_div_eq]

theorem magnitude_nonneg (x : Binary64) : 0 ≤ x.magnitude :=
  mul_nonneg (Nat.cast_nonneg _) (zpow_pos (by norm_num) _).le

theorem magnitude_lt_limit (x : Binary64) : x.magnitude < limit := by
  have hmantissa : (x.mantissa : ℚ) ≤ 2 ^ 53 - 1 := by
    have hle : x.mantissa ≤ 9007199254740991 := Nat.lt_succ_iff.mp x.canonical.1
    calc (x.mantissa : ℚ)
      _ ≤ (9007199254740991 : ℕ) := Nat.cast_le.mpr hle
      _ = 2 ^ 53 - 1 := by norm_num
  have hplace : (2 : ℚ) ^ x.exponent ≤ 2 ^ (971 : ℤ) :=
    zpow_le_zpow_right₀ (by norm_num) x.canonical.2.2.1
  have hlarge : (0 : ℚ) < 2 ^ (971 : ℤ) := zpow_pos (by norm_num) _
  rw [limit_eq]
  calc x.magnitude
    _ ≤ (2 ^ 53 - 1) * 2 ^ (971 : ℤ) :=
      mul_le_mul hmantissa hplace (zpow_pos (by norm_num) _).le (by norm_num)
    _ < (2 ^ 53 - 1 / 2) * 2 ^ (971 : ℤ) := mul_lt_mul_of_pos_right (by norm_num) hlarge

/-- What rounds to a float below one is below one itself. -/
theorem Rounds.one_le_magnitude {q : ℚ} (rounds : x.Rounds q) (hq : 1 ≤ q) : 1 ≤ x.magnitude := by
  obtain ⟨_, _, _, hfull⟩ := x.canonical
  have hupper := hq.trans rounds.bounds.2
  have hquarter := x.zpow_exponent
  rw [upperEnd_eq, magnitude] at hupper
  rw [magnitude]
  rcases lt_or_ge x.exponent 0 with hsmall | hlarge
  · obtain ⟨n, hn⟩ := Int.eq_ofNat_of_zero_le (neg_nonneg.mpr hsmall.le)
    have hpow : (0 : ℚ) < 2 ^ n := by positivity
    have hplace : (2 : ℚ) ^ x.exponent = 1 / 2 ^ n := by
      rw [← neg_neg x.exponent, hn, zpow_neg, zpow_natCast, one_div]
    have hcount : 2 ^ n ≤ x.mantissa := by
      by_contra hless
      have hnext : (x.mantissa : ℚ) + 1 ≤ 2 ^ n := mod_cast Nat.lt_of_not_le hless
      have hunit : ((x.mantissa : ℚ) + 1) * (1 / 2 ^ n) ≤ 1 := by
        rw [mul_one_div, div_le_one hpow]
        exact hnext
      rw [← hplace] at hunit
      linarith [x.quarter_pos]
    rw [hplace, mul_one_div, one_le_div hpow]
    exact_mod_cast hcount
  · have hmantissa : (1 : ℚ) ≤ x.mantissa := by
      have hle := hfull.resolve_right (by omega)
      exact_mod_cast (Nat.le_trans (by decide) hle : 1 ≤ x.mantissa)
    exact one_le_mul_of_one_le_of_one_le hmantissa (one_le_zpow₀ (by norm_num) hlarge)

theorem Rounds.mantissa_ne_zero {q : ℚ} (rounds : x.Rounds q) (hq : 1 ≤ q) : x.mantissa ≠ 0 := by
  intro hzero
  have hone := rounds.one_le_magnitude hq
  rw [magnitude, hzero, Nat.cast_zero, zero_mul] at hone
  exact absurd hone (by norm_num)

end CalendarRollup.Binary64
