import Mathlib.Algebra.Order.Field.Power
import Mathlib.Algebra.Order.Field.Rat
import Mathlib.Data.Nat.Cast.Order.Field
import Mathlib.Tactic.FieldSimp
import Mathlib.Tactic.Linarith
import Mathlib.Tactic.Positivity
import Mathlib.Tactic.Ring
import CalendarRollup.Decimal.Shortest
import CalendarRollup.Proofs.Decimal.Fixed

/-! The decimals that round to a binary floating-point number: they reach half way to its
neighbours, and those of two numbers have nothing in common. -/
namespace CalendarRollup.Binary64

/-- A positive number to a whole power, as a quotient of naturals. -/
theorem zpow_eq_div {b : ℚ} (hb : b ≠ 0) (k : ℤ) : b ^ k = b ^ k.toNat / b ^ (-k).toNat := by
  rw [eq_div_iff (pow_ne_zero _ hb), ← zpow_natCast, ← zpow_natCast, ← zpow_add₀ hb]
  congr 1
  omega

def Decimal.toRat (d : Decimal) : ℚ := d.digits * 10 ^ d.exponent

/-- The magnitude of a number. -/
def magnitude (x : Binary64) : ℚ := x.mantissa * 2 ^ x.exponent

/-- How far the interval reaches below, in quarters of the last place: the numbers below a power of
two are nearer to one another. -/
def below (x : Binary64) : Nat := if x.mantissa = leastFull ∧ -1074 < x.exponent then 1 else 2

/-- A quarter of the last place. -/
def quarter (x : Binary64) : ℚ := 2 ^ (x.exponent - 2)

def lowerEnd (x : Binary64) : ℚ := (4 * x.mantissa - x.below : ℕ) * x.quarter

def upperEnd (x : Binary64) : ℚ := (4 * x.mantissa + 2 : ℕ) * x.quarter

/-- The magnitudes nearest to a number, half way to its neighbours at most; just half way goes to
the number with an even mantissa. -/
def Rounds (x : Binary64) (q : ℚ) : Prop :=
  if x.mantissa % 2 = 0 then x.lowerEnd ≤ q ∧ q ≤ x.upperEnd else x.lowerEnd < q ∧ q < x.upperEnd

variable {x y : Binary64} {q : ℚ}

theorem quarter_pos (x : Binary64) : 0 < x.quarter := zpow_pos (by norm_num) _

theorem zpow_exponent (x : Binary64) : (2 : ℚ) ^ x.exponent = 4 * x.quarter := by
  rw [quarter, zpow_sub₀ (by norm_num)]
  norm_num
  ring

theorem magnitude_eq (x : Binary64) : x.magnitude = 4 * x.mantissa * x.quarter := by
  rw [magnitude, zpow_exponent]
  ring

theorem Rounds.bounds (rounds : x.Rounds q) : x.lowerEnd ≤ q ∧ q ≤ x.upperEnd := by
  unfold Rounds at rounds
  split at rounds
  next => exact rounds
  next => exact ⟨rounds.1.le, rounds.2.le⟩

theorem rounds_of_lt (hlower : x.lowerEnd < q) (hupper : q < x.upperEnd) : x.Rounds q := by
  unfold Rounds
  split
  next => exact ⟨hlower.le, hupper.le⟩
  next => exact ⟨hlower, hupper⟩

theorem Rounds.even_of_lowerEnd (rounds : x.Rounds x.lowerEnd) : x.mantissa % 2 = 0 := by
  by_contra hodd
  rw [Rounds, if_neg hodd] at rounds
  exact lt_irrefl _ rounds.1

theorem Rounds.even_of_upperEnd (rounds : x.Rounds x.upperEnd) : x.mantissa % 2 = 0 := by
  by_contra hodd
  rw [Rounds, if_neg hodd] at rounds
  exact lt_irrefl _ rounds.2

/-- A quotient of naturals that stands on a grid of powers of two against one on a grid of powers of
ten. -/
theorem scaled_le_iff (a : ℕ) (e : ℤ) (d : Decimal) :
    a * 2 ^ (e - 2).toNat * 10 ^ (-d.exponent).toNat ≤
        d.digits * 10 ^ d.exponent.toNat * 2 ^ (2 - e).toNat ↔
      (a : ℚ) * 2 ^ (e - 2) ≤ d.toRat := by
  have htwo := zpow_eq_div (b := 2) (by norm_num) (e - 2)
  rw [neg_sub] at htwo
  rw [Decimal.toRat, htwo, zpow_eq_div (b := 10) (by norm_num), mul_div_assoc', mul_div_assoc',
    div_le_div_iff₀ (by positivity) (by positivity)]
  exact_mod_cast Iff.rfl

theorem le_scaled_iff (a : ℕ) (e : ℤ) (d : Decimal) :
    d.digits * 10 ^ d.exponent.toNat * 2 ^ (2 - e).toNat ≤
        a * 2 ^ (e - 2).toNat * 10 ^ (-d.exponent).toNat ↔
      d.toRat ≤ (a : ℚ) * 2 ^ (e - 2) := by
  have htwo := zpow_eq_div (b := 2) (by norm_num) (e - 2)
  rw [neg_sub] at htwo
  rw [Decimal.toRat, htwo, zpow_eq_div (b := 10) (by norm_num), mul_div_assoc', mul_div_assoc',
    div_le_div_iff₀ (by positivity) (by positivity)]
  exact_mod_cast Iff.rfl

/-- The interval that is computed is that of the magnitudes nearest to the number. -/
theorem holds_neighbourhood_iff (d : Decimal) :
    x.neighbourhood.holds d = true ↔ x.Rounds d.toRat := by
  unfold Rounds Neighbourhood.holds
  by_cases heven : x.mantissa % 2 = 0
  · have hclosed : x.neighbourhood.closed = true := beq_iff_eq.mpr heven
    rw [if_pos heven, if_pos hclosed, Bool.and_eq_true, decide_eq_true_iff, decide_eq_true_iff]
    exact and_congr (scaled_le_iff (4 * x.mantissa - x.below) x.exponent d)
      (le_scaled_iff (4 * x.mantissa + 2) x.exponent d)
  · have hopen : ¬ x.neighbourhood.closed = true := fun h => heven (beq_iff_eq.mp h)
    rw [if_neg heven, if_neg hopen, Bool.and_eq_true, decide_eq_true_iff, decide_eq_true_iff]
    refine and_congr ?_ ?_
    · exact lt_iff_lt_of_le_iff_le (le_scaled_iff (4 * x.mantissa - x.below) x.exponent d)
    · exact lt_iff_lt_of_le_iff_le (scaled_le_iff (4 * x.mantissa + 2) x.exponent d)

theorem below_le (x : Binary64) : 1 ≤ x.below ∧ x.below ≤ 2 := by
  unfold below
  split <;> simp

/-- The ends in quarters of the last place of the lesser of two numbers. -/
theorem upper_le_lower {k : ℕ}
    (less : x.exponent < y.exponent ∧ 2 ≤ k ∨ k = 1 ∧ x.mantissa < y.mantissa) :
    4 * x.mantissa + 2 ≤ (4 * y.mantissa - y.below) * k ∧
      (4 * x.mantissa + 2 = (4 * y.mantissa - y.below) * k →
        x.mantissa % 2 = 1 ∨ y.mantissa % 2 = 1) := by
  obtain ⟨hx, hxLeast, _, hxFull⟩ := x.canonical
  obtain ⟨hy, hyLeast, _, hyFull⟩ := y.canonical
  have hbelow := y.below_le
  simp only [leastFull, pastFull] at *
  rcases less with ⟨hexponent, hk⟩ | ⟨rfl, hmantissa⟩
  · have hfull : 4503599627370496 ≤ y.mantissa := by omega
    have hlower : 18014398509481983 ≤ 4 * y.mantissa - y.below := by
      unfold below leastFull at hbelow ⊢
      split <;> omega
    have hscaled : (4 * y.mantissa - y.below) * 2 ≤ (4 * y.mantissa - y.below) * k :=
      Nat.mul_le_mul_left _ hk
    omega
  · omega

/-- An interval ends where those of greater numbers begin, at most, and two of them do not both hold
an end that they share. -/
theorem upperEnd_le_lowerEnd
    (less : x.exponent < y.exponent ∨ x.exponent = y.exponent ∧ x.mantissa < y.mantissa) :
    x.upperEnd ≤ y.lowerEnd ∧
      (x.upperEnd = y.lowerEnd → x.mantissa % 2 = 1 ∨ y.mantissa % 2 = 1) := by
  have hpos := x.quarter_pos
  obtain ⟨k, hk, hquarter⟩ : ∃ k : ℕ,
      (x.exponent < y.exponent ∧ 2 ≤ k ∨ k = 1 ∧ x.mantissa < y.mantissa) ∧
        y.quarter = k * x.quarter := by
    rcases less with hexponent | ⟨hexponent, hmantissa⟩
    · obtain ⟨n, hn⟩ := Int.le.dest hexponent.le
      refine ⟨2 ^ n, .inl ⟨hexponent, Nat.le_self_pow (by omega) 2⟩, ?_⟩
      have hsum : y.exponent - 2 = (n : ℤ) + (x.exponent - 2) := by omega
      rw [quarter, quarter, hsum, zpow_add₀ (by norm_num), zpow_natCast]
      norm_cast
    · exact ⟨1, .inr ⟨rfl, hmantissa⟩, by rw [quarter, quarter, hexponent]; simp⟩
  obtain ⟨hle, hparity⟩ := upper_le_lower hk
  have hlower : y.lowerEnd = ((4 * y.mantissa - y.below) * k : ℕ) * x.quarter := by
    rw [lowerEnd, hquarter, Nat.cast_mul, mul_assoc]
  rw [hlower, upperEnd]
  constructor
  · exact mul_le_mul_of_nonneg_right (Nat.cast_le.mpr hle) hpos.le
  · intro hends
    exact hparity (Nat.cast_injective (mul_right_cancel₀ hpos.ne' hends))

theorem not_rounds_of_less
    (less : x.exponent < y.exponent ∨ x.exponent = y.exponent ∧ x.mantissa < y.mantissa)
    (hx : x.Rounds q) : ¬ y.Rounds q := by
  intro hy
  obtain ⟨hle, hparity⟩ := upperEnd_le_lowerEnd less
  have hupper := hx.bounds.2
  have hlower := hy.bounds.1
  have hq : q = x.upperEnd := le_antisymm hupper (hle.trans hlower)
  have hends : x.upperEnd = y.lowerEnd := le_antisymm hle (hlower.trans hupper)
  have hxEven := Rounds.even_of_upperEnd (hq ▸ hx)
  have hyEven := Rounds.even_of_lowerEnd (hends ▸ hq ▸ hy)
  rcases hparity hends with h | h <;> omega

/-- No magnitude rounds to two numbers. -/
theorem Rounds.unique (hx : x.Rounds q) (hy : y.Rounds q) :
    x.mantissa = y.mantissa ∧ x.exponent = y.exponent := by
  rcases lt_trichotomy x.exponent y.exponent with h | h | h
  · exact absurd hy (not_rounds_of_less (.inl h) hx)
  · rcases lt_trichotomy x.mantissa y.mantissa with h' | h' | h'
    · exact absurd hy (not_rounds_of_less (.inr ⟨h, h'⟩) hx)
    · exact ⟨h', h⟩
    · exact absurd hx (not_rounds_of_less (.inr ⟨h.symm, h'⟩) hy)
  · exact absurd hx (not_rounds_of_less (.inl h) hy)

/-! The shortest decimal of a number rounds to it. -/

theorem Neighbourhood.holds_of_onGrid {w : Neighbourhood} {exponent : ℤ} {d : Decimal}
    (found : w.onGrid exponent = some d) : w.holds d = true := by
  unfold onGrid at found
  simp only at found
  split at found
  next hlow hhigh =>
    split at found
    next => exact Option.some.inj found ▸ hlow
    next => exact Option.some.inj found ▸ hhigh
  next hlow _ => exact Option.some.inj found ▸ hlow
  next hhigh => exact Option.some.inj found ▸ hhigh
  next => cases found

theorem centre_div_den (x : Binary64) :
    (x.neighbourhood.centre : ℚ) / x.neighbourhood.den = x.magnitude := by
  have htwo := zpow_eq_div (b := 2) (by norm_num) (x.exponent - 2)
  rw [neg_sub] at htwo
  rw [magnitude_eq, quarter, htwo, mul_div_assoc']
  simp [neighbourhood]

theorem pow_leadingExponent_le {num den : ℕ} (hnum : 0 < num) (hden : 0 < den) :
    (10 : ℚ) ^ leadingExponent num den ≤ num / den := by
  unfold leadingExponent
  split
  next hle =>
    have hpos : num / den ≠ 0 := (Nat.div_pos hle hden).ne'
    have hlength := Numeral.length_ofNat_pos (num / den)
    have hexponent : ((Numeral.ofNat (num / den)).length : ℤ) - 1 =
        ((Numeral.ofNat (num / den)).length - 1 : ℕ) := by omega
    rw [hexponent, zpow_natCast]
    calc (10 : ℚ) ^ ((Numeral.ofNat (num / den)).length - 1)
      _ ≤ (num / den : ℕ) := mod_cast Numeral.pow_length_ofNat_le hpos
      _ ≤ num / den := Nat.cast_div_le
  next hlt =>
    have hceil := Numeral.lt_pow_length_ofNat ((den + num - 1) / num - 1)
    have hdiv := Nat.div_add_mod (den + num - 1) num
    have hmod := Nat.mod_lt (den + num - 1) hnum
    have hle : num * ((den + num - 1) / num) ≤
        num * 10 ^ (Numeral.ofNat ((den + num - 1) / num - 1)).length :=
      Nat.mul_le_mul_left num (by omega)
    have hden' : den ≤ num * 10 ^ (Numeral.ofNat ((den + num - 1) / num - 1)).length := by omega
    rw [zpow_neg, zpow_natCast, inv_eq_one_div, div_le_div_iff₀ (by positivity) (by positivity),
      one_mul]
    exact_mod_cast hden'

theorem lowerEnd_eq (nonzero : x.mantissa ≠ 0) :
    x.lowerEnd = x.magnitude - x.below * x.quarter := by
  have hle : x.below ≤ 4 * x.mantissa := by
    have := x.below_le
    omega
  rw [lowerEnd, magnitude_eq, Nat.cast_sub hle]
  push_cast
  ring

theorem upperEnd_eq (x : Binary64) : x.upperEnd = x.magnitude + 2 * x.quarter := by
  rw [upperEnd, magnitude_eq]
  push_cast
  ring

/-- Of two points around a number that is not zero at least one rounds to it, where they are near
enough to one another: sixteen digits after the first are enough. -/
theorem rounds_of_near {low step : ℚ} (nonzero : x.mantissa ≠ 0) (hlow : low ≤ x.magnitude)
    (hhigh : x.magnitude < low + step) (fine : step * 10 ^ 16 ≤ x.magnitude) :
    x.Rounds low ∨ x.Rounds (low + step) := by
  have hquarter := x.quarter_pos
  have hlower := lowerEnd_eq nonzero
  have hupper := x.upperEnd_eq
  have hmagnitude := x.magnitude_eq
  have hbelow : (1 : ℚ) ≤ x.below := mod_cast x.below_le.1
  obtain ⟨hmantissa, _⟩ := x.canonical
  have hmantissa' : (x.mantissa : ℚ) ≤ 9007199254740992 := mod_cast hmantissa.le
  have hhigh' : x.lowerEnd < low + step := by
    rw [hlower]
    linarith [mul_pos (by linarith : (0 : ℚ) < x.below) hquarter]
  by_cases hbinade : x.mantissa = leastFull
  · have hleast : (x.mantissa : ℚ) = 4503599627370496 := mod_cast hbinade
    rw [hleast] at hmagnitude
    exact .inr (rounds_of_lt hhigh' (by linarith))
  · have htwo : (x.below : ℚ) = 2 := by
      rw [below, if_neg fun h => hbinade h.1]
      rfl
    rw [htwo] at hlower
    have hscaled := mul_le_mul_of_nonneg_right hmantissa' hquarter.le
    by_cases hnear : x.lowerEnd < low
    · exact .inl (rounds_of_lt hnear (by linarith))
    · exact .inr (rounds_of_lt hhigh' (by linarith))

/-- A grid that is fine enough has a point that rounds to a number. -/
theorem exists_onGrid {exponent : ℤ} (nonzero : x.mantissa ≠ 0)
    (fine : (10 : ℚ) ^ exponent * 10 ^ 16 ≤ x.magnitude) :
    ∃ d, x.neighbourhood.onGrid exponent = some d := by
  have hstep : (0 : ℚ) < 10 ^ exponent := zpow_pos (by norm_num) _
  obtain ⟨num, hnum⟩ : ∃ n, n = x.neighbourhood.centre * 10 ^ (-exponent).toNat := ⟨_, rfl⟩
  obtain ⟨den, hden⟩ : ∃ n, n = x.neighbourhood.den * 10 ^ exponent.toNat := ⟨_, rfl⟩
  have hplace : 0 < x.neighbourhood.den := Nat.pow_pos (by decide)
  have hpos : 0 < den := hden ▸ Nat.mul_pos hplace (Nat.pow_pos (by decide))
  have hratio : (num : ℚ) / den * 10 ^ exponent = x.magnitude := by
    have hplace' : (x.neighbourhood.den : ℚ) ≠ 0 := mod_cast hplace.ne'
    rw [← centre_div_den, hnum, hden, zpow_eq_div (b := 10) (by norm_num)]
    push_cast
    field_simp
  have hlow : ((num / den : ℕ) : ℚ) * 10 ^ exponent ≤ x.magnitude := by
    rw [← hratio]
    exact mul_le_mul_of_nonneg_right Nat.cast_div_le hstep.le
  have hhigh : x.magnitude < ((num / den : ℕ) : ℚ) * 10 ^ exponent + 10 ^ exponent := by
    have hlt : (num : ℚ) / den < (num / den : ℕ) + 1 := by
      rw [div_lt_iff₀ (mod_cast hpos), mul_comm]
      exact_mod_cast Nat.lt_mul_div_succ num hpos
    rw [← hratio, ← add_one_mul]
    exact mul_lt_mul_of_pos_right hlt hstep
  have hpoint : x.neighbourhood.holds ⟨num / den, exponent⟩ = true ∨
      x.neighbourhood.holds ⟨num / den + 1, exponent⟩ = true := by
    rw [holds_neighbourhood_iff, holds_neighbourhood_iff, Decimal.toRat, Decimal.toRat,
      Nat.cast_add, Nat.cast_one, add_one_mul]
    exact rounds_of_near nonzero hlow hhigh fine
  rw [hnum, hden] at hpoint
  unfold Neighbourhood.onGrid
  simp only
  split
  next => exact ⟨_, rfl⟩
  next => exact ⟨_, rfl⟩
  next => exact ⟨_, rfl⟩
  next hlow hhigh =>
    rcases hpoint with h | h
    · exact absurd (h.symm.trans hlow) nofun
    · exact absurd (h.symm.trans hhigh) nofun

/-- The decimal that is written rounds to the number. -/
theorem rounds_shortest (nonzero : x.mantissa ≠ 0) : x.Rounds x.shortest.toRat := by
  have hzero : ¬ x.isZero = true := fun h => nonzero (beq_iff_eq.mp h)
  have hcentre : 0 < x.neighbourhood.centre :=
    Nat.mul_pos (by omega) (Nat.pow_pos (by decide))
  have hden : 0 < x.neighbourhood.den := Nat.pow_pos (by decide)
  rw [← holds_neighbourhood_iff, shortest, if_neg hzero]
  simp only
  have hlead := pow_leadingExponent_le hcentre hden
  rw [centre_div_den] at hlead
  obtain ⟨d, hd⟩ : ∃ d, (List.range 18).findSome? (fun k : ℕ => x.neighbourhood.onGrid
      (leadingExponent x.neighbourhood.centre x.neighbourhood.den + 1 - (k : ℤ))) = some d := by
    rw [← Option.isSome_iff_exists, List.findSome?_isSome_iff]
    refine ⟨17, by simp, ?_⟩
    rw [Option.isSome_iff_exists]
    apply exists_onGrid nonzero
    have hsixteen : (10 : ℚ) ^ (leadingExponent x.neighbourhood.centre x.neighbourhood.den + 1 -
        ((17 : ℕ) : ℤ)) * 10 ^ 16 =
          10 ^ leadingExponent x.neighbourhood.centre x.neighbourhood.den := by
      rw [← zpow_natCast (10 : ℚ) 16, ← zpow_add₀ (by norm_num)]
      congr 1
      omega
    rw [hsixteen]
    exact hlead
  rw [hd, Option.getD_some]
  obtain ⟨k, _, hk⟩ := List.exists_of_findSome?_eq_some hd
  exact Neighbourhood.holds_of_onGrid hk

theorem rounds_zero (zero : x.mantissa = 0) : x.Rounds 0 := by
  have hlower : x.lowerEnd = 0 := by
    rw [lowerEnd, zero]
    simp
  have hupper : 0 ≤ x.upperEnd := mul_nonneg (Nat.cast_nonneg _) x.quarter_pos.le
  rw [Rounds, zero, if_pos rfl]
  exact ⟨hlower.le, hupper⟩

/-- Zero does not round to any other number. -/
theorem Rounds.digits_ne_zero {d : Decimal} (rounds : x.Rounds d.toRat) (nonzero : x.mantissa ≠ 0) :
    d.digits ≠ 0 := by
  intro hzero
  have hpos : 0 < 4 * x.mantissa - x.below := by
    have := x.below_le
    omega
  have hlower : 0 < x.lowerEnd := mul_pos (Nat.cast_pos.mpr hpos) x.quarter_pos
  have hle := rounds.bounds.1
  rw [Decimal.toRat, hzero, Nat.cast_zero, zero_mul] at hle
  exact absurd hlower (not_lt.mpr hle)

end CalendarRollup.Binary64
