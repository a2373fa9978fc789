import Mathlib.Algebra.Group.Nat.Defs
import CalendarRollup.Decimal.Numeral

/-! Numerals of a fixed width are the runs of that many digits, one for each number that is small
enough. -/
namespace CalendarRollup.Numeral

theorem isDigit_digit (n : Nat) : (digit n).isDigit = true := by
  simp only [digit, Nat.isDigit_digitChar, decide_eq_true_eq]
  exact Nat.mod_lt _ (by decide)

theorem isDigit_of_mem_fixed {width n : Nat} {c : Char} (h : c ∈ fixed width n) :
    c.isDigit = true := by
  induction width generalizing n with
  | zero => simp [fixed] at h
  | succ width ih =>
    simp only [fixed, List.mem_append, List.mem_singleton] at h
    rcases h with h | rfl
    · exact ih h
    · exact isDigit_digit n

theorem value_append (high low : List Char) :
    value (high ++ low) = value high * 10 ^ low.length + value low := by
  unfold value
  rw [Nat.ofDigitChars_append, Nat.ofDigitChars_eq_ofDigitChars_zero, Nat.mul_comm]

theorem value_digit (n : Nat) : value [digit n] = n % 10 := by
  simp only [value, digit]
  rw [Nat.ofDigitChars_cons_digitChar_of_lt_ten (Nat.mod_lt _ (by decide)),
    Nat.ofDigitChars_nil]
  omega

@[simp] theorem value_nil : value [] = 0 := rfl

/-- A digit is the one of its own value. -/
theorem digit_value {c : Char} (h : c.isDigit = true) : digit (value [c]) = c := by
  have hrange : 48 ≤ c.toNat ∧ c.toNat ≤ 57 := by
    simpa [Char.isDigit, Char.le_def, UInt32.le_iff_toNat_le] using h
  have hvalue : value [c] = c.toNat - 48 := by simp [value, Nat.ofDigitChars_cons]
  have hlt : c.toNat - 48 < 10 := by omega
  rw [hvalue, digit, Nat.mod_eq_of_lt hlt]
  apply Char.toNat_inj.mp
  rw [Nat.toNat_digitChar_of_lt_ten hlt]
  omega

@[simp] theorem value_fixed (width n : Nat) : value (fixed width n) = n % 10 ^ width := by
  induction width generalizing n with
  | zero => simp [fixed, Nat.mod_one]
  | succ width ih =>
    rw [fixed, value_append, ih, value_digit, List.length_singleton, Nat.pow_one, Nat.pow_succ',
      Nat.mod_mul]
    omega

theorem fixed_value {width : Nat} {digits : List Char} (length : digits.length = width)
    (all : ∀ c ∈ digits, c.isDigit = true) : fixed width (value digits) = digits := by
  induction width generalizing digits with
  | zero => rw [List.eq_nil_of_length_eq_zero length, fixed]
  | succ width ih =>
    rcases List.eq_nil_or_concat digits with rfl | ⟨high, c, rfl⟩
    · cases length
    · rw [List.concat_eq_append] at all length ⊢
      have hc := all c (by simp)
      have hvalue : value (high ++ [c]) = value high * 10 + value [c] := value_append high [c]
      have hlast : digit (value (high ++ [c])) = c := by
        rw [hvalue, digit, Nat.mul_add_mod_self_right, ← digit, digit_value hc]
      have hhigh : value (high ++ [c]) / 10 = value high := by
        have hlt : value [c] < 10 := by
          rw [← digit_value hc, value_digit]
          exact Nat.mod_lt _ (by decide)
        omega
      rw [fixed, hhigh, hlast, ih (by simpa using length) fun d h => all d (by simp [h])]

theorem value_lt {digits : List Char} (all : ∀ c ∈ digits, c.isDigit = true) :
    value digits < 10 ^ digits.length := by
  rw [← fixed_value rfl all, value_fixed, length_fixed]
  exact Nat.mod_lt _ (Nat.pow_pos (by decide))

theorem fixed_injective {width m n : Nat} (hm : m < 10 ^ width) (hn : n < 10 ^ width)
    (h : fixed width m = fixed width n) : m = n := by
  rw [← Nat.mod_eq_of_lt hm, ← value_fixed, h, value_fixed, Nat.mod_eq_of_lt hn]

theorem isDigit_of_mem_padded {width n : Nat} {c : Char} (h : c ∈ padded width n) :
    c.isDigit = true := by
  rcases List.mem_append.mp h with h | h
  · rw [List.eq_of_mem_replicate h]
    decide
  · exact Nat.isDigit_of_mem_toDigits (by decide) (by decide) h

theorem padded_ne_nil (width n : Nat) : padded width n ≠ [] :=
  List.append_ne_nil_of_right_ne_nil _ Nat.toDigits_ne_nil

@[simp] theorem value_padded (width n : Nat) : value (padded width n) = n := by
  rw [padded, value_append, value_ofNat, value, Nat.ofDigitChars_replicate_zero]
  omega

/-! A numeral of the natural length has no digit too many. -/

theorem length_ofNat_pos (n : Nat) : 0 < (ofNat n).length :=
  List.length_pos_iff.mpr Nat.toDigits_ne_nil

theorem isDigit_of_mem_ofNat {n : Nat} {c : Char} (h : c ∈ ofNat n) : c.isDigit = true :=
  Nat.isDigit_of_mem_toDigits (by decide) (by decide) h

theorem lt_pow_length_ofNat (n : Nat) : n < 10 ^ (ofNat n).length :=
  (Nat.length_toDigits_le_iff (by decide) (length_ofNat_pos n)).mp (Nat.le_refl _)

theorem pow_length_ofNat_le {n : Nat} (positive : n ≠ 0) : 10 ^ ((ofNat n).length - 1) ≤ n := by
  have hlength := length_ofNat_pos n
  rcases Nat.eq_zero_or_pos ((ofNat n).length - 1) with hone | hmore
  · rw [hone]
    exact Nat.pos_of_ne_zero positive
  · refine Nat.le_of_not_lt fun hlt => ?_
    have hshort : (ofNat n).length ≤ (ofNat n).length - 1 :=
      (Nat.length_toDigits_le_iff (by decide) hmore).mpr hlt
    omega

theorem head?_ofNat_ne {n : Nat} (positive : n ≠ 0) : (ofNat n).head? ≠ some '0' := by
  intro hhead
  obtain ⟨tail, htail⟩ := List.head?_eq_some_iff.mp hhead
  have hdigits : ∀ c ∈ tail, c.isDigit = true := fun c hc =>
    isDigit_of_mem_ofNat (htail ▸ List.mem_cons_of_mem _ hc)
  have hvalue : value tail = n := by
    have hcons := value_append ['0'] tail
    rw [List.singleton_append, ← htail, value_ofNat, show value ['0'] = 0 from rfl] at hcons
    omega
  have hlow := pow_length_ofNat_le positive
  have hhigh := value_lt hdigits
  rw [hvalue] at hhigh
  rw [htail, List.length_cons, Nat.add_sub_cancel] at hlow
  omega

end CalendarRollup.Numeral
