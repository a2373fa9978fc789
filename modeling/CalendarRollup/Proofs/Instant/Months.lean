import CalendarRollup.Proofs.Instant.Clock

/-! Months in a row. Each begins behind the last day of the one before it, so days are numbered in
the order of their dates, and valid dates are told apart by their numbers. -/
namespace CalendarRollup.Date

theorem toDays_february (y : Int) : toDays ⟨y, 2, 1⟩ = toDays ⟨y, 1, 1⟩ + 31 := by
  simp only [toDays, Nat.reduceLeDiff, ↓reduceIte]
  omega

/-- A leap day is at the end of February. -/
theorem toDays_march (y : Int) : toDays ⟨y, 3, 1⟩ = toDays ⟨y, 2, 1⟩ + daysInMonth y 2 := by
  simp only [toDays, daysInMonth, isLeapYear, Nat.reduceLeDiff, ↓reduceIte, Bool.and_eq_true,
    Bool.or_eq_true, beq_iff_eq, bne_iff_ne]
  split <;> omega

theorem toDays_january (y : Int) : toDays ⟨y + 1, 1, 1⟩ = toDays ⟨y, 12, 1⟩ + 31 := by
  simp only [toDays, Nat.reduceLeDiff, ↓reduceIte]
  omega

/-- From March on the months of a year are in the places that their lengths give. -/
theorem toDays_add_four (y : Int) {m : Nat} (h : m < 9) :
    toDays ⟨y, m + 4, 1⟩ = toDays ⟨y, m + 3, 1⟩ + daysInMonth y (m + 3) := by
  rw [daysInMonth_add_three y (by omega)]
  have hlater : ¬ m + 4 ≤ 2 := by omega
  have hmonth : ¬ m + 3 ≤ 2 := by omega
  have hlaterPlace : ((m + 4 : Nat) : Int) - 3 = m + 1 := by omega
  have hplace : ((m + 3 : Nat) : Int) - 3 = m := by omega
  simp only [toDays, hlater, hmonth, if_false, hlaterPlace, hplace]
  omega

/-- The place of a date's month in the row of all months. -/
def monthIndex (d : Date) : Int := d.year * 12 + d.month - 1

/-- The days of the month at a place in the row. -/
def lengthAt (index : Int) : Nat := daysInMonth (index / 12) ((index % 12).toNat + 1)

/-- The number of the first day of the month at a place in the row. -/
def firstDay (index : Int) : Int := toDays ⟨index / 12, (index % 12).toNat + 1, 1⟩

theorem firstDay_succ (index : Int) : firstDay (index + 1) = firstDay index + lengthAt index := by
  obtain ⟨y, k, hk, rfl⟩ : ∃ (y : Int) (k : Nat), k < 12 ∧ index = 12 * y + k :=
    ⟨index / 12, (index % 12).toNat, by omega, by omega⟩
  have hyear : (12 * y + k) / 12 = y := by omega
  have hmonth : ((12 * y + k) % 12).toNat = k := by omega
  simp only [firstDay, lengthAt, hyear, hmonth]
  by_cases hlast : k = 11
  · subst hlast
    have hnext : (12 * y + (11 : Nat) + 1) / 12 = y + 1 := by omega
    have hfirst : ((12 * y + (11 : Nat) + 1) % 12).toNat = 0 := by omega
    rw [hnext, hfirst]
    exact toDays_january y
  · have hnext : (12 * y + k + 1) / 12 = y := by omega
    have hlater : ((12 * y + k + 1) % 12).toNat = k + 1 := by omega
    rw [hnext, hlater]
    match k, hlast with
    | 0, _ => exact toDays_february y
    | 1, _ => exact toDays_march y
    | m + 2, _ => exact toDays_add_four y (by omega)

theorem daysInMonth_pos (year : Int) (month : Nat) : 0 < daysInMonth year month := by
  unfold daysInMonth
  split
  · split <;> decide
  all_goals decide

theorem lengthAt_pos (index : Int) : 0 < lengthAt index := daysInMonth_pos _ _

/-- A month has ended when a later one begins. -/
theorem firstDay_add_lengthAt_le {i j : Int} (h : i < j) :
    firstDay i + lengthAt i ≤ firstDay j := by
  obtain ⟨n, rfl⟩ : ∃ n : Nat, j = i + 1 + n := ⟨(j - i - 1).toNat, by omega⟩
  induction n with
  | zero =>
    have hnext : i + 1 + ((0 : Nat) : Int) = i + 1 := Int.add_zero _
    exact Int.le_of_eq (by rw [hnext, firstDay_succ])
  | succ n ih =>
    have hbefore := ih (by omega)
    have hpos := lengthAt_pos (i + 1 + n)
    have hsucc := firstDay_succ (i + 1 + n)
    rw [Int.natCast_succ, ← Int.add_assoc]
    omega

/-- The order of dates: by year, then by month, then by day. -/
def Before (a b : Date) : Prop :=
  a.year < b.year ∨ a.year = b.year ∧ (a.month < b.month ∨ a.month = b.month ∧ a.day < b.day)

section Order
variable {a b : Date}

theorem before_trichotomy (a b : Date) : a.Before b ∨ a = b ∨ b.Before a := by
  cases a
  cases b
  simp only [Before, mk.injEq]
  omega

theorem IsValid.of_monthIndex (valid : a.IsValid) :
    a.monthIndex / 12 = a.year ∧ (a.monthIndex % 12).toNat + 1 = a.month := by
  obtain ⟨hfirst, hlast, _⟩ := valid
  unfold monthIndex
  omega

theorem IsValid.toDays_eq (valid : a.IsValid) :
    a.toDays = firstDay a.monthIndex + a.day - 1 := by
  rw [firstDay, valid.of_monthIndex.1, valid.of_monthIndex.2]
  simp only [toDays]
  omega

theorem IsValid.day_le (valid : a.IsValid) : a.day ≤ lengthAt a.monthIndex := by
  rw [lengthAt, valid.of_monthIndex.1, valid.of_monthIndex.2]
  exact valid.2.2.2

theorem toDays_lt_of_before (ha : a.IsValid) (hb : b.IsValid) (h : a.Before b) :
    a.toDays < b.toDays := by
  rw [ha.toDays_eq, hb.toDays_eq]
  by_cases hmonth : a.monthIndex < b.monthIndex
  · have hended := firstDay_add_lengthAt_le hmonth
    have hday := ha.day_le
    have hpos := hb.2.2.1
    omega
  · obtain ⟨hfirst, hlast, _⟩ := ha
    obtain ⟨hfirst', hlast', _⟩ := hb
    have hsame : a.monthIndex = b.monthIndex ∧ a.day < b.day := by
      simp only [Before, monthIndex] at h hmonth ⊢
      omega
    rw [hsame.1]
    omega

/-- Days are numbered in the order of their dates. -/
theorem toDays_lt_iff (ha : a.IsValid) (hb : b.IsValid) : a.toDays < b.toDays ↔ a.Before b := by
  constructor
  · intro h
    rcases before_trichotomy a b with hbefore | rfl | hafter
    · exact hbefore
    · omega
    · have hgreater := toDays_lt_of_before hb ha hafter
      omega
  · exact toDays_lt_of_before ha hb

theorem toDays_injective (ha : a.IsValid) (hb : b.IsValid) (h : a.toDays = b.toDays) : a = b := by
  rcases before_trichotomy a b with hbefore | heq | hafter
  · have hless := toDays_lt_of_before ha hb hbefore
    omega
  · exact heq
  · have hgreater := toDays_lt_of_before hb ha hafter
    omega

theorem ofDays_toDays (valid : a.IsValid) : ofDays a.toDays = a :=
  toDays_injective (isValid_ofDays _) valid (toDays_ofDays _)

end Order

end CalendarRollup.Date
