import Mathlib.Data.List.Forall2

/-! Computations that can fail: when a sequence of steps comes to a value, when it fails, and what
lists of steps come to. -/
namespace CalendarRollup.Except
variable {ε ε' α β : Type} {x : Except ε α} {f g : α → Except ε β}

theorem bind_eq_ok {b : β} : (x >>= f) = .ok b ↔ ∃ a, x = .ok a ∧ f a = .ok b := by
  cases x with
  | error fault =>
    constructor
    · intro h
      cases h
    · rintro ⟨a, ha, _⟩
      cases ha
  | ok a =>
    constructor
    · intro h
      exact ⟨a, rfl, h⟩
    · rintro ⟨a', ha, h⟩
      cases ha
      exact h

theorem bind_eq_error {fault : ε} :
    (x >>= f) = .error fault ↔ x = .error fault ∨ ∃ a, x = .ok a ∧ f a = .error fault := by
  cases x with
  | error other =>
    constructor
    · intro h
      cases h
      exact .inl rfl
    · rintro (h | ⟨a, ha, _⟩)
      · cases h
        rfl
      · cases ha
  | ok a =>
    constructor
    · intro h
      exact .inr ⟨a, rfl, h⟩
    · rintro (h | ⟨a', ha, h⟩)
      · cases h
      · cases ha
        exact h

/-- What comes after need only agree on the value that is reached. -/
theorem bind_congr (same : ∀ a, x = .ok a → f a = g a) : (x >>= f) = (x >>= g) := by
  cases x with
  | error fault => rfl
  | ok a => exact same a rfl

theorem check_bind_eq_ok_iff {check : Except ε Unit} {y : Except ε β} {b : β} :
    (check >>= fun _ => y) = .ok b ↔ check = .ok () ∧ y = .ok b := by
  rw [bind_eq_ok]
  constructor
  · rintro ⟨⟨⟩, hcheck, hy⟩
    exact ⟨hcheck, hy⟩
  · rintro ⟨hcheck, hy⟩
    exact ⟨(), hcheck, hy⟩

theorem mapError_eq_ok_iff {h : ε → ε'} {a : α} : x.mapError h = .ok a ↔ x = .ok a := by
  cases x <;> simp [Except.mapError]

theorem mapError_eq_error_iff {h : ε → ε'} {fault : ε'} :
    x.mapError h = .error fault ↔ ∃ cause, x = .error cause ∧ fault = h cause := by
  cases x <;> simp [Except.mapError, eq_comm]

theorem forM_eq_ok_iff {check : α → Except ε Unit} {xs : List α} :
    xs.forM check = .ok () ↔ ∀ a ∈ xs, check a = .ok () := by
  induction xs with
  | nil => exact ⟨fun _ _ ha => absurd ha List.not_mem_nil, fun _ => rfl⟩
  | cons a xs ih =>
    rw [List.forall_mem_cons, ← ih]
    exact check_bind_eq_ok_iff

theorem mapM_eq_ok_iff {xs : List α} {ys : List β} :
    xs.mapM f = .ok ys ↔ List.Forall₂ (fun a b => f a = .ok b) xs ys := by
  induction xs generalizing ys with
  | nil =>
    rw [List.mapM_nil, List.forall₂_nil_left_iff]
    constructor
    · intro h
      cases h
      rfl
    · rintro rfl
      rfl
  | cons a xs ih =>
    rw [List.mapM_cons, bind_eq_ok]
    constructor
    · rintro ⟨b, hb, h⟩
      obtain ⟨rest, hrest, h⟩ := bind_eq_ok.mp h
      cases h
      exact .cons hb (ih.mp hrest)
    · intro h
      cases h with
      | cons hb hrest => exact ⟨_, hb, bind_eq_ok.mpr ⟨_, ih.mpr hrest, rfl⟩⟩

end CalendarRollup.Except
