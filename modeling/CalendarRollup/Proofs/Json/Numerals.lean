import Mathlib.Data.List.TakeDrop
import Mathlib.Data.List.TakeWhile
import CalendarRollup.Proofs.Json.Grammar

/-! The reader of numerals takes a longest one: what it takes is spelled by the grammar, and what is
spelled is taken where no longer numeral stands. -/
namespace CalendarRollup.Json.Parser
open Grammar

/-- No digit follows. -/
def NoDigit (rest : Chars) : Prop := ∀ c ∈ rest.head?, c.isDigit = false

/-- Nothing follows with which a numeral can go on. -/
def Ends (rest : Chars) : Prop :=
  ∀ c ∈ rest.head?, c.isDigit = false ∧ c ≠ '.' ∧ c ≠ 'e' ∧ c ≠ 'E'

variable {cs rest ds : Chars}

theorem noDigit_of_ends (ends : Ends rest) : NoDigit rest := fun c hc => (ends c hc).1

theorem exists_digit (digits : IsDigits ds) : ∃ d tail, ds = d :: tail ∧ d.isDigit = true := by
  obtain ⟨d, tail, rfl⟩ := List.exists_cons_of_ne_nil digits.1
  exact ⟨d, tail, rfl, digits.2 d List.mem_cons_self⟩

/-- The longest run of digits ahead. -/
theorem span_isDigit_iff : cs.span Char.isDigit = (ds, rest) ↔
    (∀ c ∈ ds, c.isDigit = true) ∧ cs = ds ++ rest ∧ NoDigit rest := by
  rw [List.span_eq_takeWhile_dropWhile, Prod.mk.injEq]
  constructor
  · rintro ⟨rfl, rfl⟩
    refine ⟨fun c hc => List.mem_takeWhile_imp hc, List.takeWhile_append_dropWhile.symm, ?_⟩
    intro c hc
    have hhead := List.head?_dropWhile_not Char.isDigit cs
    rw [Option.mem_def.mp hc] at hhead
    simpa using hhead
  · rintro ⟨hall, rfl, hstop⟩
    rw [List.takeWhile_append_of_pos hall, List.dropWhile_append_of_pos hall]
    cases rest with
    | nil => simp
    | cons c rest => simp [hstop c rfl]

theorem digits_eq_some_iff :
    digits cs = some (ds, rest) ↔ IsDigits ds ∧ cs = ds ++ rest ∧ NoDigit rest := by
  unfold digits
  constructor
  · intro h
    split at h
    next => cases h
    next left right hne hspan =>
      cases h
      obtain ⟨hall, hsplit, hstop⟩ := span_isDigit_iff.mp hspan
      exact ⟨⟨hne, hall⟩, hsplit, hstop⟩
  · rintro ⟨⟨hne, hall⟩, hsplit, hstop⟩
    rw [span_isDigit_iff.mpr ⟨hall, hsplit, hstop⟩]
    obtain ⟨d, tail, rfl⟩ := List.exists_cons_of_ne_nil hne
    rfl

theorem wholePart_eq_some_iff {whole : Chars} :
    wholePart cs = some (whole, rest) ↔ IsWhole whole ∧ cs = whole ++ rest ∧ NoDigit rest := by
  constructor
  · intro h
    unfold wholePart at h
    split at h
    next tail =>
      split at h
      next c tail =>
        split at h
        next => cases h
        next hstop =>
          cases h
          exact ⟨isWhole_zero, rfl, fun d hd => by cases hd; simpa using hstop⟩
      next =>
        cases h
        exact ⟨isWhole_zero, rfl, nofun⟩
    next hne =>
      obtain ⟨hdigits, rfl, hstop⟩ := digits_eq_some_iff.mp h
      obtain ⟨d, tail, rfl, _⟩ := exists_digit hdigits
      refine ⟨⟨hdigits, fun hzero => ?_⟩, rfl, hstop⟩
      cases hzero
      exact absurd rfl (hne (tail ++ rest))
  · rintro ⟨⟨hdigits, hzero⟩, rfl, hstop⟩
    obtain ⟨d, tail, rfl, _⟩ := exists_digit hdigits
    by_cases hd : d = '0'
    · subst hd
      cases hzero rfl
      cases rest with
      | nil => rfl
      | cons c rest => simp [wholePart, hstop c rfl]
    · have hread := digits_eq_some_iff.mpr ⟨hdigits, rfl, hstop⟩
      simpa [wholePart, hd] using hread

theorem exists_of_fractionPart {fraction : Option Chars}
    (read : fractionPart cs = some (fraction, rest)) :
    ∃ spelled, SpellsFraction fraction spelled ∧ cs = spelled ++ rest := by
  unfold fractionPart at read
  split at read
  next tail =>
    obtain ⟨⟨ds, left⟩, hdigits, h⟩ := Option.bind_eq_some_iff.mp read
    cases h
    obtain ⟨digits, rfl, _⟩ := digits_eq_some_iff.mp hdigits
    exact ⟨'.' :: ds, .point digits, rfl⟩
  next =>
    cases read
    exact ⟨[], .absent, rfl⟩

theorem fractionPart_append {fraction : Option Chars} (spelled : SpellsFraction fraction cs)
    (noDigit : NoDigit rest) (noPoint : rest.head? ≠ some '.') :
    fractionPart (cs ++ rest) = some (fraction, rest) := by
  cases spelled with
  | absent =>
    unfold fractionPart
    split
    next hpoint => exact absurd (congrArg List.head? hpoint) noPoint
    next => rfl
  | point digits =>
    have hread := digits_eq_some_iff.mpr ⟨digits, rfl, noDigit⟩
    simp [fractionPart, hread]

theorem exists_of_exponentPart {exponent : Option (Bool × Chars)}
    (read : exponentPart cs = some (exponent, rest)) :
    ∃ spelled, SpellsExponent exponent spelled ∧ cs = spelled ++ rest := by
  unfold exponentPart at read
  split at read
  next mark tail =>
    split at read
    next isMark =>
      split at read
      next negative left hsign =>
        obtain ⟨⟨ds, last⟩, hdigits, h⟩ := Option.bind_eq_some_iff.mp read
        cases h
        obtain ⟨digits, rfl, _⟩ := digits_eq_some_iff.mp hdigits
        split at hsign
        next =>
          obtain ⟨rfl, rfl⟩ := Prod.mk.inj hsign
          exact ⟨mark :: '+' :: ds, .signed isMark digits, rfl⟩
        next =>
          obtain ⟨rfl, rfl⟩ := Prod.mk.inj hsign
          exact ⟨mark :: '-' :: ds, .signed isMark digits, rfl⟩
        next =>
          obtain ⟨rfl, rfl⟩ := Prod.mk.inj hsign
          exact ⟨mark :: ds, .unsigned isMark digits, rfl⟩
    next =>
      cases read
      exact ⟨[], .absent, rfl⟩
  next =>
    cases read
    exact ⟨[], .absent, rfl⟩

theorem exponentPart_append {exponent : Option (Bool × Chars)} (spelled : SpellsExponent exponent cs)
    (ends : Ends rest) : exponentPart (cs ++ rest) = some (exponent, rest) := by
  cases spelled with
  | absent =>
    cases rest with
    | nil => rfl
    | cons c rest =>
      obtain ⟨_, _, hsmall, hcapital⟩ := ends c rfl
      simp [exponentPart, hsmall, hcapital]
  | unsigned isMark digits =>
    have hread := digits_eq_some_iff.mpr ⟨digits, rfl, noDigit_of_ends ends⟩
    obtain ⟨d, tail, rfl, hd⟩ := exists_digit digits
    have hplus : d ≠ '+' := by
      rintro rfl
      cases hd
    have hminus : d ≠ '-' := by
      rintro rfl
      cases hd
    simp only [exponentPart, List.cons_append, if_pos isMark]
    split
    next hhead => exact absurd (List.cons.inj hhead).1 hplus
    next hhead => exact absurd (List.cons.inj hhead).1 hminus
    next =>
      rw [List.cons_append] at hread
      simp [hread]
  | signed isMark digits =>
    have hread := digits_eq_some_iff.mpr ⟨digits, rfl, noDigit_of_ends ends⟩
    rename_i mark negative ds
    cases negative <;> simp [exponentPart, isMark, hread]

/-- What the fraction and the exponent leave ahead of the whole part is no digit, and what the
exponent leaves ahead of the fraction is no point either. -/
theorem head_of_exponent {exponent : Option (Bool × Chars)} (spelled : SpellsExponent exponent cs)
    (ends : Ends rest) : ∀ c ∈ (cs ++ rest).head?, c.isDigit = false ∧ c ≠ '.' := by
  cases spelled with
  | absent => exact fun c hc => ⟨(ends c hc).1, (ends c hc).2.1⟩
  | unsigned isMark | signed isMark =>
    intro c hc
    cases hc
    rcases isMark with rfl | rfl <;> decide

theorem noDigit_of_fraction {fraction : Option Chars} (spelled : SpellsFraction fraction cs)
    (noDigit : NoDigit rest) : NoDigit (cs ++ rest) := by
  cases spelled with
  | absent => exact noDigit
  | point =>
    intro c hc
    cases hc
    rfl

theorem exists_of_token {t : Token} (read : token cs = some (t, rest)) :
    ∃ spelled, SpellsToken t spelled ∧ cs = spelled ++ rest := by
  unfold token at read
  split at read
  next negative left hsign =>
    obtain ⟨⟨whole, left⟩, hwhole, read⟩ := Option.bind_eq_some_iff.mp read
    obtain ⟨⟨fraction, left⟩, hfraction, read⟩ := Option.bind_eq_some_iff.mp read
    obtain ⟨⟨exponent, left⟩, hexponent, read⟩ := Option.bind_eq_some_iff.mp read
    cases read
    obtain ⟨isWhole, rfl, _⟩ := wholePart_eq_some_iff.mp hwhole
    obtain ⟨fractionCs, isFraction, rfl⟩ := exists_of_fractionPart hfraction
    obtain ⟨exponentCs, isExponent, rfl⟩ := exists_of_exponentPart hexponent
    refine ⟨_, .parts isWhole isFraction isExponent, ?_⟩
    split at hsign
    next =>
      obtain ⟨rfl, rfl⟩ := Prod.mk.inj hsign
      simp
    next =>
      obtain ⟨rfl, rfl⟩ := Prod.mk.inj hsign
      simp

theorem token_append {t : Token} (spelled : SpellsToken t cs) (ends : Ends rest) :
    token (cs ++ rest) = some (t, rest) := by
  obtain @⟨negative, whole, fraction, exponent, fractionCs, exponentCs, isWhole, isFraction,
    isExponent⟩ := spelled
  have hhead := head_of_exponent isExponent ends
  have hnoDigit : NoDigit (exponentCs ++ rest) := fun c hc => (hhead c hc).1
  have hexponent := exponentPart_append isExponent ends
  have hfraction := fractionPart_append isFraction hnoDigit fun hpoint => (hhead '.' hpoint).2 rfl
  have hwhole := wholePart_eq_some_iff.mpr ⟨isWhole, rfl, noDigit_of_fraction isFraction hnoDigit⟩
  cases negative with
  | true => simp [token, hwhole, hfraction, hexponent]
  | false =>
    obtain ⟨d, tail, rfl, hd⟩ := exists_digit isWhole.1
    have hminus : d ≠ '-' := by
      rintro rfl
      cases hd
    simp only [token, Bool.false_eq_true, if_false, List.nil_append, List.cons_append,
      List.append_assoc]
    split
    next hhead => exact absurd (List.cons.inj hhead).1 hminus
    next =>
      rw [List.cons_append] at hwhole
      simp [hwhole, hfraction, hexponent]

end CalendarRollup.Json.Parser
