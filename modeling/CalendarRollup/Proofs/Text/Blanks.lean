import Mathlib.Data.List.TakeWhile
import CalendarRollup.Text.Basic

/-! Texts with blanks around them, and what is left of them without. -/
namespace CalendarRollup.Text

def IsBlank (gap : List Char) : Prop := ∀ c ∈ gap, isBlank c = true

instance (gap : List Char) : Decidable (IsBlank gap) :=
  decidable_of_iff (gap.all isBlank = true) List.all_eq_true

/-- There is a last character, and it is not blank. -/
def EndsSolid (cs : List Char) : Prop := ∃ c ∈ cs.getLast?, isBlank c = false

theorem isBlank_of_isDigit {c : Char} (h : c.isDigit = true) : isBlank c = false := by
  have hrange : 48 ≤ c.toNat ∧ c.toNat ≤ 57 := by
    simpa [Char.isDigit, Char.le_def, UInt32.le_iff_toNat_le] using h
  unfold isBlank
  simp only [Bool.or_eq_false_iff, Bool.and_eq_false_iff, decide_eq_false_iff_not,
    beq_eq_false_iff_ne]
  omega

/-- No blank is a letter. -/
theorem toLower_of_isBlank {c : Char} (blank : isBlank c = true) : c.toLower = c := by
  have hcapital : ¬ (65 ≤ c.toNat ∧ c.toNat ≤ 90) := by
    unfold isBlank at blank
    simp only [Bool.or_eq_true, Bool.and_eq_true, decide_eq_true_eq, beq_iff_eq] at blank
    omega
  unfold Char.toLower
  rw [dif_neg]
  simpa [UInt32.le_iff_toNat_le] using hcapital

section EndsSolid
variable {cs ds : List Char}

theorem EndsSolid.ne_nil (solid : EndsSolid cs) : cs ≠ [] := by
  rintro rfl
  obtain ⟨_, hlast, _⟩ := solid
  cases hlast

theorem EndsSolid.append (cs : List Char) (solid : EndsSolid ds) : EndsSolid (cs ++ ds) := by
  obtain ⟨c, hlast, hc⟩ := solid
  refine ⟨c, ?_, hc⟩
  rw [List.getLast?_append, hlast]
  rfl

theorem EndsSolid.of_append (some : ds ≠ []) (solid : EndsSolid (cs ++ ds)) : EndsSolid ds := by
  obtain ⟨c, hlast, hc⟩ := solid
  have hds := List.getLast?_eq_some_getLast some
  rw [List.getLast?_append, hds, Option.some_or, ← hds] at hlast
  exact ⟨c, hlast, hc⟩

theorem EndsSolid.of_all (some : cs ≠ []) (all : ∀ c ∈ cs, isBlank c = false) : EndsSolid cs :=
  ⟨cs.getLast some, List.getLast?_eq_some_getLast some, all _ (List.getLast_mem some)⟩

theorem EndsSolid.of_isDigit (some : cs ≠ []) (all : ∀ c ∈ cs, c.isDigit = true) :
    EndsSolid cs :=
  .of_all some fun c hc => isBlank_of_isDigit (all c hc)

end EndsSolid

section Trim
variable {gap : List Char}

theorem trimStart_append_of_blank (blank : IsBlank gap) (cs : List Char) :
    trimStart (gap ++ cs) = trimStart cs :=
  List.dropWhile_append_of_pos blank

theorem trimEnd_append_of_blank (blank : IsBlank gap) (cs : List Char) :
    trimEnd (cs ++ gap) = trimEnd cs := by
  have hreverse : ∀ c ∈ gap.reverse, isBlank c = true := fun c hc => blank c (List.mem_reverse.mp hc)
  rw [trimEnd, List.reverse_append, List.dropWhile_append_of_pos hreverse, ← trimEnd]

theorem trimStart_of_head {cs : List Char} (solid : ∀ c ∈ cs.head?, isBlank c = false) :
    trimStart cs = cs := by
  cases cs with
  | nil => rfl
  | cons c rest => simp [trimStart, solid c rfl]

theorem trimEnd_of_last {cs : List Char} (solid : EndsSolid cs) : trimEnd cs = cs := by
  obtain ⟨c, hlast, hc⟩ := solid
  rw [← List.head?_reverse] at hlast
  have hkeep : trimStart cs.reverse = cs.reverse := trimStart_of_head fun d hd => by
    cases hlast.symm.trans hd
    exact hc
  rw [trimEnd, ← trimStart, hkeep, List.reverse_reverse]

/-- The blanks in front, and what is left. -/
theorem exists_blank_append_trimStart (cs : List Char) :
    ∃ gap, IsBlank gap ∧ cs = gap ++ trimStart cs :=
  ⟨cs.takeWhile isBlank, fun c hc => List.all_eq_true.mp List.all_takeWhile c hc,
    List.takeWhile_append_dropWhile.symm⟩

/-- The blanks behind, and what is left. -/
theorem exists_trimEnd_append_blank (cs : List Char) :
    ∃ gap, IsBlank gap ∧ cs = trimEnd cs ++ gap := by
  obtain ⟨gap, hgap, hsplit⟩ := exists_blank_append_trimStart cs.reverse
  refine ⟨gap.reverse, fun c hc => hgap c (List.mem_reverse.mp hc), ?_⟩
  have hreverse := congrArg List.reverse hsplit
  rw [List.reverse_reverse, List.reverse_append] at hreverse
  exact hreverse

/-- The blanks around a text, and what is left. -/
theorem exists_surrounded (s : String) :
    ∃ before after, IsBlank before ∧ IsBlank after ∧
      s.toList = before ++ (trim s).toList ++ after := by
  obtain ⟨before, hbefore, hstart⟩ := exists_blank_append_trimStart s.toList
  obtain ⟨after, hafter, hend⟩ := exists_trimEnd_append_blank (trimStart s.toList)
  refine ⟨before, after, hbefore, hafter, ?_⟩
  rw [trim, String.toList_ofList, List.append_assoc, ← hend]
  exact hstart

theorem trimStart_append {cs : List Char} (ds : List Char) (some : trimStart cs ≠ []) :
    trimStart (cs ++ ds) = trimStart cs ++ ds := by
  unfold trimStart at some ⊢
  rw [List.dropWhile_append, if_neg (by simpa using some)]

theorem trimStart_trimStart (cs : List Char) : trimStart (trimStart cs) = trimStart cs := by
  apply trimStart_of_head
  intro c hc
  have hhead := List.head?_dropWhile_not isBlank cs
  rw [← trimStart, hc] at hhead
  exact hhead

theorem EndsSolid.trimStart {cs : List Char} (solid : EndsSolid cs) :
    EndsSolid (Text.trimStart cs) := by
  obtain ⟨gap, hblank, hsplit⟩ := exists_blank_append_trimStart cs
  refine EndsSolid.of_append (fun hempty => ?_) (hsplit ▸ solid)
  obtain ⟨c, hlast, hc⟩ := solid
  rw [hempty, List.append_nil] at hsplit
  rw [hblank c (hsplit ▸ List.mem_of_getLast? hlast)] at hc
  cases hc

/-- The blanks around a text do not count. -/
theorem trim_surrounded {before cs after : List Char} (before_blank : IsBlank before)
    (after_blank : IsBlank after) (solid : EndsSolid cs) :
    (trim (String.ofList (before ++ cs ++ after))).toList = trimStart cs := by
  rw [trim, String.toList_ofList, String.toList_ofList, List.append_assoc,
    trimStart_append_of_blank before_blank, trimStart_append _ solid.trimStart.ne_nil,
    trimEnd_append_of_blank after_blank, trimEnd_of_last solid.trimStart]

/-- A text between blanks, where none is in it. -/
theorem trim_of_solid {s : String} {before word after : List Char} (before_blank : IsBlank before)
    (after_blank : IsBlank after) (some : word ≠ []) (solid : ∀ c ∈ word, isBlank c = false)
    (split : s.toList = before ++ word ++ after) : trim s = String.ofList word := by
  have hs : s = String.ofList (before ++ word ++ after) := by rw [← split, String.ofList_toList]
  have hhead : trimStart word = word := trimStart_of_head fun c hc => solid c (List.mem_of_mem_head? hc)
  apply String.toList_inj.mp
  rw [hs, trim_surrounded before_blank after_blank (.of_all some solid), hhead,
    String.toList_ofList]

theorem trimEnd_eq_nil_iff {cs : List Char} : trimEnd cs = [] ↔ IsBlank cs := by
  rw [trimEnd, List.reverse_eq_nil_iff, List.dropWhile_eq_nil_iff]
  simp only [List.mem_reverse, IsBlank]

theorem isBlank_trimStart_iff {cs : List Char} : IsBlank (trimStart cs) ↔ IsBlank cs := by
  obtain ⟨gap, hgap, hsplit⟩ := exists_blank_append_trimStart cs
  constructor
  · intro h c hc
    rw [hsplit] at hc
    rcases List.mem_append.mp hc with hc | hc
    · exact hgap c hc
    · exact h c hc
  · intro h c hc
    exact h c ((List.dropWhile_sublist isBlank).mem hc)

/-- Nothing is left of a text just where it is nothing but blanks. -/
theorem trim_eq_empty_iff {s : String} : trim s = "" ↔ isAllBlank s = true := by
  rw [trim, String.ofList_eq_empty_iff, trimEnd_eq_nil_iff, isBlank_trimStart_iff]
  exact List.all_eq_true.symm

theorem isAllBlank_eq_false_iff {s : String} : isAllBlank s = false ↔ trim s ≠ "" := by
  rw [ne_eq, trim_eq_empty_iff, Bool.not_eq_true]

end Trim
end CalendarRollup.Text
