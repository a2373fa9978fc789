/-! The parentheses of a text, and the places where a word stands in it. -/
namespace CalendarRollup.Text

/-- One for a parenthesis that opens, minus one for one that closes. -/
def weight (c : Char) : Int := if c = '(' then 1 else if c = ')' then -1 else 0

/-- How many parentheses more are opened than closed. -/
def net : List Char → Int
  | [] => 0
  | c :: cs => weight c + net cs

/-- The least that is net of the text up to any of its places. -/
def low : List Char → Int
  | [] => 0
  | c :: cs => min 0 (weight c + low cs)

/-- Nowhere is less than so many parentheses open, counted from where the text begins. -/
def StaysAbove (least : Int) (cs : List Char) : Prop := ∀ front, front <+: cs → least ≤ net front

/-- Every parenthesis that is opened is closed, and none is closed that was not opened before. -/
def IsBalanced (cs : List Char) : Prop := net cs = 0 ∧ StaysAbove 0 cs

/-- A text without parentheses. -/
def IsFlat (cs : List Char) : Prop := '(' ∉ cs ∧ ')' ∉ cs

instance (cs : List Char) : Decidable (IsFlat cs) := inferInstanceAs (Decidable (_ ∧ _))

section Nesting
variable {cs : List Char}

theorem net_append (cs ds : List Char) : net (cs ++ ds) = net cs + net ds := by
  induction cs with
  | nil => simp [net]
  | cons c cs ih => simp only [List.cons_append, net, ih, Int.add_assoc]

theorem low_nonpos (cs : List Char) : low cs ≤ 0 := by
  cases cs with
  | nil => exact Int.le_refl 0
  | cons c cs => exact Int.min_le_left ..

theorem low_le_net (cs : List Char) : low cs ≤ net cs := by
  induction cs with
  | nil => exact Int.le_refl 0
  | cons c cs ih =>
    simp only [low, net]
    omega

theorem low_append (cs ds : List Char) : low (cs ++ ds) = min (low cs) (net cs + low ds) := by
  induction cs with
  | nil =>
    have hle := low_nonpos ds
    simp only [List.nil_append, low, net]
    omega
  | cons c cs ih =>
    simp only [List.cons_append, low, net, ih]
    omega

theorem staysAbove_iff {least : Int} : StaysAbove least cs ↔ least ≤ low cs := by
  induction cs generalizing least with
  | nil => simp [StaysAbove, low, net]
  | cons c cs ih =>
    have hrest : least - weight c ≤ low cs ↔ least ≤ weight c + low cs := by omega
    rw [low, Int.le_min, ← hrest, ← ih]
    constructor
    · refine fun h => ⟨h [] List.nil_prefix, fun front hfront => ?_⟩
      have hcons := h (c :: front) (List.cons_prefix_cons.mpr ⟨rfl, hfront⟩)
      simp only [net] at hcons
      omega
    · rintro ⟨hzero, h⟩ front hfront
      cases front with
      | nil => exact hzero
      | cons d front =>
        obtain ⟨rfl, hbehind⟩ := List.cons_prefix_cons.mp hfront
        have hless := h front hbehind
        simp only [net]
        omega

theorem isBalanced_iff : IsBalanced cs ↔ net cs = 0 ∧ 0 ≤ low cs := by
  rw [IsBalanced, staysAbove_iff]

theorem net_low_of_isFlat (flat : IsFlat cs) : net cs = 0 ∧ low cs = 0 := by
  induction cs with
  | nil => exact ⟨rfl, rfl⟩
  | cons c cs ih =>
    obtain ⟨hopen, hclose⟩ := flat
    obtain ⟨hopens, hcs⟩ := not_or.mp (mt List.mem_cons.mpr hopen)
    obtain ⟨hcloses, hcs'⟩ := not_or.mp (mt List.mem_cons.mpr hclose)
    obtain ⟨hnet, hlow⟩ := ih ⟨hcs, hcs'⟩
    simp [net, low, weight, Ne.symm hopens, Ne.symm hcloses, hnet, hlow]

end Nesting

/-- At how many places of a text a word begins. -/
def occurrences (word : List Char) : List Char → Nat
  | [] => 0
  | c :: cs => (if word.isPrefixOf (c :: cs) then 1 else 0) + occurrences word cs

section Occurrences
variable {word cs ds : List Char}

/-- A word that goes from one text into the next has the characters on both sides. -/
theorem isPrefixOf_append (some : cs ≠ [])
    (apart : (∀ c ∈ cs.getLast?, c ∉ word) ∨ ∀ d ∈ ds.head?, d ∉ word) :
    word.isPrefixOf (cs ++ ds) = word.isPrefixOf cs := by
  rw [Bool.eq_iff_iff, List.isPrefixOf_iff_prefix, List.isPrefixOf_iff_prefix]
  refine ⟨fun hword => ?_, fun hword => hword.trans (List.prefix_append ..)⟩
  obtain ⟨rest, hsplit⟩ := hword
  obtain ⟨others, rfl, _⟩ | ⟨others, rfl, hothers⟩ := List.append_eq_append_iff.mp hsplit
  · exact List.prefix_append ..
  · rcases apart with hlast | hhead
    · have hmem := List.mem_append_left others (List.getLast_mem some)
      exact absurd hmem (hlast _ (List.getLast?_eq_some_getLast some))
    · cases others with
      | nil => simp
      | cons d others =>
        have hmem : d ∈ cs ++ d :: others := by simp
        exact absurd hmem (hhead d (by rw [hothers]; rfl))

theorem occurrences_append
    (apart : (∀ c ∈ cs.getLast?, c ∉ word) ∨ ∀ d ∈ ds.head?, d ∉ word) :
    occurrences word (cs ++ ds) = occurrences word cs + occurrences word ds := by
  induction cs with
  | nil => simp [occurrences]
  | cons c cs ih =>
    have hrest : (∀ c ∈ cs.getLast?, c ∉ word) ∨ ∀ d ∈ ds.head?, d ∉ word := by
      refine apart.imp (fun hlast d hd => hlast d ?_) id
      rw [List.getLast?_cons, hd]
      rfl
    have hfirst := isPrefixOf_append (List.cons_ne_nil c cs) apart
    rw [List.cons_append] at hfirst ⊢
    rw [occurrences, occurrences, hfirst, ih hrest, Nat.add_assoc]

theorem occurrences_eq_zero_iff (some : word ≠ []) :
    occurrences word cs = 0 ↔ ¬ word <:+: cs := by
  induction cs with
  | nil => simp [occurrences, some]
  | cons c cs ih =>
    rw [occurrences, Nat.add_eq_zero_iff, ih, List.infix_cons_iff, not_or]
    simp

/-- A word does not stand where one of its characters is missing. -/
theorem occurrences_eq_zero {c : Char} (mem : c ∈ word) (absent : c ∉ cs) :
    occurrences word cs = 0 := by
  rw [occurrences_eq_zero_iff (List.ne_nil_of_mem mem)]
  exact fun hword => absent (List.IsInfix.subset hword mem)

end Occurrences

end CalendarRollup.Text
