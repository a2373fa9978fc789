import CalendarRollup.Text.Basic

/-! Readers of texts that are put together from fixed words, names, literals and lists. Each takes
the characters ahead and gives back those it leaves; beside it stands what it reads of the text that
was written. -/
namespace CalendarRollup.Text.Reader

abbrev Chars := List Char

variable {α : Type} {word stop : String} {rest : Chars}

/-- Passes over a word. -/
def expect (word : String) (cs : Chars) : Option Chars :=
  if word.toList.isPrefixOf cs then some (cs.drop word.toList.length) else none

@[simp] theorem expect_append (word : String) (rest : Chars) :
    expect word (word.toList ++ rest) = some rest := by
  have hahead : word.toList.isPrefixOf (word.toList ++ rest) = true :=
    List.isPrefixOf_iff_prefix.mpr (List.prefix_append _ _)
  simp [expect, hahead]

/-- A word is not there where another one begins with another character. -/
theorem expect_eq_none {c d : Char} {cs ds : Chars} (hword : word.toList = c :: cs)
    (hstop : stop.toList = d :: ds) (h : c ≠ d) : expect word (stop.toList ++ rest) = none := by
  simp [expect, hword, hstop, h]

/-- Letters, digits, underscores and points, and all that is beyond ASCII. -/
def isNameChar (c : Char) : Bool := c.isAlphanum || c == '_' || c == '.' || 128 ≤ c.toNat

def IsName (cs : Chars) : Prop := ∀ c ∈ cs, isNameChar c = true

instance (cs : Chars) : Decidable (IsName cs) :=
  decidable_of_iff (cs.all isNameChar = true) List.all_eq_true

@[simp] theorem isName_append {cs ds : Chars} : IsName (cs ++ ds) ↔ IsName cs ∧ IsName ds := by
  simp [IsName, or_imp, forall_and]

theorem isNameChar_of_isDigit {c : Char} (h : c.isDigit = true) : isNameChar c = true := by
  simp [isNameChar, Char.isAlphanum, h]

/-- The characters ahead that are of one kind. -/
def run (kind : Char → Bool) (cs : Chars) : String × Chars :=
  (String.ofList (cs.takeWhile kind), cs.dropWhile kind)

/-- A run ends at a word that begins with a character of another kind. -/
theorem run_append {kind : Char → Bool} {s : String} {d : Char} {ds : Chars}
    (all : ∀ c ∈ s.toList, kind c = true) (hstop : stop.toList = d :: ds) (h : kind d = false)
    (rest : Chars) : run kind (s.toList ++ (stop.toList ++ rest)) = (s, stop.toList ++ rest) := by
  unfold run
  rw [List.takeWhile_append_of_pos all, List.dropWhile_append_of_pos all, hstop]
  simp [h]

/-- The longest name ahead. -/
def name (cs : Chars) : String × Chars := run isNameChar cs

/-- What is left to read does not go on with a quote. -/
def Unquoted (cs : Chars) : Prop := cs.head? ≠ some '\''

/-- The content of a literal, behind its opening quote: it ends at a quote that stands alone. -/
def content : Chars → Option (Chars × Chars)
  | [] => none
  | c :: cs =>
    if c = '\'' then
      match cs with
      | '\'' :: cs => do
        let (s, rest) ← content cs
        some ('\'' :: s, rest)
      | cs => some ([], cs)
    else do
      let (s, rest) ← content cs
      some (c :: s, rest)

theorem content_doubled (s : Chars) (h : Unquoted rest) :
    content (s.flatMap doubled ++ '\'' :: rest) = some (s, rest) := by
  induction s with
  | nil =>
    rw [List.flatMap_nil, List.nil_append, content.eq_def]
    simp only [if_true]
    split
    next => exact absurd rfl h
    next => rfl
  | cons c s ih =>
    by_cases hc : c = '\''
    · subst hc
      simp [doubled, content, ih]
    · rw [List.flatMap_cons, doubled, if_neg hc, List.singleton_append, List.cons_append,
        content.eq_def]
      simp [hc, ih]

def quoted (cs : Chars) : Option (String × Chars) := do
  let cs ← expect "'" cs
  let (s, cs) ← content cs
  some (String.ofList s, cs)

theorem quoted_literal (s : String) (h : Unquoted rest) :
    quoted ((literal s).toList ++ rest) = some (s, rest) := by
  have hsplit : (literal s).toList ++ rest =
      "'".toList ++ (s.toList.flatMap doubled ++ '\'' :: rest) := by
    simp [literal, literalChars]
  rw [quoted, hsplit, expect_append]
  simp [content_doubled s.toList h]

/-- What is read again and again, as long as it can be. -/
def repeated (read : Chars → Option (α × Chars)) : Nat → Chars → List α × Chars
  | 0, cs => ([], cs)
  | fuel + 1, cs =>
    match read cs with
    | none => ([], cs)
    | some (a, cs) =>
      let (others, cs) := repeated read fuel cs
      (a :: others, cs)

/-- Something behind a word. -/
def after (word : String) (read : Chars → Option (α × Chars)) (cs : Chars) :
    Option (α × Chars) := do
  let cs ← expect word cs
  read cs

section Lists
variable {read : Chars → Option (α × Chars)} {write : α → String} {items : List α}
  {follows : Chars → Prop}

/-- Items, each behind a separator, up to where there is none. An item may need to know what
follows it. -/
theorem repeated_flatMap
    (reads : ∀ a ∈ items, ∀ rest, follows rest → read ((write a).toList ++ rest) = some (a, rest))
    (more : ∀ cs, follows (word.toList ++ cs)) (last : follows rest)
    (ends : expect word rest = none) (fuel : Nat) (enough : items.length ≤ fuel) :
    repeated (after word read) fuel
        (items.flatMap (fun a => word.toList ++ (write a).toList) ++ rest) = (items, rest) := by
  induction items generalizing fuel with
  | nil =>
    cases fuel with
    | zero => rfl
    | succ fuel => simp [repeated, after, ends]
  | cons a items ih =>
    cases fuel with
    | zero => simp at enough
    | succ fuel =>
      have hfollows : follows
          (items.flatMap (fun a => word.toList ++ (write a).toList) ++ rest) := by
        cases items with
        | nil => exact last
        | cons b items => simpa using more _
      have ha := reads a List.mem_cons_self _ hfollows
      have hothers := ih (fun b hb => reads b (List.mem_cons_of_mem _ hb)) fuel
        (by simpa using enough)
      simp [repeated, after, ha, hothers, List.append_assoc]

end Lists

/-- One or more items with a word between them. -/
def separated (word : String) (read : Chars → Option (α × Chars)) (cs : Chars) :
    Option (List α × Chars) := do
  let (first, cs) ← read cs
  let (others, cs) := repeated (after word read) cs.length cs
  some (first :: others, cs)

theorem toList_intercalate_cons (word first : String) (others : List String) :
    (word.intercalate (first :: others)).toList =
      first.toList ++ others.flatMap fun s => word.toList ++ s.toList := by
  induction others generalizing first with
  | nil => simp
  | cons second others ih =>
    rw [String.intercalate_cons_cons, String.toList_append, String.toList_append, ih]
    simp

theorem length_le_flatMap {write : α → Chars} (items : List α) (h : ∀ a, write a ≠ []) :
    items.length ≤ (items.flatMap write).length := by
  induction items with
  | nil => simp
  | cons a items ih =>
    have ha := List.length_pos_iff.mpr (h a)
    simp only [List.flatMap_cons, List.length_append, List.length_cons]
    omega

theorem separated_intercalate {read : Chars → Option (α × Chars)} {write : α → String}
    {items : List α} {follows : Chars → Prop} (hne : items ≠ [])
    (reads : ∀ a ∈ items, ∀ rest, follows rest → read ((write a).toList ++ rest) = some (a, rest))
    (more : ∀ cs, follows (word.toList ++ cs)) (last : follows rest)
    (ends : expect word rest = none) (separates : word.toList ≠ []) :
    separated word read ((word.intercalate (items.map write)).toList ++ rest) =
      some (items, rest) := by
  obtain ⟨first, others, rfl⟩ := List.exists_cons_of_ne_nil hne
  rw [List.map_cons, toList_intercalate_cons, List.flatMap_map, List.append_assoc]
  have hfollows : follows
      (others.flatMap (fun a => word.toList ++ (write a).toList) ++ rest) := by
    cases others with
    | nil => exact last
    | cons b others => simpa using more _
  have hlength : others.length ≤
      (others.flatMap fun a => word.toList ++ (write a).toList).length :=
    length_le_flatMap others fun a h => separates (List.append_eq_nil_iff.mp h).1
  have hothers := repeated_flatMap (fun a ha => reads a (List.mem_cons_of_mem _ ha)) more last ends
    (others.flatMap (fun a => word.toList ++ (write a).toList) ++ rest).length
    (by rw [List.length_append]; omega)
  rw [separated, reads first List.mem_cons_self _ hfollows]
  simp only [Option.bind_eq_bind, Option.bind_some, hothers]

end CalendarRollup.Text.Reader
