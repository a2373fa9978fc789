import CalendarRollup.Text.Basic

/-! Reading a text of the query language from left to right for the contents of its literals. -/
namespace CalendarRollup.Text

/-- Where a reader stands: outside of all literals, within one of which a part has been read, or
behind a quote that ends the literal unless another quote follows. -/
inductive ReadingPlace where
  | outside
  | inside (content : List Char)
  | behindQuote (content : List Char)
  deriving DecidableEq, Repr

/-- The contents of the literals that have ended, and the place behind them. -/
structure LiteralReader where
  found : List String
  place : ReadingPlace
  deriving DecidableEq, Repr

namespace LiteralReader

def start : LiteralReader := ⟨[], .outside⟩

def step : LiteralReader → Char → LiteralReader
  | ⟨found, .outside⟩, c => if c = '\'' then ⟨found, .inside []⟩ else ⟨found, .outside⟩
  | ⟨found, .inside content⟩, c =>
    if c = '\'' then ⟨found, .behindQuote content⟩ else ⟨found, .inside (content ++ [c])⟩
  | ⟨found, .behindQuote content⟩, c =>
    if c = '\'' then ⟨found, .inside (content ++ ['\''])⟩
    else ⟨found ++ [String.ofList content], .outside⟩

def read (reader : LiteralReader) (cs : List Char) : LiteralReader := cs.foldl step reader

/-- All contents, unless the text ends within a literal. -/
def finish : LiteralReader → Option (List String)
  | ⟨found, .outside⟩ => some found
  | ⟨_, .inside _⟩ => none
  | ⟨found, .behindQuote content⟩ => some (found ++ [String.ofList content])

end LiteralReader

/-- The contents of the literals of a text in order, unless the last one does not end. -/
def literalContents (s : String) : Option (List String) :=
  (LiteralReader.start.read s.toList).finish

example : literalContents "a = 'o''brien' OR b IN ('', '''')" = some ["o'brien", "", "'"] := by
  decide

example : literalContents "a = 'o''" = none := by decide

/-- A text without quotes, which can stand in a literal or outside of all as it is. -/
def IsPlain (cs : List Char) : Prop := '\'' ∉ cs

instance (cs : List Char) : Decidable (IsPlain cs) := inferInstanceAs (Decidable (_ ∉ _))

@[simp] theorem isPlain_nil : IsPlain [] := by simp [IsPlain]

@[simp] theorem isPlain_cons {c : Char} {cs : List Char} :
    IsPlain (c :: cs) ↔ c ≠ '\'' ∧ IsPlain cs := by
  simp [IsPlain, eq_comm]

@[simp] theorem isPlain_append {cs ds : List Char} :
    IsPlain (cs ++ ds) ↔ IsPlain cs ∧ IsPlain ds := by
  simp [IsPlain]

theorem isPlain_of_forall {p : Char → Bool} {cs : List Char} (hp : p '\'' = false)
    (h : ∀ c ∈ cs, p c = true) : IsPlain cs := by
  intro hmem
  have hq := h _ hmem
  rw [hp] at hq
  contradiction

theorem isPlain_intercalate {separator : List Char} {parts : List (List Char)}
    (hs : IsPlain separator) (hp : ∀ part ∈ parts, IsPlain part) :
    IsPlain (separator.intercalate parts) := by
  induction parts with
  | nil => simp
  | cons part rest ih =>
    have hpart := hp part (by simp)
    have hrest := ih fun other hother => hp other (by simp [hother])
    cases rest with
    | nil => simpa using hpart
    | cons next rest => simpa using ⟨hpart, hs, hrest⟩

namespace LiteralReader

@[simp] theorem read_nil (reader : LiteralReader) : reader.read [] = reader := rfl

theorem read_append (reader : LiteralReader) (cs ds : List Char) :
    reader.read (cs ++ ds) = (reader.read cs).read ds := by
  simp [read]

theorem read_cons (reader : LiteralReader) (c : Char) (cs : List Char) :
    reader.read (c :: cs) = (reader.step c).read cs := rfl

/-- Plain text outside of literals is passed over. -/
theorem read_outside (found : List String) {cs : List Char} (h : IsPlain cs) :
    read ⟨found, .outside⟩ cs = ⟨found, .outside⟩ := by
  induction cs with
  | nil => rfl
  | cons c cs ih =>
    obtain ⟨hc, hcs⟩ := isPlain_cons.mp h
    rw [read_cons, step, if_neg hc]
    exact ih hcs

/-- Plain text within a literal belongs to its content. -/
theorem read_inside (found : List String) (content : List Char) {cs : List Char}
    (h : IsPlain cs) :
    read ⟨found, .inside content⟩ cs = ⟨found, .inside (content ++ cs)⟩ := by
  induction cs generalizing content with
  | nil => simp
  | cons c cs ih =>
    obtain ⟨hc, hcs⟩ := isPlain_cons.mp h
    rw [read_cons, step, if_neg hc, ih _ hcs]
    simp

/-- Text with doubled quotes belongs to the content with single ones, whatever it is. -/
theorem read_doubled (found : List String) (content cs : List Char) :
    read ⟨found, .inside content⟩ (cs.flatMap doubled) = ⟨found, .inside (content ++ cs)⟩ := by
  induction cs generalizing content with
  | nil => simp
  | cons c cs ih =>
    rw [List.flatMap_cons, read_append]
    have hc : read ⟨found, .inside content⟩ (doubled c) = ⟨found, .inside (content ++ [c])⟩ := by
      by_cases h : c = '\''
      · subst h
        rfl
      · simp [doubled, h, read, step]
    rw [hc, ih]
    simp

/-- A literal is read up to its last quote. -/
theorem read_literal (found : List String) (s : String) :
    read ⟨found, .outside⟩ (literal s).toList = ⟨found, .behindQuote s.toList⟩ := by
  simp only [literal, literalChars, String.toList_ofList, List.cons_append]
  rw [read_cons]
  change read ⟨found, .inside []⟩ _ = _
  rw [read_append, read_doubled]
  rfl

/-- What follows a literal ends it, unless that begins with a quote. -/
theorem read_behindQuote (found : List String) (content : List Char) {c : Char} {cs : List Char}
    (h : IsPlain (c :: cs)) :
    read ⟨found, .behindQuote content⟩ (c :: cs) =
      ⟨found ++ [String.ofList content], .outside⟩ := by
  obtain ⟨hc, hcs⟩ := isPlain_cons.mp h
  rw [read_cons, step, if_neg hc]
  exact read_outside _ hcs

/-- Two literals with plain contents, between texts that open the first and end the second. -/
theorem read_pair (found : List String) {opening first second closing : String}
    (hopen : read ⟨found, .outside⟩ opening.toList = ⟨found, .inside []⟩)
    (hfirst : IsPlain first.toList) (hsecond : IsPlain second.toList)
    (hclose : ∀ found content, read ⟨found, .inside content⟩ closing.toList =
      ⟨found ++ [String.ofList content], .outside⟩) :
    read ⟨found, .outside⟩ (opening ++ first ++ "', '" ++ second ++ closing).toList =
      ⟨found ++ [first, second], .outside⟩ := by
  have hnext (content : List Char) : read ⟨found, .inside content⟩ "', '".toList =
      ⟨found ++ [String.ofList content], .inside []⟩ := by simp [read, step]
  simp only [String.toList_append, read_append, hopen, read_inside _ _ hfirst, hnext,
    read_inside _ _ hsecond, hclose, List.nil_append, String.ofList_toList, List.append_assoc,
    List.singleton_append]

end LiteralReader
end CalendarRollup.Text
