import CalendarRollup.Proofs.Text.Literals
import CalendarRollup.Proofs.Text.Readers

/-! Texts of the query language as literals with plain text in front of each. -/
namespace CalendarRollup.Text
open Reader

theorem isPlain_of_isName {cs : List Char} (h : IsName cs) : IsPlain cs :=
  isPlain_of_forall (by decide) h

theorem literal_of_isPlain {s : String} (h : IsPlain s.toList) : literal s = "'" ++ s ++ "'" := by
  have hdoubled : s.toList.flatMap doubled = s.toList := by
    generalize s.toList = cs at h
    induction cs with
    | nil => rfl
    | cons c cs ih =>
      obtain ⟨hc, hcs⟩ := isPlain_cons.mp h
      rw [List.flatMap_cons, ih hcs, doubled, if_neg hc, List.singleton_append]
  rw [← String.toList_inj]
  simp [literal, literalChars, hdoubled]

/-- A literal, and the text between it and the literal before. -/
structure Piece where
  lead : String
  content : String
  deriving DecidableEq, Repr

namespace Piece

def text (piece : Piece) : String := piece.lead ++ literal piece.content

def read (cs : Chars) : Option (Piece × Chars) := do
  let (lead, cs) := run (· != '\'') cs
  let (content, cs) ← quoted cs
  some (⟨lead, content⟩, cs)

/-- All literals of a text, each with what stands in front of it. -/
def readAll (cs : Chars) : List Piece := (repeated read cs.length cs).1

theorem ne_quote_of_isPlain {cs : Chars} (h : IsPlain cs) : ∀ c ∈ cs, (c != '\'') = true := by
  intro c hc
  have hne : c ≠ '\'' := fun heq => h (heq ▸ hc)
  simpa using hne

theorem read_text {piece : Piece} {rest : Chars} (plain : IsPlain piece.lead.toList)
    (h : Unquoted rest) : read (piece.text.toList ++ rest) = some (piece, rest) := by
  have hquote : (literal piece.content).toList =
      '\'' :: (piece.content.toList.flatMap doubled ++ ['\'']) := by
    simp [literal, literalChars]
  simp only [text, String.toList_append, List.append_assoc, read,
    run_append (ne_quote_of_isPlain plain) hquote rfl, quoted_literal piece.content h,
    Option.bind_eq_bind, Option.bind_some]

theorem read_of_isPlain {cs : Chars} (plain : IsPlain cs) : read cs = none := by
  have hend : cs.dropWhile (· != '\'') = [] := by
    rw [← List.append_nil cs, List.dropWhile_append_of_pos (ne_quote_of_isPlain plain)]
    rfl
  simp [read, run, hend, quoted, expect]

theorem unquoted_of_isPlain {cs : Chars} (plain : IsPlain cs) : Unquoted cs := by
  intro h
  exact plain (List.mem_of_mem_head? h)

/-- What stands in front of the literal has no quotes, and keeps it apart from the literal
before. -/
def IsApart (piece : Piece) : Prop := piece.lead ≠ "" ∧ IsPlain piece.lead.toList

theorem unquoted_flatMap {pieces : List Piece} {tail : Chars}
    (apart : ∀ piece ∈ pieces, piece.IsApart) (plain : IsPlain tail) :
    Unquoted (pieces.flatMap (fun piece => piece.text.toList) ++ tail) := by
  cases pieces with
  | nil => exact unquoted_of_isPlain plain
  | cons piece pieces =>
    obtain ⟨hne, hlead⟩ := apart piece List.mem_cons_self
    obtain ⟨c, cs, hcs⟩ := List.exists_cons_of_ne_nil (mt String.toList_eq_nil_iff.mp hne)
    rw [hcs] at hlead
    intro h
    simp only [List.flatMap_cons, text, String.toList_append, hcs, List.cons_append,
      List.head?_cons, Option.some.injEq] at h
    exact (isPlain_cons.mp hlead).1 h

theorem repeated_text {pieces : List Piece} {tail : Chars}
    (apart : ∀ piece ∈ pieces, piece.IsApart) (plain : IsPlain tail) (fuel : Nat)
    (enough : pieces.length ≤ fuel) :
    repeated read fuel (pieces.flatMap (fun piece => piece.text.toList) ++ tail) =
      (pieces, tail) := by
  induction pieces generalizing fuel with
  | nil =>
    cases fuel with
    | zero => rfl
    | succ fuel => simp [repeated, read_of_isPlain plain]
  | cons piece pieces ih =>
    cases fuel with
    | zero => simp at enough
    | succ fuel =>
      have hpieces : ∀ other ∈ pieces, other.IsApart :=
        fun other hother => apart other (List.mem_cons_of_mem _ hother)
      have hread := read_text (apart piece List.mem_cons_self).2 (unquoted_flatMap hpieces plain)
      have hrest := ih hpieces fuel (by simpa using enough)
      simp [repeated, hread, hrest, List.append_assoc]

/-- There is a character for every piece to be read from. -/
theorem repeated_length {pieces : List Piece} {tail : Chars}
    (apart : ∀ piece ∈ pieces, piece.IsApart) (plain : IsPlain tail) :
    repeated read (pieces.flatMap (fun piece => piece.text.toList) ++ tail).length
      (pieces.flatMap (fun piece => piece.text.toList) ++ tail) = (pieces, tail) := by
  have henough : pieces.length ≤ (pieces.flatMap fun piece => piece.text.toList).length :=
    length_le_flatMap pieces fun piece => by simp [text, literal, literalChars]
  exact repeated_text apart plain _ (by rw [List.length_append]; omega)

/-- A text that is put together from pieces is read back as these pieces. -/
theorem readAll_flatMap {pieces : List Piece} {tail : Chars}
    (apart : ∀ piece ∈ pieces, piece.IsApart) (plain : IsPlain tail) :
    readAll (pieces.flatMap (fun piece => piece.text.toList) ++ tail) = pieces := by
  rw [readAll, repeated_length apart plain]

/-- A piece without the content of its literal. -/
def emptied (piece : Piece) : Chars := piece.lead.toList ++ "''".toList

end Piece

/-- What is left of a text without the contents of its literals. -/
def withoutContents (cs : Chars) : Chars :=
  let (pieces, tail) := repeated Piece.read cs.length cs
  pieces.flatMap Piece.emptied ++ tail

example : withoutContents "f('o''b(', x) = ')'".toList = "f('', x) = ''".toList := by decide +kernel

theorem withoutContents_flatMap {pieces : List Piece} {tail : Chars}
    (apart : ∀ piece ∈ pieces, piece.IsApart) (plain : IsPlain tail) :
    withoutContents (pieces.flatMap (fun piece => piece.text.toList) ++ tail) =
      pieces.flatMap Piece.emptied ++ tail := by
  rw [withoutContents, Piece.repeated_length apart plain]

end CalendarRollup.Text
