import CalendarRollup.Ingest.Record
import CalendarRollup.Proofs.Json.Reading

/-! The record of a payload: a text is read once, and only what is no object is wrapped. -/
namespace CalendarRollup
open Json (Number)
open Json.Grammar

namespace Json

/-- Arrays inside one another, with nothing in the innermost. -/
def nested : Nat → Json
  | 0 => .array []
  | levels + 1 => .array [nested levels]

/-- One level for each bracket. -/
def brackets (levels : Nat) : List Char :=
  List.replicate levels '[' ++ List.replicate levels ']'

theorem spells_nested (reading : Parser.Token → Number → Prop) (levels : Nat) :
    Spells reading (levels + 1) (nested levels) (brackets (levels + 1)) := by
  induction levels with
  | zero => exact .emptyArray isGap_nil
  | succ levels ih =>
    have element : SpellsElement reading (levels + 1) (nested levels)
        ([] ++ brackets (levels + 1) ++ []) := .around nofun ih nofun
    have hbrackets : brackets (levels + 2) =
        '[' :: (([] ++ brackets (levels + 1) ++ []) ++ [']']) := by
      rw [List.nil_append, List.append_nil, brackets, brackets, List.replicate_succ,
        List.replicate_succ' (n := levels + 1)]
      simp
    rw [hbrackets]
    exact .array (.one element)

/-- No value is read that opens more arrays than are allowed. -/
theorem value_of_many (fuel depth : Nat) (rest : Parser.Chars) :
    Parser.value fuel depth (List.replicate (depth + 1) '[' ++ rest) = none := by
  induction depth generalizing fuel with
  | zero =>
    cases fuel with
    | zero => simp only [Parser.value]
    | succ fuel => simp [Parser.value, Parser.skipSpace, Parser.isSpace]
  | succ depth ih =>
    have hitems : ∀ fuel, Parser.items fuel depth (List.replicate (depth + 1) '[' ++ rest) = none := by
      intro fuel
      cases fuel with
      | zero => simp only [Parser.items]
      | succ fuel =>
        rw [Parser.items.eq_def]
        simp [ih]
    rw [List.replicate_succ, List.cons_append] at hitems ⊢
    cases fuel with
    | zero => simp only [Parser.value]
    | succ fuel =>
      simp [Parser.value, Parser.skipSpace, Parser.isSpace, List.replicate_succ, hitems]

theorem isText_brackets (levels : Nat) : IsText (String.ofList (brackets (levels + 1))) := by
  refine ⟨levels + 1, nested levels, ?_⟩
  rw [String.toList_ofList]
  exact (spells_nested (fun _ _ => True) levels).element

theorem parse?_brackets_eq_none (extra : Nat) :
    parse? (String.ofList (brackets (Parser.maxDepth + 1 + extra))) = none := by
  rw [parse?, String.toList_ofList, Parser.document]
  refine Option.bind_eq_none_iff.mpr fun found hread => ?_
  have hsplit : brackets (Parser.maxDepth + 1 + extra) = List.replicate (Parser.maxDepth + 1) '[' ++
      (List.replicate extra '[' ++ List.replicate (Parser.maxDepth + 1 + extra) ']') := by
    rw [brackets, ← List.append_assoc, List.replicate_append_replicate]
  rw [hsplit, value_of_many] at hread
  cases hread

end Json

namespace Record
open Json (IsText IsTextOf)

theorem ofPayload_text (s : String) :
    ofPayload (.text s) =
      match Json.parse? s with
      | some value => .ok (ofValue value)
      | none => .error (.textNotJson s) := rfl

theorem ofPayload_of_isTextOf {s : String} {v : Json} (isText : IsTextOf v s) :
    ofPayload (.text s) = .ok (ofValue v) := by
  rw [ofPayload_text, Json.parse?_eq_some_iff.mpr isText]

theorem ofPayload_eq_error_iff {payload : Json} {fault : RecordFault} :
    ofPayload payload = .error fault ↔ payload = .null ∧ fault = .noPayload ∨
      ∃ s, payload = .text s ∧ (¬ ∃ v, IsTextOf v s) ∧ fault = .textNotJson s := by
  cases payload with
  | null => simp [ofPayload, eq_comm]
  | text s =>
    have hread : (∃ v, IsTextOf v s) ↔ ∃ v, Json.parse? s = some v :=
      exists_congr fun _ => Json.parse?_eq_some_iff.symm
    simp only [Json.text.injEq, exists_eq_left', hread]
    cases hparse : Json.parse? s <;> simp [ofPayload, hparse, eq_comm]
  | _ => simp [ofPayload]

theorem exists_members (value : Json) : ∃ members, ofValue value = .object members := by
  cases value <;> exact ⟨_, rfl⟩

/-- What is stored is what a value gives. -/
theorem exists_of_ofPayload {payload record : Json} (stored : ofPayload payload = .ok record) :
    ∃ value, record = ofValue value := by
  cases payload with
  | null => cases stored
  | text s =>
    rw [ofPayload_text] at stored
    split at stored
    next value _ => exact ⟨value, (Except.ok.inj stored).symm⟩
    next => cases stored
  | _ => exact ⟨_, (Except.ok.inj stored).symm⟩

end Record
end CalendarRollup
