import CalendarRollup.Proofs.Rollup.Requests

/-! The ids that a payload gives. An id is a text or a number, and a filter has one id that stands
alone, or the ids of a list in their order. -/
namespace CalendarRollup

namespace Json

theorem Number.decimalChars_ne_nil (d : Binary64.Decimal) : Number.decimalChars d ≠ [] := by
  simp only [Number.decimalChars]
  split_ifs <;> simp

theorem Number.floatChars_ne_nil (x : Binary64) : Number.floatChars x ≠ [] := by
  have hshortest := decimalChars_ne_nil x.shortest
  simp only [Number.floatChars]
  split_ifs <;> simp [hshortest]

theorem Number.chars_ne_nil (n : Number) : n.chars ≠ [] := by
  cases n with
  | integer i =>
    simp only [Number.chars, Numeral.ofInt]
    split_ifs
    · exact List.cons_ne_nil _ _
    · exact Nat.toDigits_ne_nil
  | float x => exact floatChars_ne_nil x

theorem render_number_ne_empty (n : Number) : (Json.number n).render ≠ "" := by
  intro h
  have hchars := congrArg String.toList h
  rw [render, String.toList_ofList, Json.chars] at hchars
  exact n.chars_ne_nil hchars

end Json

namespace Payload

/-- The text that a value names an entity by: its own, or the digits of a number. -/
inductive Names : Json → String → Prop
  | text {id : String} (some : id ≠ "") : Names (.text id) id
  | number (n : Json.Number) : Names (.number n) (Json.number n).render

/-- The filter that a value asks for. Only a list asks for a list, and it may have a single id. -/
inductive Identifies : Json → IdFilter → Prop
  | single {value : Json} {id : String} (names : Names value id) : Identifies value (.single id)
  | many {values : List Json} {ids : List String} (names : List.Forall₂ Names values ids)
    (some : ids ≠ []) : Identifies (.array values) (.many ids)

section
variable {column id : String} {value : Json} {payload : Json.Members} {filter : IdFilter}

theorem Names.ne_empty (names : Names value id) : id ≠ "" := by
  cases names with
  | text some => exact some
  | number n => exact Json.render_number_ne_empty n

theorem id_eq_ok_iff : Payload.id column value = .ok id ↔ Names value id := by
  constructor
  · intro h
    unfold Payload.id at h
    split at h
    next =>
      split at h
      next => cases h
      next hsome =>
        cases h
        exact .text (by simpa using hsome)
    next n =>
      cases h
      exact .number n
    next => cases h
  · intro h
    cases h with
    | text some => simp [Payload.id, some]
    | number n => rfl

theorem ofValues_eq_ok_iff {values : List String} :
    IdFilter.ofValues values = .ok filter ↔ values ≠ [] ∧ filter = .many values := by
  unfold IdFilter.ofValues
  cases values <;> simp [eq_comm]

theorem ids_eq_ok_iff : ids column payload = .ok filter ↔
    ∃ value, payload.get? column = some value ∧ Identifies value filter := by
  unfold ids
  constructor
  · intro h
    split at h
    next => cases h
    next => cases h
    next values found =>
      obtain ⟨texts, htexts, h⟩ := Except.bind_eq_ok.mp h
      obtain ⟨hsome, rfl⟩ := ofValues_eq_ok_iff.mp h
      refine ⟨_, found, .many ?_ hsome⟩
      exact (Except.mapM_eq_ok_iff.mp htexts).imp fun _ _ => id_eq_ok_iff.mp
    next value _ _ found =>
      cases hid : Payload.id column value with
      | error fault =>
        rw [hid] at h
        cases h
      | ok text =>
        rw [hid] at h
        cases h
        exact ⟨value, found, .single (id_eq_ok_iff.mp hid)⟩
  · rintro ⟨value, found, identifies⟩
    rw [found]
    cases identifies with
    | single names =>
      have hid : Payload.id column _ = .ok _ := id_eq_ok_iff.mpr names
      cases names <;> simp only [hid, Except.map]
    | many names some =>
      refine Except.bind_eq_ok.mpr ⟨_, ?_, ofValues_eq_ok_iff.mpr ⟨some, rfl⟩⟩
      exact Except.mapM_eq_ok_iff.mpr (names.imp fun _ _ => id_eq_ok_iff.mpr)

section Identifies
variable (identifies : Identifies value filter)
include identifies

theorem Identifies.values_ne_nil : filter.values ≠ [] := by
  cases identifies with
  | single => exact List.cons_ne_nil _ _
  | many _ some => exact some

theorem Identifies.empty_not_mem : "" ∉ filter.values := by
  intro hmem
  cases identifies with
  | single names => exact names.ne_empty (List.mem_singleton.mp hmem).symm
  | many names =>
    have hnames := names.flip.imp fun _ _ name => And.intro name.ne_empty name
    exact ((List.forall₂_and_left _ _).mp hnames).1 "" hmem rfl

theorem Identifies.many_iff : (∃ ids, filter = .many ids) ↔ ∃ values, value = .array values := by
  cases identifies with
  | single names => cases names <;> simp
  | many => simp

end Identifies
end
end Payload
end CalendarRollup
