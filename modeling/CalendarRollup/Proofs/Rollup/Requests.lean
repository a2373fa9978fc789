import CalendarRollup.Proofs.Except
import CalendarRollup.Proofs.Text.Literals
import CalendarRollup.Rollup.Payload

/-! What a request is made of, which requests have a query, and the text of it. -/
namespace CalendarRollup
open Text

/-- A request takes its ids and its window from the payload and all else from the plan. -/
theorem RollupPlan.request_eq_ok_iff {plan : RollupPlan} {payload : Json} {now : Instant}
    {request : RollupRequest} : plan.request payload now = .ok request ↔
      ∃ members ids asked window, Payload.members payload = .ok members ∧
        Payload.ids plan.idColumn members = .ok ids ∧
        Payload.windowRequest plan.endTime members = .ok asked ∧
        asked.resolve plan.endTime plan.lookback now = .ok window ∧
        request = {
          table := plan.table, idColumn := plan.idColumn, ids, timeColumn := plan.timeColumn
          rules := plan.rules, mode := plan.mode, calendar := plan.calendar, window } := by
  unfold RollupPlan.request
  constructor
  · intro h
    obtain ⟨members, hmembers, h⟩ := Except.bind_eq_ok.mp h
    obtain ⟨ids, hids, h⟩ := Except.bind_eq_ok.mp h
    obtain ⟨asked, hasked, h⟩ := Except.bind_eq_ok.mp h
    obtain ⟨window, hwindow, h⟩ := Except.bind_eq_ok.mp h
    cases h
    exact ⟨members, ids, asked, window, hmembers, hids, hasked, hwindow, rfl⟩
  · rintro ⟨members, ids, asked, window, hmembers, hids, hasked, hwindow, rfl⟩
    refine Except.bind_eq_ok.mpr ⟨members, hmembers, Except.bind_eq_ok.mpr ⟨ids, hids, ?_⟩⟩
    exact Except.bind_eq_ok.mpr ⟨asked, hasked, Except.bind_eq_ok.mpr ⟨window, hwindow, rfl⟩⟩

namespace RollupRequest

theorem checkRules_eq_ok_iff (rules : List Rule) :
    checkRules rules = .ok () ↔
      rules ≠ [] ∧ (∀ rule ∈ rules, isAllBlank rule.field = false) ∧
        ∀ rule ∈ rules, IsPlain rule.field.toList := by
  unfold checkRules
  cases rules with
  | nil => simp
  | cons first rest =>
    rw [if_neg (by simp)]
    split
    next rule hblank =>
      have hmem := List.mem_of_find?_eq_some hblank
      have hall := List.find?_some hblank
      constructor
      · intro h
        cases h
      · rintro ⟨_, hblanks, _⟩
        rw [hblanks rule hmem] at hall
        cases hall
    next hblank =>
      have hblanks : ∀ rule ∈ first :: rest, isAllBlank rule.field = false := by
        simpa using List.find?_eq_none.mp hblank
      split
      next rule hquote =>
        have hmem := List.mem_of_find?_eq_some hquote
        have hcontains := List.find?_some hquote
        constructor
        · intro h
          cases h
        · rintro ⟨_, _, hplain⟩
          exact absurd (List.contains_iff_mem.mp hcontains) (hplain rule hmem)
      next hquote =>
        have hplain : ∀ rule ∈ first :: rest, IsPlain rule.field.toList := by
          simpa [IsPlain] using List.find?_eq_none.mp hquote
        exact ⟨fun _ => ⟨by simp, hblanks, hplain⟩, fun _ => rfl⟩

/-- The text that a request selects, over the bucket that its calendar has. -/
def selectedText (request : RollupRequest) (schema : String) : String :=
  match request.mode with
  | .discrete =>
    request.rawAggregation schema (ruleCalls request.rules) request.calendar.calendarName
  | .continuous =>
    seriesAggregation schema (columnCalls request.rules) request.calendar.calendarName
      (request.rawAggregation schema (averageCalls request.rules)
        request.calendar.samplingBucket.calendarName)

/-- No request fails for its calendar. -/
theorem aggregation_eq (request : RollupRequest) (schema : String) :
    request.aggregation schema = .ok (request.selectedText schema) := by
  unfold aggregation selectedText
  cases request.mode with
  | discrete => rfl
  | continuous =>
    rw [request.calendar.selectBucket_eq]
    rfl

/-- A query has rules that pass their check, and a condition on the ids. -/
theorem query_eq_ok_iff (request : RollupRequest) (statement : String) :
    request.query = .ok statement ↔
      checkRules request.rules = .ok () ∧
        ∃ predicate, request.ids.predicate request.idColumn = .ok predicate ∧
          statement = "SELECT t.* FROM TABLE(TRANSPOSE((SELECT " ++
            request.selectedText (", ".intercalate (columns request.rules)) ++ " FROM " ++
            request.table ++ " WHERE " ++ predicate ++ "))) AS tab(t);" := by
  unfold query rowSchema
  constructor
  · intro h
    obtain ⟨schema, hschema, h⟩ := Except.bind_eq_ok.mp h
    obtain ⟨_, hrules, hcolumns⟩ := Except.bind_eq_ok.mp hschema
    obtain ⟨aggregation, haggregation, h⟩ := Except.bind_eq_ok.mp h
    obtain ⟨predicate, hpredicate, htext⟩ := Except.bind_eq_ok.mp h
    cases hcolumns
    cases (aggregation_eq request _).symm.trans haggregation
    cases htext
    exact ⟨hrules, predicate, hpredicate, rfl⟩
  · rintro ⟨hrules, predicate, hpredicate, rfl⟩
    simp only [hrules, aggregation_eq, hpredicate]
    rfl

end RollupRequest
end CalendarRollup
