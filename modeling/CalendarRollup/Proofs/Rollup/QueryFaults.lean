import CalendarRollup.Fault
import CalendarRollup.Proofs.Rollup.PayloadIds
import CalendarRollup.Proofs.Rollup.Resolution
import CalendarRollup.Proofs.Text.Blanks

/-! Which requests have no query, and why. For the request of a payload that is settled by the rules
of the plan alone. -/
namespace CalendarRollup
open Text

namespace RollupRequest

/-- Why rules are refused: there is none, or the first blank field, or where no field is blank the
first field with a quote. -/
inductive RulesRefused (rules : List Rule) : RequestFault → Prop
  | none (empty : rules = []) : RulesRefused rules .noRules
  | blank {before after : List Rule} {rule : Rule} (parts : rules = before ++ rule :: after)
    (earlier : ∀ other ∈ before, trim other.field ≠ "") (blank : trim rule.field = "") :
    RulesRefused rules (.blankField rule.function)
  | quoted {before after : List Rule} {rule : Rule} (parts : rules = before ++ rule :: after)
    (solid : ∀ other ∈ rules, trim other.field ≠ "")
    (earlier : ∀ other ∈ before, '\'' ∉ other.field.toList) (quote : '\'' ∈ rule.field.toList) :
    RulesRefused rules (.quotedField rule.field)

section
variable {rules : List Rule} {fault : RequestFault}

section First
variable {test : Rule → Bool} {P : Rule → Prop} (tests : ∀ rule, test rule = true ↔ P rule)
include tests

theorem find?_eq_some_iff_first {rule : Rule} : rules.find? test = some rule ↔
    P rule ∧ ∃ before after, rules = before ++ rule :: after ∧ ∀ other ∈ before, ¬ P other := by
  simp only [List.find?_eq_some_iff_append, Bool.not_eq_true', ← Bool.not_eq_true, tests]

theorem find?_eq_none_iff_of_tests : rules.find? test = none ↔ ∀ rule ∈ rules, ¬ P rule := by
  simp only [List.find?_eq_none, tests]

end First

theorem isAllBlank_field (rule : Rule) : isAllBlank rule.field = true ↔ trim rule.field = "" :=
  trim_eq_empty_iff.symm

theorem contains_quote (rule : Rule) :
    rule.field.toList.contains '\'' = true ↔ '\'' ∈ rule.field.toList := List.contains_iff_mem

theorem checkRules_eq_error_iff : checkRules rules = .error fault ↔ RulesRefused rules fault := by
  unfold checkRules
  constructor
  · intro h
    split at h
    next hempty =>
      cases h
      exact .none (List.isEmpty_iff.mp hempty)
    next =>
      split at h
      next rule hfound =>
        cases h
        obtain ⟨hblank, _, _, hparts, hbefore⟩ := (find?_eq_some_iff_first isAllBlank_field).mp hfound
        exact .blank hparts hbefore hblank
      next hnone =>
        -- A quote counts only once no field is blank, also where it stands before the blank one.
        have hsolid := (find?_eq_none_iff_of_tests isAllBlank_field).mp hnone
        split at h
        next rule hfound =>
          cases h
          obtain ⟨hquote, _, _, hparts, hbefore⟩ := (find?_eq_some_iff_first contains_quote).mp hfound
          exact .quoted hparts hsolid hbefore hquote
        next => cases h
  · intro h
    cases h with
    | none empty =>
      rw [empty]
      rfl
    | blank parts earlier blank =>
      have hfound := (find?_eq_some_iff_first isAllBlank_field).mpr ⟨blank, _, _, parts, earlier⟩
      rw [if_neg (by simp [parts]), hfound]
    | quoted parts solid earlier quote =>
      have hnone := (find?_eq_none_iff_of_tests isAllBlank_field).mpr solid
      have hfound := (find?_eq_some_iff_first contains_quote).mpr ⟨quote, _, _, parts, earlier⟩
      rw [if_neg (by simp [parts]), hnone]
      simp only [hfound]

theorem exists_rulesRefused_iff : (∃ fault, RulesRefused rules fault) ↔
    rules = [] ∨ (∃ rule ∈ rules, trim rule.field = "") ∨ ∃ rule ∈ rules, '\'' ∈ rule.field.toList := by
  constructor
  · rintro ⟨fault, refused⟩
    cases refused with
    | none empty => exact .inl empty
    | blank parts _ blank => exact .inr (.inl ⟨_, by simp [parts], blank⟩)
    | quoted parts _ _ quote => exact .inr (.inr ⟨_, by simp [parts], quote⟩)
  · intro h
    cases hcheck : checkRules rules with
    | error fault => exact ⟨fault, checkRules_eq_error_iff.mp hcheck⟩
    | ok =>
      obtain ⟨hsome, hsolid, hplain⟩ := (checkRules_eq_ok_iff rules).mp hcheck
      rcases h with hempty | ⟨rule, hrule, hblank⟩ | ⟨rule, hrule, hquote⟩
      · exact absurd hempty hsome
      · exact absurd hblank (isAllBlank_eq_false_iff.mp (hsolid rule hrule))
      · exact absurd hquote (hplain rule hrule)

theorem exists_predicate {ids : IdFilter} (some : ids.values ≠ []) (column : String) :
    ∃ predicate, ids.predicate column = .ok predicate := by
  unfold IdFilter.predicate
  split
  next hempty => exact absurd hempty some
  next => exact ⟨_, rfl⟩
  next => exact ⟨_, rfl⟩

/-- Where there is an id nothing but the rules can keep a request from having a query. -/
theorem query_eq_error_iff {request : RollupRequest} (some : request.ids.values ≠ []) :
    request.query = .error fault ↔ RulesRefused request.rules fault := by
  obtain ⟨predicate, hpredicate⟩ := exists_predicate some request.idColumn
  rw [← checkRules_eq_error_iff]
  unfold query rowSchema
  cases hcheck : checkRules request.rules with
  | error refusal =>
    constructor
    · intro h
      cases h
      rfl
    · intro h
      cases h
      rfl
  | ok =>
    rw [hpredicate]
    change (request.aggregation _ >>= _) = _ ↔ _
    rw [aggregation_eq]
    constructor
    · intro h
      cases h
    · intro h
      cases h

/-- A fault of the rules is told as one of the request. -/
theorem RulesRefused.ofRequest_eq (refused : RulesRefused rules fault) :
    Fault.ofRequest fault = .request fault := by
  cases refused <;> rfl

end
end RollupRequest

namespace RollupPlan
open RollupRequest

theorem identifies_of_request {plan : RollupPlan} {payload : Json} {now : Instant}
    {request : RollupRequest} (made : plan.request payload now = .ok request) :
    request.rules = plan.rules ∧ ∃ members value, Payload.members payload = .ok members ∧
      members.get? plan.idColumn = some value ∧ Payload.Identifies value request.ids := by
  obtain ⟨members, ids, _, _, hmembers, hids, _, _, rfl⟩ := request_eq_ok_iff.mp made
  obtain ⟨value, hvalue, identifies⟩ := Payload.ids_eq_ok_iff.mp hids
  exact ⟨rfl, members, value, hmembers, hvalue, identifies⟩

/-- The request of a payload has the payload's ids, in their order. There is at least one and none
is empty, and they are a list just where the payload has one. The request has no query just where
there is no rule, or a rule's field is blank or has a quote; the fault is then one of the rules, not
of the ids or the calendar. All payloads that make a request under a plan have the same fault, or
none. -/
theorem query_fault_of_request {plan : RollupPlan} {payload : Json} {now : Instant}
    {request : RollupRequest} (made : plan.request payload now = .ok request) :
    (∃ members value, Payload.members payload = .ok members ∧
      members.get? plan.idColumn = some value ∧ Payload.Identifies value request.ids ∧
      ((∃ ids, request.ids = .many ids) ↔ ∃ values, value = .array values)) ∧
    request.ids.values ≠ [] ∧ "" ∉ request.ids.values ∧
    ((∃ fault, request.query = .error fault) ↔ plan.rules = [] ∨
      (∃ rule ∈ plan.rules, trim rule.field = "") ∨
        ∃ rule ∈ plan.rules, '\'' ∈ rule.field.toList) ∧
    (∀ fault : Fault, request.query.mapError Fault.ofRequest = .error fault ↔
      ∃ refusal, RulesRefused plan.rules refusal ∧ fault = .request refusal) ∧
    request.query.mapError Fault.ofRequest ≠ .error (.request .noIds) ∧
    (∀ fault, request.query.mapError Fault.ofRequest ≠ .error (.calendar fault)) ∧
    (∀ payload' now' request', plan.request payload' now' = .ok request' →
      ∀ fault, request'.query = .error fault ↔ request.query = .error fault) := by
  obtain ⟨hrules, members, value, hmembers, hvalue, identifies⟩ := identifies_of_request made
  have hquery : ∀ fault, request.query = .error fault ↔ RulesRefused plan.rules fault := fun fault =>
    hrules ▸ query_eq_error_iff identifies.values_ne_nil
  have hfault : ∀ fault : Fault, request.query.mapError Fault.ofRequest = .error fault ↔
      ∃ refusal, RulesRefused plan.rules refusal ∧ fault = .request refusal := by
    intro fault
    rw [Except.mapError_eq_error_iff]
    constructor
    · rintro ⟨refusal, hrefusal, rfl⟩
      have refused := (hquery refusal).mp hrefusal
      exact ⟨refusal, refused, refused.ofRequest_eq⟩
    · rintro ⟨refusal, refused, rfl⟩
      exact ⟨refusal, (hquery refusal).mpr refused, refused.ofRequest_eq.symm⟩
  refine ⟨⟨members, value, hmembers, hvalue, identifies, identifies.many_iff⟩,
    identifies.values_ne_nil, identifies.empty_not_mem, ?_, hfault, ?_, ?_, ?_⟩
  · simp only [hquery, exists_rulesRefused_iff]
  · rw [ne_eq, hfault]
    rintro ⟨_, refused, hsame⟩
    cases hsame
    cases refused
  · intro fault
    rw [ne_eq, hfault]
    rintro ⟨_, _, hsame⟩
    cases hsame
  · intro payload' now' request' made' fault
    obtain ⟨hrules', _, _, _, _, identifies'⟩ := identifies_of_request made'
    rw [hquery, query_eq_error_iff identifies'.values_ne_nil, hrules']

/-- A plan whose second rule has a field of blanks and whose third has one with a quote. -/
def refusedPlan : RollupPlan where
  table := "readings"
  idColumn := "sensor"
  timeColumn := "measured"
  rules := [⟨"temp", .max⟩, ⟨"\t ", .sum⟩, ⟨"d.o'clock", .avg⟩]
  mode := .continuous
  calendar := SamplingBucket.oneMonth.calendar
  lookback := ⟨3, .day, by decide⟩
  endTime := .payloadTimestamp
  provisionTimeoutSecs := 0

/-- One number in a list, and both bounds. -/
def numberedPayload : Json :=
  .object [("start", .ofNat 1711929600000), ("sensor", .array [.ofNat 7]),
    ("end", .ofNat 1711843200000)]

/-- The payload makes a request, which has no query for the blank field. -/
theorem query_fault_of_request_blank : ∃ request,
    refusedPlan.request numberedPayload Instant.earliest = .ok request ∧
      request.ids = .many ["7"] ∧
      request.query.mapError Fault.ofRequest = .error (.request (.blankField .sum)) := by
  obtain ⟨request, made, hids⟩ : ∃ request,
      refusedPlan.request numberedPayload Instant.earliest = .ok request ∧
        request.ids = .many ["7"] := ⟨_, rfl, rfl⟩
  obtain ⟨_, _, _, _, hfault, _⟩ := query_fault_of_request made
  have parts : refusedPlan.rules =
      [⟨"temp", .max⟩] ++ ⟨"\t ", .sum⟩ :: [⟨"d.o'clock", .avg⟩] := rfl
  have refused : RulesRefused refusedPlan.rules (.blankField .sum) :=
    .blank parts (by decide) rfl
  exact ⟨request, made, hids, (hfault _).mpr ⟨_, refused, rfl⟩⟩

end RollupPlan
end CalendarRollup
