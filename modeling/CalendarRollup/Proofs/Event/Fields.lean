import CalendarRollup.Ingest.Ingester
import CalendarRollup.Proofs.Json.Rendering

/-! The fields of the events that are sent: those that tell the outcome, then those that are carried
over from the event that came in. -/
namespace CalendarRollup
open Json

namespace InboundEvent
variable {event : InboundEvent} {key : String} {value : Json}

theorem mem_carried : (key, value) ∈ event.carried ↔ (key, value) ∈ event.rest ∧
    key ≠ "payload" ∧ key ≠ "error" ∧ key ≠ "statusCode" := by
  simp [carried, outcomeKeys]

theorem carried_sublist (event : InboundEvent) : event.carried.Sublist event.rest :=
  List.filter_sublist

theorem nodup_keys_carried (event : InboundEvent) : event.carried.keys.Nodup :=
  Members.nodup_keys_filter _ event.distinct

/-- A carried field has no key that tells an outcome. -/
theorem not_mem_outcomeKeys (event : InboundEvent) (h : key ∈ event.carried.keys) :
    key ∉ outcomeKeys := by
  obtain ⟨member, hmember, rfl⟩ := List.mem_map.mp h
  simpa using (List.mem_filter.mp hmember).2

/-- Of distinct keys, at most one is the payload's. -/
theorem length_filter_payload {members : Members} (nodup : members.keys.Nodup) :
    (members.filter (·.1 == "payload")).length ≤ 1 := by
  have hsame : Members.keys (members.filter (·.1 == "payload")) =
      List.replicate (members.filter (·.1 == "payload")).length "payload" := by
    refine List.eq_replicate_iff.mpr ⟨List.length_map _, fun key hkey => ?_⟩
    obtain ⟨member, hmember, rfl⟩ := List.mem_map.mp hkey
    simpa using (List.mem_filter.mp hmember).2
  have hnodup := Members.nodup_keys_filter (·.1 == "payload") nodup
  exact List.nodup_replicate.mp (hsame ▸ hnodup)

/-- Every object is an event, and its members without the payload are the event's other fields. -/
theorem exists_ofPairs? {members : Members} (nodup : members.keys.Nodup) :
    ∃ event, ofPairs? members = some event ∧
      event.rest = members.filter (·.1 != "payload") := by
  have hothers : Members.ofPairs (members.filter (·.1 != "payload")) =
      members.filter (·.1 != "payload") :=
    Members.ofPairs_of_nodup (Members.nodup_keys_filter _ nodup)
  have hlength := length_filter_payload nodup
  unfold ofPairs?
  split
  next => exact ⟨_, rfl, hothers⟩
  next => exact ⟨_, rfl, hothers⟩
  next hnone hone =>
    generalize members.filter (·.1 == "payload") = payloads at *
    match payloads with
    | [] => exact absurd rfl hnone
    | [(key, payload)] => exact absurd rfl (hone key payload)
    | _ :: _ :: _ => simp at hlength

/-- An object carries its members other than those that tell an outcome. -/
theorem exists_carried {members : Members} (nodup : members.keys.Nodup) :
    ∃ event, ofPairs? members = some event ∧
      event.carried = members.filter fun member => !outcomeKeys.contains member.1 := by
  obtain ⟨event, hevent, hrest⟩ := exists_ofPairs? nodup
  refine ⟨event, hevent, ?_⟩
  unfold carried
  rw [hrest, List.filter_filter]
  refine List.filter_congr fun member _ => ?_
  by_cases hpayload : member.1 = "payload" <;> simp [outcomeKeys, hpayload]

end InboundEvent

/-- What the handling of an event comes to: a rollup, or the storing of a record. -/
inductive Outcome where
  | rollup (result : Except Fault RollupResult)
  | ingest (result : Except Fault Response)

namespace Outcome
variable [Complaints]

def answer (outcome : Outcome) (event : InboundEvent) : OutboundEvent :=
  match outcome with
  | rollup result => .ofRollup result event
  | ingest result => .ofIngest result event

/-- The fields by which an event tells its outcome. -/
def fields : Outcome → Members
  | rollup (.ok result) => [("payload", result.toJson)]
  | ingest (.ok response) => [
      ("payload", (Json.parse? response.body).getD (.text response.body)),
      ("statusCode", .ofNat response.status.toNat
        (Nat.lt_trans response.status.toNat_lt (by decide)))]
  | rollup (.error fault) => [("error", .text fault.report)]
  | ingest (.error fault) => [("error", .text fault.report)]

variable (outcome : Outcome) (event : InboundEvent)

theorem toJson_answer :
    (outcome.answer event).toJson = .object (outcome.fields ++ event.carried) := by
  cases outcome with
  | rollup result => cases result <;> rfl
  | ingest result => cases result <;> rfl

theorem nodup_keys_fields : outcome.fields.keys.Nodup := by
  cases outcome with
  | rollup result => cases result <;> simp [fields, Members.keys]
  | ingest result => cases result <;> simp [fields, Members.keys]

theorem mem_outcomeKeys {key : String} (h : key ∈ outcome.fields.keys) :
    key ∈ InboundEvent.outcomeKeys := by
  cases outcome with
  | rollup result =>
    cases result <;> simp [fields, Members.keys] at h <;> simp [h, InboundEvent.outcomeKeys]
  | ingest result =>
    cases result <;> simp [fields, Members.keys] at h
    · simp [h, InboundEvent.outcomeKeys]
    · rcases h with rfl | rfl <;> simp [InboundEvent.outcomeKeys]

theorem payload_mem_iff :
    "payload" ∈ outcome.fields.keys ↔ "error" ∉ outcome.fields.keys := by
  cases outcome with
  | rollup result => cases result <;> simp [fields, Members.keys]
  | ingest result => cases result <;> simp [fields, Members.keys]

theorem keys_answer :
    Members.keys (outcome.fields ++ event.carried) =
      outcome.fields.keys ++ event.carried.keys := by
  simp [Members.keys]

theorem nodup_keys_answer : (Members.keys (outcome.fields ++ event.carried)).Nodup := by
  rw [keys_answer]
  refine List.nodup_append.mpr ⟨outcome.nodup_keys_fields, event.nodup_keys_carried, ?_⟩
  rintro key hfield _ hcarried rfl
  exact event.not_mem_outcomeKeys hcarried (outcome.mem_outcomeKeys hfield)

/-- Of an answer, just what was carried over is carried on. -/
theorem filter_answer :
    (outcome.fields ++ event.carried).filter
      (fun member => !InboundEvent.outcomeKeys.contains member.1) = event.carried := by
  have hfields : outcome.fields.filter
      (fun member => !InboundEvent.outcomeKeys.contains member.1) = [] := by
    refine List.filter_eq_nil_iff.mpr fun member hmember => ?_
    simpa using outcome.mem_outcomeKeys (List.mem_map_of_mem hmember)
  rw [List.filter_append, hfields, List.nil_append]
  unfold InboundEvent.carried
  rw [List.filter_filter]
  simp only [Bool.and_self]

/-- The line that answers an event is read as the members that were written. -/
theorem objectPairs_render (readable : ∀ member ∈ outcome.fields ++ event.carried,
    Readable Denotes (Parser.maxDepth - 1) member.2) :
    Parser.objectPairs (outcome.answer event).render.toList =
      some (outcome.fields ++ event.carried) := by
  obtain ⟨member, members, hmembers⟩ : ∃ member members,
      outcome.fields ++ event.carried = member :: members := by
    rcases outcome with (_ | _) | (_ | _) <;> exact ⟨_, _, rfl⟩
  rw [OutboundEvent.render, toJson_answer, Json.render, String.toList_ofList]
  rw [hmembers] at readable ⊢
  exact Parser.objectPairs_of_spells
    (spells_members member members fun other hother => (readable other hother).spells)

/-- The object that answers an event has distinct keys. First come those that tell the outcome, of
which either the payload or the error is one; then all fields of the event but those that could tell
one, in order and unchanged. An event that is read from the object carries the same fields again,
and it is the one that is read from the line, where the values of the object are readable. -/
theorem answer_fields :
    (outcome.answer event).toJson = .object (outcome.fields ++ event.carried) ∧
    (Members.keys (outcome.fields ++ event.carried)).Nodup ∧
    ("payload" ∈ Members.keys (outcome.fields ++ event.carried) ↔
      "error" ∉ Members.keys (outcome.fields ++ event.carried)) ∧
    event.carried.Sublist event.rest ∧
    (∀ key value, (key, value) ∈ event.carried ↔ (key, value) ∈ event.rest ∧
      key ≠ "payload" ∧ key ≠ "error" ∧ key ≠ "statusCode") ∧
    ∃ again, InboundEvent.ofPairs? (outcome.fields ++ event.carried) = some again ∧
      again.carried = event.carried ∧
      ((∀ member ∈ outcome.fields ++ event.carried,
          Readable Denotes (Parser.maxDepth - 1) member.2) →
        InboundEvent.parse? (outcome.answer event).render = some again) := by
  refine ⟨outcome.toJson_answer event, outcome.nodup_keys_answer event, ?_,
    event.carried_sublist, fun key value => InboundEvent.mem_carried, ?_⟩
  · have hpayload : "payload" ∉ event.carried.keys :=
      fun h => event.not_mem_outcomeKeys h (by decide)
    have herror : "error" ∉ event.carried.keys := fun h => event.not_mem_outcomeKeys h (by decide)
    rw [outcome.keys_answer event]
    simp only [List.mem_append, hpayload, herror, or_false]
    exact outcome.payload_mem_iff
  · obtain ⟨again, hagain, hcarried⟩ :=
      InboundEvent.exists_carried (outcome.nodup_keys_answer event)
    refine ⟨again, hagain, hcarried.trans (outcome.filter_answer event), fun readable => ?_⟩
    rw [InboundEvent.parse?, outcome.objectPairs_render event readable]
    exact hagain

end Outcome
end CalendarRollup
