import CalendarRollup.Proofs.Json.Reading
import CalendarRollup.Proofs.Rollup.PayloadIds
import CalendarRollup.Proofs.Rollup.Resolution

/-! What a request reads of its payload: the ids, the two bounds, and the timestamp where the policy
ends windows at it. All other fields are passed over, and so is the time of processing unless the
window ends then. Two bounds settle the window, but a timestamp that the policy asks for is read
before it is known whether it is needed. -/
namespace CalendarRollup

namespace Payload

/-- What stands under a key. A null is as good as nothing. -/
def given? (payload : Json.Members) (key : String) : Option Json :=
  match payload.get? key with
  | none | some .null => none
  | some value => some value

/-- There is a timestamp under a key, and it can be read. -/
def HasTimestamp (payload : Json.Members) (key : String) (t : Instant) : Prop :=
  ∃ value, payload.get? key = some value ∧ Instant.ofJson value = .ok t

/-- The timestamp of the payload, under the one policy that asks for it. -/
def reference (policy : EndTime) (payload : Json.Members) : Except RequestFault (Option Instant) :=
  match policy with
  | .payloadTimestamp => timestamp? "timestamp" payload
  | _ => .ok none

/-- The policy asks for a timestamp, and the payload has something else in its place. -/
def MisreadsReference (policy : EndTime) (payload : Json.Members) (fault : RequestFault) : Prop :=
  policy = .payloadTimestamp ∧
    ∃ value, given? payload "timestamp" = some value ∧ Instant.ofJson value = .error fault

/-- Two payloads that a plan tells no difference between. -/
structure Alike (policy : EndTime) (idColumn : String) (a b : Json.Members) : Prop where
  ids : given? a idColumn = given? b idColumn
  start : given? a "start" = given? b "start"
  finish : given? a "end" = given? b "end"
  reference : policy = .payloadTimestamp → given? a "timestamp" = given? b "timestamp"

section
variable {policy : EndTime} {column key : String} {payload a b : Json.Members} {value : Json}
  {t : Instant} {fault : RequestFault}

theorem members_of_object {text : String} {members : Json.Members}
    (object : Json.IsTextOf (.object members) text) :
    Payload.members (.text text) = .ok members := by
  simp only [Payload.members, Json.parse?_eq_some_iff.mpr object]

theorem members_of_not_object {text : String}
    (other : ∀ members, ¬ Json.IsTextOf (.object members) text) :
    Payload.members (.text text) = .error .payloadTextNotObject := by
  unfold Payload.members
  dsimp only
  split
  next members hparse => exact absurd (Json.parse?_eq_some_iff.mp hparse) (other members)
  next => rfl

theorem given?_eq_some_iff :
    given? payload key = some value ↔ payload.get? key = some value ∧ value ≠ .null := by
  unfold given?
  split
  next missing => simp [missing]
  next null =>
    rw [null]
    constructor
    · intro h
      cases h
    · rintro ⟨h, hnull⟩
      cases h
      exact absurd rfl hnull
  next other hnull found =>
    rw [found]
    constructor
    · intro h
      cases h
      exact ⟨rfl, hnull⟩
    · exact And.left

theorem given?_eq_none_iff : given? payload key = none ↔
    payload.get? key = none ∨ payload.get? key = some .null := by
  unfold given?
  split
  next missing => simp [missing]
  next null => simp [null]
  next other hnull found => simpa [found] using hnull

theorem timestamp?_of_none (missing : given? payload key = none) :
    timestamp? key payload = .ok none := by
  rcases given?_eq_none_iff.mp missing with h | h <;> simp only [timestamp?, h]

theorem timestamp?_of_some (found : given? payload key = some value) :
    timestamp? key payload = (Instant.ofJson value).map some := by
  obtain ⟨hvalue, hnull⟩ := given?_eq_some_iff.mp found
  unfold timestamp?
  rw [hvalue]
  cases value with
  | null => exact absurd rfl hnull
  | _ => rfl

theorem timestamp?_congr (same : given? a key = given? b key) :
    timestamp? key a = timestamp? key b := by
  cases hb : given? b key with
  | none => rw [timestamp?_of_none (same.trans hb), timestamp?_of_none hb]
  | some value => rw [timestamp?_of_some (same.trans hb), timestamp?_of_some hb]

theorem ids_of_none (missing : given? payload column = none) :
    ids column payload = .error (.missingId column) := by
  rcases given?_eq_none_iff.mp missing with h | h <;> simp only [ids, h]

theorem ids_congr (same : given? a column = given? b column) : ids column a = ids column b := by
  cases hb : given? b column with
  | none => rw [ids_of_none (same.trans hb), ids_of_none hb]
  | some value =>
    obtain ⟨ha, _⟩ := given?_eq_some_iff.mp (same.trans hb)
    obtain ⟨hb, _⟩ := given?_eq_some_iff.mp hb
    unfold ids
    rw [ha, hb]

theorem timestamp?_eq_some_iff :
    timestamp? key payload = .ok (some t) ↔ HasTimestamp payload key t := by
  constructor
  · intro h
    cases hgiven : given? payload key with
    | none =>
      rw [timestamp?_of_none hgiven] at h
      cases h
    | some value =>
      rw [timestamp?_of_some hgiven] at h
      cases hread : Instant.ofJson value with
      | error fault =>
        rw [hread] at h
        cases h
      | ok t' =>
        rw [hread] at h
        cases h
        exact ⟨value, (given?_eq_some_iff.mp hgiven).1, hread⟩
  · rintro ⟨value, hvalue, hread⟩
    have hnull : value ≠ .null := by
      rintro rfl
      cases hread
    rw [timestamp?_of_some (given?_eq_some_iff.mpr ⟨hvalue, hnull⟩), hread]
    rfl

theorem timestamp?_eq_error_iff : timestamp? key payload = .error fault ↔
    ∃ value, given? payload key = some value ∧ Instant.ofJson value = .error fault := by
  cases hgiven : given? payload key with
  | none => simp [timestamp?_of_none hgiven]
  | some value =>
    rw [timestamp?_of_some hgiven]
    cases hread : Instant.ofJson value <;> simp [Except.map, hread]

theorem reference_congr (same : policy = .payloadTimestamp →
    given? a "timestamp" = given? b "timestamp") : reference policy a = reference policy b := by
  cases policy with
  | payloadTimestamp => exact timestamp?_congr (same rfl)
  | _ => rfl

theorem reference_eq_error_iff :
    reference policy payload = .error fault ↔ MisreadsReference policy payload fault := by
  unfold MisreadsReference
  rw [← timestamp?_eq_error_iff]
  cases policy <;> simp [reference]

theorem windowRequest_eq (policy : EndTime) (payload : Json.Members) :
    windowRequest policy payload = do
      let reference ← reference policy payload
      let start ← timestamp? "start" payload
      let finish ← timestamp? "end" payload
      return { start, finish, reference } := by
  cases policy <;> rfl

theorem windowRequest_congr (alike : Alike policy column a b) :
    windowRequest policy a = windowRequest policy b := by
  rw [windowRequest_eq, windowRequest_eq, reference_congr alike.reference,
    timestamp?_congr alike.start, timestamp?_congr alike.finish]

theorem finish_of_windowRequest {asked : WindowRequest}
    (read : windowRequest policy payload = .ok asked) :
    timestamp? "end" payload = .ok asked.finish := by
  rw [windowRequest_eq] at read
  obtain ⟨_, _, read⟩ := Except.bind_eq_ok.mp read
  obtain ⟨_, _, read⟩ := Except.bind_eq_ok.mp read
  obtain ⟨_, hfinish, read⟩ := Except.bind_eq_ok.mp read
  cases read
  exact hfinish

theorem windowRequest_of_bounds {start finish : Instant}
    (starts : HasTimestamp payload "start" start) (ends : HasTimestamp payload "end" finish) :
    windowRequest policy payload =
      (reference policy payload).map fun reference => ⟨some start, some finish, reference⟩ := by
  rw [windowRequest_eq, timestamp?_eq_some_iff.mpr starts, timestamp?_eq_some_iff.mpr ends]
  cases reference policy payload <;> rfl

end
end Payload

theorem Window.exists_between {start finish : Instant} (differ : start ≠ finish) :
    ∃ window, Window.between start finish = .ok window := by
  cases h : Window.between start finish with
  | ok window => exact ⟨window, rfl⟩
  | error fault => exact absurd (Window.between_eq_error_iff.mp h).1 differ

namespace WindowRequest

/-- The time of processing counts only where a window has no end of its own and the policy is
`now`. -/
theorem resolve_of_settled {asked : WindowRequest} {policy : EndTime}
    (settled : policy ≠ .now ∨ ∃ finish, asked.finish = some finish) (lookback : Lookback)
    (now now' : Instant) :
    asked.resolve policy lookback now = asked.resolve policy lookback now' := by
  have hfinish : asked.finishBy policy now = asked.finishBy policy now' := by
    unfold finishBy
    cases hasked : asked.finish with
    | some finish => rfl
    | none =>
      rcases settled with hpolicy | ⟨finish, hgiven⟩
      · cases policy with
        | now => exact absurd rfl hpolicy
        | _ => rfl
      · rw [hasked] at hgiven
        cases hgiven
  rw [resolve, resolve, hfinish]

end WindowRequest

namespace RollupPlan
open Payload

section
variable {plan : RollupPlan} {payload : Json}

theorem request_of_members {members : Json.Members}
    (hmembers : Payload.members payload = .ok members) (now : Instant) :
    plan.request payload now = do
      let ids ← Payload.ids plan.idColumn members
      let asked ← windowRequest plan.endTime members
      let window ← asked.resolve plan.endTime plan.lookback now
      return {
        table := plan.table, idColumn := plan.idColumn, ids, timeColumn := plan.timeColumn,
        rules := plan.rules, mode := plan.mode, calendar := plan.calendar, window } := by
  unfold request
  rw [hmembers]
  rfl

theorem request_congr {a b : Json.Members} (alike : Alike plan.endTime plan.idColumn a b)
    (now : Instant) : plan.request (.object a) now = plan.request (.object b) now := by
  rw [request_of_members rfl, request_of_members rfl, ids_congr alike.ids,
    windowRequest_congr alike]

theorem request_of_settled (settled : plan.endTime ≠ .now ∨ ∃ members finish,
      Payload.members payload = .ok members ∧ HasTimestamp members "end" finish)
    (now now' : Instant) : plan.request payload now = plan.request payload now' := by
  refine Except.bind_congr fun members hmembers => ?_
  refine Except.bind_congr fun ids _ => Except.bind_congr fun asked hasked => ?_
  have hsettled : plan.endTime ≠ .now ∨ ∃ finish, asked.finish = some finish := by
    refine settled.imp_right ?_
    rintro ⟨members', finish, hmembers', ends⟩
    cases hmembers.symm.trans hmembers'
    have hfinish := finish_of_windowRequest hasked
    rw [timestamp?_eq_some_iff.mpr ends] at hfinish
    exact ⟨finish, (Except.ok.inj hfinish).symm⟩
  rw [WindowRequest.resolve_of_settled hsettled plan.lookback now now']

/-- Two bounds settle the window, as soon as the policy has read the timestamp that it asks for. -/
theorem request_eq_of_bounds {members : Json.Members} {ids : IdFilter} {start finish : Instant}
    (hmembers : Payload.members payload = .ok members)
    (hids : Payload.ids plan.idColumn members = .ok ids)
    (starts : HasTimestamp members "start" start) (ends : HasTimestamp members "end" finish)
    (now : Instant) :
    plan.request payload now = do
      let _ ← Payload.reference plan.endTime members
      let window ← Window.between start finish
      return {
        table := plan.table, idColumn := plan.idColumn, ids, timeColumn := plan.timeColumn,
        rules := plan.rules, mode := plan.mode, calendar := plan.calendar, window } := by
  rw [request_of_members hmembers, hids, windowRequest_of_bounds starts ends]
  -- The timestamp comes first: its fault is out before the bounds are made use of.
  cases Payload.reference plan.endTime members with
  | error fault => rfl
  | ok reference =>
    change (WindowRequest.resolve _ _ _ _ >>= _) = _
    rw [WindowRequest.resolve_of_bounds rfl rfl]
    rfl

end

/-- A request reads the ids, the bounds, and under one policy the timestamp. Payloads that agree on
these make the same request, or fail alike. The time of processing counts only where the policy ends
windows at it and the payload has no end of its own. A text stands for the object that it is the
text of, and is refused where it is no object's. -/
theorem request_of_payload (plan : RollupPlan) :
    (∀ a b, Alike plan.endTime plan.idColumn a b → ∀ now,
      plan.request (.object a) now = plan.request (.object b) now) ∧
    (∀ payload, (plan.endTime ≠ .now ∨ ∃ members finish, Payload.members payload = .ok members ∧
      HasTimestamp members "end" finish) → ∀ now now',
        plan.request payload now = plan.request payload now') ∧
    (∀ text members, Json.IsTextOf (.object members) text → ∀ now,
      plan.request (.text text) now = plan.request (.object members) now) ∧
    (∀ text, (∀ members, ¬ Json.IsTextOf (.object members) text) → ∀ now,
      plan.request (.text text) now = .error .payloadTextNotObject) := by
  refine ⟨fun a b => request_congr, fun payload => request_of_settled, ?_, ?_⟩
  · intro text members object now
    rw [request_of_members (members_of_object object), request_of_members rfl]
  · intro text other now
    unfold request
    rw [members_of_not_object other]
    rfl

/-- A plan under which the ids of payloads are the timestamps that their windows end at. -/
def stampedPlan : RollupPlan where
  table := "readings"
  idColumn := "timestamp"
  timeColumn := "measured"
  rules := [⟨"temp", .max⟩]
  mode := .discrete
  calendar := SamplingBucket.oneHour.calendar
  lookback := ⟨2, .day, by decide⟩
  endTime := .payloadTimestamp
  provisionTimeoutSecs := 0

/-- Two payloads with one timestamp make one request at any times, and so does the text of one. -/
theorem request_of_payload_stamped : ∃ request,
    stampedPlan.request (.object [("timestamp", .text "2024-02-01"), ("note", .bool true)])
      Instant.earliest = .ok request ∧
    stampedPlan.request (.object [("start", .null), ("timestamp", .text "2024-02-01")])
      Instant.latest = .ok request ∧
    stampedPlan.request (.text "\x7b\"start\": null, \"timestamp\": \"2024-02-01\"\x7d")
      Instant.latest = .ok request := by
  obtain ⟨hagree, hsettled, htext, _⟩ := request_of_payload stampedPlan
  have hmade : stampedPlan.request (.object [("timestamp", .text "2024-02-01"),
      ("note", .bool true)]) Instant.earliest = .ok _ := rfl
  have halike : Alike stampedPlan.endTime stampedPlan.idColumn
      [("timestamp", .text "2024-02-01"), ("note", .bool true)]
      [("start", .null), ("timestamp", .text "2024-02-01")] := ⟨rfl, rfl, rfl, fun _ => rfl⟩
  have hother : stampedPlan.endTime ≠ .now := by decide
  have object : Json.IsTextOf (.object [("start", .null), ("timestamp", .text "2024-02-01")])
      "\x7b\"start\": null, \"timestamp\": \"2024-02-01\"\x7d" :=
    Json.parse?_eq_some_iff.mp (by with_unfolding_all rfl)
  have hlater := hsettled (.object [("start", .null), ("timestamp", .text "2024-02-01")])
    (.inl hother) Instant.latest Instant.earliest
  rw [← hagree _ _ halike] at hlater
  exact ⟨_, hmade, hlater.trans hmade, (htext _ _ object _).trans (hlater.trans hmade)⟩

/-- Two bounds that differ are the window of the request, the earlier one first, whatever the
lookback and the time of processing. Under the policy that asks for a timestamp the request is still
refused where that cannot be read; under all others it never is. -/
theorem request_of_bounds {plan : RollupPlan} {payload : Json} {members : Json.Members}
    {value : Json} {ids : IdFilter} {start finish : Instant}
    (hmembers : Payload.members payload = .ok members)
    (found : members.get? plan.idColumn = some value) (identifies : Identifies value ids)
    (starts : HasTimestamp members "start" start) (ends : HasTimestamp members "end" finish)
    (differ : start ≠ finish) (now : Instant) :
    (∀ fault, plan.request payload now = .error fault ↔
      MisreadsReference plan.endTime members fault) ∧
    ((∀ fault, ¬ MisreadsReference plan.endTime members fault) →
      ∃ request, plan.request payload now = .ok request ∧ request.ids = ids ∧
        (start < finish ∧ request.window.start = start ∧ request.window.finish = finish ∨
          finish < start ∧ request.window.start = finish ∧ request.window.finish = start)) := by
  have hids := ids_eq_ok_iff.mpr ⟨value, found, identifies⟩
  obtain ⟨window, hwindow⟩ := Window.exists_between differ
  rw [request_eq_of_bounds hmembers hids starts ends, hwindow]
  simp only [← reference_eq_error_iff]
  cases Payload.reference plan.endTime members with
  | error fault =>
    refine ⟨fun other => ?_, fun read => absurd rfl (read fault)⟩
    constructor
    · intro h
      cases h
      rfl
    · intro h
      cases h
      rfl
  | ok reference =>
    refine ⟨fun fault => ?_, fun _ => ⟨_, rfl, rfl, Window.between_eq_ok_iff.mp hwindow⟩⟩
    constructor
    · intro h
      cases h
    · intro h
      cases h

/-- A plan that looks back further than there are instants. -/
def farPlan (endTime : EndTime) : RollupPlan :=
  { stampedPlan with idColumn := "sensor", lookback := ⟨4294967295, .year, by decide⟩, endTime }

/-- The bounds of a day, the later one first, and a timestamp that is none. -/
def boundedMembers : Json.Members :=
  [("sensor", .text "a"), ("timestamp", .text "last tuesday"), ("start", .ofNat 1706832000000),
    ("end", .ofNat 1706745600000)]

/-- Two bounds are not always enough: a timestamp that nothing needs can refuse the request. -/
theorem not_request_of_bounds :
    ¬ ∀ (plan : RollupPlan) (payload : Json) (members : Json.Members) (value : Json)
      (ids : IdFilter) (start finish now : Instant), Payload.members payload = .ok members →
        members.get? plan.idColumn = some value → Identifies value ids →
        HasTimestamp members "start" start → HasTimestamp members "end" finish → start ≠ finish →
        ∃ request, plan.request payload now = .ok request ∧
          (start < finish ∧ request.window.start = start ∧ request.window.finish = finish ∨
            finish < start ∧ request.window.start = finish ∧ request.window.finish = start) := by
  intro settle
  have hrefused : (farPlan .payloadTimestamp).request (.object boundedMembers) Instant.earliest =
      .error (.unreadableTimestamp "last tuesday") := rfl
  obtain ⟨request, hmade, _⟩ := settle (farPlan .payloadTimestamp) (.object boundedMembers)
    boundedMembers (.text "a") (.single "a") ⟨1706832000, 0, by decide⟩ ⟨1706745600, 0, by decide⟩
    Instant.earliest rfl rfl (.single (.text (by decide))) ⟨_, rfl, rfl⟩ ⟨_, rfl, rfl⟩ (by decide)
  rw [hrefused] at hmade
  cases hmade

/-- The bounds settle the window whatever cannot be read or reached, unless the policy asks for the
timestamp. -/
theorem request_of_bounds_far :
    (∃ request, (farPlan (.fixed "soon")).request (.object boundedMembers) Instant.earliest =
        .ok request ∧
      request.window.start.seconds = 1706745600 ∧ request.window.finish.seconds = 1706832000) ∧
    (farPlan .payloadTimestamp).request (.object boundedMembers) Instant.earliest =
      .error (.unreadableTimestamp "last tuesday") := by
  have hmembers : Payload.members (.object boundedMembers) = .ok boundedMembers := rfl
  have found (endTime : EndTime) :
      boundedMembers.get? (farPlan endTime).idColumn = some (.text "a") := rfl
  have identifies : Identifies (.text "a") (.single "a") := .single (.text (by decide))
  have starts : HasTimestamp boundedMembers "start" ⟨1706832000, 0, by decide⟩ := ⟨_, rfl, rfl⟩
  have ends : HasTimestamp boundedMembers "end" ⟨1706745600, 0, by decide⟩ := ⟨_, rfl, rfl⟩
  constructor
  · obtain ⟨_, hmade⟩ := request_of_bounds hmembers (found (.fixed "soon")) identifies starts ends
      (by decide) Instant.earliest
    obtain ⟨request, hrequest, _, ⟨hlt, _⟩ | ⟨_, hstart, hfinish⟩⟩ := hmade fun _ h => by cases h.1
    · exact absurd hlt (by decide)
    · exact ⟨request, hrequest, congrArg Instant.seconds hstart, congrArg Instant.seconds hfinish⟩
  · obtain ⟨hrefused, _⟩ := request_of_bounds hmembers (found .payloadTimestamp) identifies starts
      ends (by decide) Instant.earliest
    exact (hrefused _).mpr ⟨rfl, _, rfl, rfl⟩

end RollupPlan
end CalendarRollup
