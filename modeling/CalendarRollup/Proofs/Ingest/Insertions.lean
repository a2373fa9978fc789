import CalendarRollup.Ingest.Ingester
import CalendarRollup.Proofs.Json.Reading
import CalendarRollup.Proofs.Provision.Runs

/-! Runs of an ingester, with any number of events whose insertions are answered in any order: every
record is inserted once, and every event is answered by what became of its own record. -/
namespace CalendarRollup.Ingester
/-- All that a new ingester can come to, and what has happened until then. -/
inductive Run (table : String) : List Label → Ingester → Prop
  | start : Run table [] (.new table)
  | step {labels : List Label} {i i' : Ingester} (run : Run table labels i) (label : Label)
    (stepped : i.step label = some i') : Run table (labels ++ [label]) i'

/-- The events that have arrived, in order; each is called by its place here. -/
def arrivals (labels : List Label) : List InboundEvent :=
  labels.filterMap fun
    | .arrive event => some event
    | .answer _ _ => none

/-- What has been answered to the insertion for an event. -/
def answers (index : Nat) (labels : List Label) : List Answer :=
  labels.filterMap fun
    | .arrive _ => none
    | .answer other answer => if other = index then some answer else none

/-- The commands that have been issued for an event. -/
def commands (i : Ingester) (index : Nat) : List Command :=
  i.issued.filterMap fun (other, command) => if other = index then some command else none

/-- Where the storing of an event's payload stands, by the commands issued for it and their
answers. -/
inductive Stored (table : String) :
    Option InboundEvent → List Command → List Answer → Option (InboundEvent × Ingesting) → Prop
  | absent : Stored table none [] [] none
  | refused (event : InboundEvent) {fault : RecordFault}
    (unusable : Record.ofPayload event.payload = .error fault) :
    Stored table (some event) [] [] (some (event, .done (.error (.record fault))))
  | awaiting (event : InboundEvent) {record : Json}
    (usable : Record.ofPayload event.payload = .ok record) :
    Stored table (some event) [.insert (table ++ "_v") record] []
      (some (event, .awaiting record))
  | answered (event : InboundEvent) {record : Json}
    (usable : Record.ofPayload event.payload = .ok record) (answer : Answer) :
    Stored table (some event) [.insert (table ++ "_v") record] [answer]
      (some (event, .done (answer.mapError Fault.transport)))

/-- What has happened explains where the storing of each payload stands. -/
structure Explained (table : String) (labels : List Label) (i : Ingester) : Prop where
  sameTable : i.table = table
  arrived : i.events.map Prod.fst = arrivals labels
  stored : ∀ index, Stored table (arrivals labels)[index]? (i.commands index)
    (answers index labels) i.events[index]?

section Steps
variable {table : String} {labels : List Label} {i i' : Ingester} {index : Nat}
  {event : InboundEvent} {answer : Answer}

/-- The ingester after an event has arrived. -/
def afterArrival (i : Ingester) (event : InboundEvent) : Ingester :=
  { i with
    events := i.events ++ [(event, .ofPayload event.payload)]
    issued := i.issued ++
      ((Ingesting.ofPayload event.payload).command? i.table).toList.map (i.events.length, ·) }

/-- The ingester after an insertion has been answered. -/
def afterAnswer (i : Ingester) (index : Nat) (event : InboundEvent) (answer : Answer) : Ingester :=
  { i with events := i.events.set index (event, .done (answer.mapError Fault.transport)) }

/-- The steps of an ingester: an event arrives, or one that waits is answered. -/
inductive Moves (i : Ingester) : Label → Ingester → Prop
  | arrive (event : InboundEvent) : Moves i (.arrive event) (i.afterArrival event)
  | answer {index : Nat} {event : InboundEvent} {record : Json}
    (waits : i.events[index]? = some (event, .awaiting record)) (answer : Answer) :
    Moves i (.answer index answer) (i.afterAnswer index event answer)

theorem step_eq_some_iff {label : Label} : i.step label = some i' ↔ Moves i label i' := by
  constructor
  · intro h
    cases label with
    | arrive event =>
      cases h
      exact .arrive event
    | answer index answer =>
      simp only [step, Option.bind_eq_bind, Option.bind_eq_some_iff, Prod.exists] at h
      obtain ⟨event, ingesting, hfound, next, hnext, h⟩ := h
      cases ingesting with
      | done result => cases hnext
      | awaiting record =>
        cases hnext
        cases h
        exact .answer hfound answer
  · intro h
    cases h with
    | arrive event => rfl
    | answer waits answer => simp [step, waits, Ingesting.receive?, afterAnswer]

@[simp] theorem arrivals_arrive :
    arrivals (labels ++ [.arrive event]) = arrivals labels ++ [event] := by
  simp [arrivals]

@[simp] theorem arrivals_answer :
    arrivals (labels ++ [.answer index answer]) = arrivals labels := by
  simp [arrivals]

@[simp] theorem answers_arrive : answers index (labels ++ [.arrive event]) = answers index labels := by
  simp [answers]

@[simp] theorem answers_answer (other : Nat) :
    answers index (labels ++ [.answer other answer]) =
      answers index labels ++ if other = index then [answer] else [] := by
  by_cases h : other = index <;> simp [answers, h]

@[simp] theorem commands_afterArrival :
    (i.afterArrival event).commands index =
      i.commands index ++ if i.events.length = index then
        ((Ingesting.ofPayload event.payload).command? i.table).toList else [] := by
  cases hcommand : (Ingesting.ofPayload event.payload).command? i.table <;>
    by_cases h : i.events.length = index <;> simp [commands, afterArrival, hcommand, h]

@[simp] theorem commands_afterAnswer (other : Nat) :
    (i.afterAnswer other event answer).commands index = i.commands index := rfl

/-- A payload that makes a record is inserted as it arrives, and no other. -/
theorem stored_ofPayload (table : String) (event : InboundEvent) :
    Stored table (some event) ((Ingesting.ofPayload event.payload).command? table).toList []
      (some (event, .ofPayload event.payload)) := by
  unfold Ingesting.ofPayload
  cases hrecord : Record.ofPayload event.payload with
  | error fault => exact .refused event hrecord
  | ok record => exact .awaiting event hrecord

theorem Stored.of_absent {event? : Option InboundEvent} {commands : List Command}
    {answers : List Answer} (stored : Stored table event? commands answers none) :
    commands = [] ∧ answers = [] := by
  cases stored with
  | absent => exact ⟨rfl, rfl⟩

theorem Stored.of_none {found : Option (InboundEvent × Ingesting)} {commands : List Command}
    {answers : List Answer} (stored : Stored table none commands answers found) :
    commands = [] ∧ answers = [] ∧ found = none := by
  cases stored with
  | absent => exact ⟨rfl, rfl, rfl⟩

theorem Stored.of_unusable {found : Option (InboundEvent × Ingesting)} {commands : List Command}
    {answers : List Answer} {fault : RecordFault}
    (stored : Stored table (some event) commands answers found)
    (unusable : Record.ofPayload event.payload = .error fault) :
    commands = [] ∧ answers = [] ∧ found = some (event, .done (.error (.record fault))) := by
  cases stored with
  | refused _ unusable' =>
    cases unusable.symm.trans unusable'
    exact ⟨rfl, rfl, rfl⟩
  | awaiting _ usable => cases unusable.symm.trans usable
  | answered _ usable answer => cases unusable.symm.trans usable

theorem Stored.of_usable {found : Option (InboundEvent × Ingesting)} {commands : List Command}
    {answers : List Answer} {record : Json}
    (stored : Stored table (some event) commands answers found)
    (usable : Record.ofPayload event.payload = .ok record) :
    commands = [.insert (table ++ "_v") record] ∧
      ((answers = [] ∧ found = some (event, .awaiting record)) ∨
        ∃ answer, answers = [answer] ∧
          found = some (event, .done (Except.mapError Fault.transport answer))) := by
  cases stored with
  | refused _ unusable => cases usable.symm.trans unusable
  | awaiting _ usable' =>
    cases usable.symm.trans usable'
    exact ⟨rfl, .inl ⟨rfl, rfl⟩⟩
  | answered _ usable' answer =>
    cases usable.symm.trans usable'
    exact ⟨rfl, .inr ⟨answer, rfl, rfl⟩⟩

/-- One that waits is for the event that arrived, and takes its first answer. -/
theorem Stored.receive {event? : Option InboundEvent} {commands : List Command}
    {answers : List Answer} {record : Json}
    (stored : Stored table event? commands answers (some (event, .awaiting record)))
    (answer : Answer) :
    Stored table event? commands (answers ++ [answer])
      (some (event, .done (answer.mapError Fault.transport))) := by
  cases stored with
  | awaiting _ usable => exact .answered event usable answer

theorem Explained.arrive (explained : Explained table labels i) (event : InboundEvent) :
    Explained table (labels ++ [.arrive event]) (i.afterArrival event) where
  sameTable := explained.sameTable
  arrived := by
    rw [arrivals_arrive, ← explained.arrived]
    simp [afterArrival]
  stored := by
    intro index
    have hbefore := explained.stored index
    have hlength : (arrivals labels).length = i.events.length := by
      rw [← explained.arrived, List.length_map]
    change Stored table _ _ _ (i.events ++ [(event, Ingesting.ofPayload event.payload)])[index]?
    rw [arrivals_arrive, answers_arrive, commands_afterArrival, getElem?_concat, getElem?_concat,
      hlength]
    by_cases hnew : index = i.events.length
    · subst hnew
      rw [List.getElem?_eq_none (Nat.le_refl _)] at hbefore
      obtain ⟨hcommands, hanswers⟩ := hbefore.of_absent
      rw [if_pos rfl, if_pos rfl, if_pos rfl, hcommands, hanswers, explained.sameTable]
      exact stored_ofPayload table event
    · rw [if_neg hnew, if_neg hnew, if_neg (Ne.symm hnew), List.append_nil]
      exact hbefore

theorem Explained.receive (explained : Explained table labels i) {record : Json}
    (waits : i.events[index]? = some (event, .awaiting record)) (answer : Answer) :
    Explained table (labels ++ [.answer index answer]) (i.afterAnswer index event answer) where
  sameTable := explained.sameTable
  arrived := by
    rw [arrivals_answer, ← explained.arrived]
    apply List.ext_getElem?
    intro place
    by_cases hplace : index = place
    · subst hplace
      have hlt := (List.getElem?_eq_some_iff.mp waits).1
      simp [afterAnswer, hlt, (List.getElem?_eq_some_iff.mp waits).2]
    · simp [afterAnswer, List.getElem?_set_ne hplace]
  stored := by
    intro place
    have hbefore := explained.stored place
    change Stored table _ _ _ (i.events.set index _)[place]?
    rw [arrivals_answer, answers_answer, commands_afterAnswer]
    by_cases hplace : index = place
    · subst hplace
      rw [waits] at hbefore
      rw [if_pos rfl, List.getElem?_set_self (List.getElem?_eq_some_iff.mp waits).1]
      exact hbefore.receive answer
    · rw [if_neg hplace, List.append_nil, List.getElem?_set_ne hplace]
      exact hbefore

/-- What one step of an ingester keeps. -/
theorem Explained.step {label : Label} (explained : Explained table labels i)
    (stepped : i.step label = some i') : Explained table (labels ++ [label]) i' := by
  cases step_eq_some_iff.mp stepped with
  | arrive event => exact explained.arrive event
  | answer waits answer => exact explained.receive waits answer

theorem Run.explained (run : Run table labels i) : Explained table labels i := by
  induction run with
  | start => exact ⟨rfl, rfl, fun _ => .absent⟩
  | step _ _ stepped ih => exact ih.step stepped

end Steps

theorem filterMap_range {α β : Type} (f : α → Option β) (values : List α) :
    (List.range values.length).filterMap (fun place => values[place]?.bind f) =
      values.filterMap f := by
  induction values with
  | nil => rfl
  | cons value rest ih =>
    rw [List.length_cons, List.range_succ_eq_map, List.filterMap_cons, List.filterMap_cons,
      List.filterMap_map, ← ih]
    rfl

section Answers
variable [Complaints]

/-- The event that answers the one at an index, once there is one. -/
def answerTo? (i : Ingester) (index : Nat) : Option OutboundEvent := do
  let (event, ingesting) ← i.events[index]?
  ingesting.result?.map (OutboundEvent.ofIngest · event)

/-- What an event is answered with, by the answer to its insertion. -/
inductive Reports (event : InboundEvent) : Answer → OutboundEvent → Prop
  | unreached (fault : TransportFault) :
    Reports event (.error fault) (.ofFault (.transport fault) event)
  | json {response : Response} {value : Json} (isText : Json.IsTextOf value response.body) :
    Reports event (.ok response) (.ingested value response.status event.carried)
  | text {response : Response} (unread : ¬ ∃ value, Json.IsTextOf value response.body) :
    Reports event (.ok response) (.ingested (.text response.body) response.status event.carried)

theorem reports_ofIngest (event : InboundEvent) (answer : Answer) :
    Reports event answer (.ofIngest (answer.mapError Fault.transport) event) := by
  cases answer with
  | error fault => exact .unreached fault
  | ok response =>
    change Reports event (.ok response) (.ofResponse response event)
    unfold OutboundEvent.ofResponse
    cases hparse : Json.parse? response.body with
    | none => exact .text (Json.parse?_eq_none_iff.mp hparse)
    | some value => exact .json (Json.parse?_eq_some_iff.mp hparse)

theorem Reports.isFailure_iff {event : InboundEvent} {answer : Answer} {out : OutboundEvent}
    (reports : Reports event answer out) :
    out.isFailure = true ↔ ∃ fault, answer = .error fault := by
  cases reports with
  | unreached fault => exact ⟨fun _ => ⟨fault, rfl⟩, fun _ => rfl⟩
  | _ =>
    constructor
    · intro h
      cases h
    · rintro ⟨fault, h⟩
      cases h

/-- All events that are sent, in the order in which those that they answer arrived. -/
theorem emitted_eq (i : Ingester) :
    i.emitted = (List.range i.events.length).filterMap i.answerTo? :=
  (filterMap_range _ i.events).symm

section Insertions
variable {table : String} {labels : List Label} {i : Ingester} {index : Nat} {event : InboundEvent}

theorem answerTo?_done {result : Except Fault Response}
    (found : i.events[index]? = some (event, .done result)) :
    i.answerTo? index = some (.ofIngest result event) := by
  simp [answerTo?, found, Ingesting.result?]

theorem answerTo?_awaiting {record : Json}
    (found : i.events[index]? = some (event, .awaiting record)) : i.answerTo? index = none := by
  simp [answerTo?, found, Ingesting.result?]

/-- Nothing is issued, answered or sent for an event that has not arrived. -/
theorem Run.of_absent (run : Run table labels i) (absent : (arrivals labels)[index]? = none) :
    i.commands index = [] ∧ answers index labels = [] ∧ i.answerTo? index = none := by
  have hstored := run.explained.stored index
  rw [absent] at hstored
  obtain ⟨hcommands, hanswers, hfound⟩ := hstored.of_none
  exact ⟨hcommands, hanswers, by simp [answerTo?, hfound]⟩

/-- An event without a record is answered at once. -/
theorem Run.of_unusable (run : Run table labels i)
    (arrived : (arrivals labels)[index]? = some event) {fault : RecordFault}
    (unusable : Record.ofPayload event.payload = .error fault) :
    i.commands index = [] ∧ answers index labels = [] ∧
      i.answerTo? index = some (.ofFault (.record fault) event) := by
  have hstored := run.explained.stored index
  rw [arrived] at hstored
  obtain ⟨hcommands, hanswers, hfound⟩ := hstored.of_unusable unusable
  exact ⟨hcommands, hanswers, answerTo?_done hfound⟩

/-- A record is inserted once, and its event is answered once the insertion is. -/
theorem Run.of_usable (run : Run table labels i)
    (arrived : (arrivals labels)[index]? = some event) {record : Json}
    (usable : Record.ofPayload event.payload = .ok record) :
    i.commands index = [.insert (table ++ "_v") record] ∧
      ((answers index labels = [] ∧ i.answerTo? index = none ∧
          ∀ answer, (i.step (.answer index answer)).isSome = true) ∨
        ∃ answer out, answers index labels = [answer] ∧ i.answerTo? index = some out ∧
          Reports event answer out) := by
  have hstored := run.explained.stored index
  rw [arrived] at hstored
  obtain ⟨hcommands, ⟨hanswers, hfound⟩ | ⟨answer, hanswers, hfound⟩⟩ := hstored.of_usable usable
  · refine ⟨hcommands, .inl ⟨hanswers, answerTo?_awaiting hfound, fun answer => ?_⟩⟩
    rw [step_eq_some_iff.mpr (.answer hfound answer)]
    rfl
  · exact ⟨hcommands, .inr ⟨answer, _, hanswers, answerTo?_done hfound,
      reports_ofIngest event answer⟩⟩

theorem Run.isFailure_iff (run : Run table labels i)
    (arrived : (arrivals labels)[index]? = some event) {out : OutboundEvent}
    (sent : i.answerTo? index = some out) :
    out.isFailure = true ↔ (∃ fault, Record.ofPayload event.payload = .error fault) ∨
      ∃ fault, .error fault ∈ answers index labels := by
  cases hrecord : Record.ofPayload event.payload with
  | error fault =>
    obtain ⟨_, _, hanswer⟩ := run.of_unusable arrived hrecord
    cases sent.symm.trans hanswer
    exact ⟨fun _ => .inl ⟨fault, rfl⟩, fun _ => rfl⟩
  | ok record =>
    obtain ⟨_, ⟨_, hnone, _⟩ | ⟨answer, _, hanswers, hsome, hreports⟩⟩ :=
      run.of_usable arrived hrecord
    · cases sent.symm.trans hnone
    · cases sent.symm.trans hsome
      rw [hreports.isFailure_iff, hanswers]
      simp [eq_comm]

/-- Whatever events arrive, however their insertions are answered and in whatever order: a payload
that makes a record is inserted once, into the virtual table over the base table, and no other is.
The event that answers it tells of the answer to that insertion: its status whatever that is, and
its body as JSON where it can be read so, else as a text. It is a failure exactly where there was no
record or the backend could not be reached. -/
theorem Run.inserted_once (run : Run table labels i) :
    (∀ index, (arrivals labels)[index]? = none →
      i.commands index = [] ∧ answers index labels = [] ∧ i.answerTo? index = none) ∧
    (∀ index event, (arrivals labels)[index]? = some event →
      (∀ fault, Record.ofPayload event.payload = .error fault →
        i.commands index = [] ∧ answers index labels = [] ∧
          i.answerTo? index = some (.ofFault (.record fault) event)) ∧
      (∀ record, Record.ofPayload event.payload = .ok record →
        i.commands index = [.insert (table ++ "_v") record] ∧
          ((answers index labels = [] ∧ i.answerTo? index = none ∧
              ∀ answer, (i.step (.answer index answer)).isSome = true) ∨
            ∃ answer out, answers index labels = [answer] ∧ i.answerTo? index = some out ∧
              Reports event answer out)) ∧
      (∀ out, i.answerTo? index = some out →
        (out.isFailure = true ↔ (∃ fault, Record.ofPayload event.payload = .error fault) ∨
          ∃ fault, .error fault ∈ answers index labels))) ∧
    i.emitted = (List.range (arrivals labels).length).filterMap i.answerTo? := by
  refine ⟨fun index absent => run.of_absent absent, fun index event arrived => ⟨?_, ?_, ?_⟩, ?_⟩
  · intro fault unusable
    exact run.of_unusable arrived unusable
  · intro record usable
    exact run.of_usable arrived usable
  · intro out sent
    exact run.isFailure_iff arrived sent
  · rw [i.emitted_eq, ← run.explained.arrived, List.length_map]

end Insertions
end Answers

def topicEvent (payload : Json) : InboundEvent := ⟨payload, [("topic", .text "t")], by decide⟩

/-- Of three events the second has no record. The insertion for the last is answered first, with a
refusal, and that for the first cannot be made. -/
theorem Run.inserted_once_crossing :
    ∃ labels i, Run "readings" labels i ∧
      i.commands 0 = [.insert "readings_v" (.object [("temp", .bool true)])] ∧
      (∃ out, i.answerTo? 0 = some out ∧ out.isFailure = true) ∧
      i.commands 1 = [] ∧
      i.commands 2 = [.insert "readings_v" (.object [("payload", .bool false)])] ∧
      i.answerTo? 2 = some (.ingested (.text "bad document") 400 [("topic", .text "t")]) := by
  obtain ⟨labels, i, run, harrivals, hfirst, hlast⟩ :
      ∃ labels i, Run "readings" labels i ∧
        arrivals labels = [topicEvent (.object [("temp", .bool true)]),
          topicEvent (.text "\x7bnot json"), topicEvent (.bool false)] ∧
        answers 0 labels = [.error (.failed "connection reset")] ∧
        answers 2 labels = [.ok ⟨400, "bad document"⟩] :=
    ⟨_, _, ((Run.start : Run "readings" _ _)
      |>.step (.arrive (topicEvent (.object [("temp", .bool true)]))) rfl
      |>.step (.arrive (topicEvent (.text "\x7bnot json"))) rfl
      |>.step (.arrive (topicEvent (.bool false))) rfl
      |>.step (.answer 2 (.ok ⟨400, "bad document"⟩)) rfl
      |>.step (.answer 0 (.error (.failed "connection reset"))) rfl), rfl, rfl, rfl⟩
  obtain ⟨_, hevents, _⟩ := run.inserted_once
  have hunread : Json.parse? "\x7bnot json" = none :=
    Option.isNone_iff_eq_none.mp (by decide +kernel)
  have hunusable : Record.ofPayload (.text "\x7bnot json") = .error (.textNotJson "\x7bnot json") := by
    simp only [Record.ofPayload, hunread]
  have hplain : Json.parse? "bad document" = none :=
    Option.isNone_iff_eq_none.mp (by decide +kernel)
  obtain ⟨_, husable, hfails⟩ := hevents 0 _ (by rw [harrivals]; rfl)
  obtain ⟨hinsert, ⟨hnone, _⟩ | ⟨_, out, _, hout, _⟩⟩ := husable _ rfl
  · rw [hfirst] at hnone
    cases hnone
  obtain ⟨hrefused, _, _⟩ := hevents 1 _ (by rw [harrivals]; rfl)
  obtain ⟨_, husable', _⟩ := hevents 2 _ (by rw [harrivals]; rfl)
  obtain ⟨hinsert', ⟨hnone, _⟩ | ⟨_, _, hanswer', hout', hreports⟩⟩ := husable' _ rfl
  · rw [hlast] at hnone
    cases hnone
  rw [hlast] at hanswer'
  cases hanswer'
  refine ⟨labels, i, run, hinsert, ⟨out, hout, (hfails out hout).mpr ?_⟩,
    (hrefused _ hunusable).1, hinsert', ?_⟩
  · exact .inr ⟨_, by rw [hfirst]; exact List.mem_singleton_self _⟩
  · cases hreports with
    | json isText => cases hplain.symm.trans (Json.parse?_eq_some_iff.mpr isText)
    | text unread => exact hout'

end CalendarRollup.Ingester
