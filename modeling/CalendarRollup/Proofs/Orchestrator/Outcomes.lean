import CalendarRollup.Proofs.Orchestrator.Alone
import CalendarRollup.Proofs.Orchestrator.Queries

/-! The result of a handling is the one that its payload has alone: whatever else is handled at the
same time, it depends on the plan, the payload, its own waits and the answer to its own query. -/
namespace CalendarRollup

def Message.answer? : Message → Option Answer
  | .issued _ => none
  | .answered answer => some answer

/-- The fault that stops a handling at its waits: the first one there is. -/
def Handling.firstFault : List (Except TransportFault ProvisionState) → Except TransportFault Unit
  | [] => .ok ()
  | .ok _ :: rest => firstFault rest
  | .error fault :: _ => .error fault

/-- What stops a handling that finds only some gates settled: a time-out at the first of the
others. -/
def RollupPlan.gating (plan : RollupPlan) (settled : List Bool) : Except TransportFault Unit :=
  match (plan.calendars.zip settled).find? (!·.2) with
  | some (calendar, _) => .error (.timedOut calendar)
  | none => .ok ()

namespace RollupPlan
variable (plan : RollupPlan)

theorem gating_of_settled (passed : Nat) :
    plan.gating (List.replicate passed true) = .ok () := by
  have hnone : (plan.calendars.zip (List.replicate passed true)).find? (!·.2) = none := by
    rw [List.find?_eq_none]
    rintro ⟨spec, settled⟩ hmem
    obtain rfl := List.eq_of_mem_replicate (List.of_mem_zip hmem).2
    simp
  unfold gating
  rw [hnone]

theorem gating_of_unsettled {passed : Nat} {spec : CalendarSpec}
    (reached : plan.calendars[passed]? = some spec) :
    plan.gating (List.replicate passed true ++ [false]) = .error (.timedOut spec) := by
  have hfind : ∀ (specs : List CalendarSpec) (passed : Nat), specs[passed]? = some spec →
      (specs.zip (List.replicate passed true ++ [false])).find? (!·.2) = some (spec, false) := by
    intro specs
    induction specs with
    | nil => simp
    | cons first rest ih =>
      intro passed hspec
      cases passed with
      | zero =>
        obtain rfl := Option.some.inj hspec
        rfl
      | succ passed => exact ih passed hspec
  unfold gating
  rw [hfind _ _ reached]

end RollupPlan

/-- A wait that ends with a fault tells of its gate's calendar. -/
theorem Wait.fault_of_outcome? {wait : Wait} {gate : Gate} {now : Nat} {fault : TransportFault}
    (ended : wait.outcome? gate now = some (.error fault)) :
    fault = .timedOut gate.calendar ∨ fault = .abandoned gate.calendar := by
  unfold outcome? Gate.settled? at ended
  split at ended
  next outcome hsettled =>
    split at hsettled
    · cases hsettled
      cases ended
    · split at hsettled
      · cases hsettled
      · cases hsettled
        cases ended
        exact .inr rfl
  next =>
    split at ended
    · cases ended
      exact .inl rfl
    · cases ended

namespace Handling

@[simp] theorem firstFault_map_ok (states : List ProvisionState) :
    firstFault (states.map .ok) = .ok () := by
  induction states with
  | nil => rfl
  | cons state rest ih => exact ih

@[simp] theorem firstFault_map_ok_append (states : List ProvisionState) (fault : TransportFault) :
    firstFault (states.map .ok ++ [.error fault]) = .error fault := by
  induction states with
  | nil => rfl
  | cons state rest ih => exact ih

theorem map_isOk_map_ok (states : List ProvisionState) :
    (states.map (Except.ok (ε := TransportFault))).map Except.isOk =
      List.replicate states.length true := by
  rw [List.map_map, List.eq_replicate_iff]
  refine ⟨by simp, fun settled hmem => ?_⟩
  obtain ⟨state, _, rfl⟩ := List.mem_map.mp hmem
  rfl

section Results
variable {plan : RollupPlan} {payload : Json} {moment : Instant} {request : RollupRequest}
  {waits : List (Except TransportFault ProvisionState)} {messages : List Message}
  {result : Except Fault RollupResult} {answer : Answer}

theorem resultOf_success {response : Response} (success : response.isSuccess = true) :
    resultOf request (.ok response) =
      (RollupResult.ofBody response.body request.idColumn request.ids).mapError .response := by
  have hbody : Answer.queryBody (.ok response) = .ok response.body := by
    simp [Answer.queryBody, success, bind, Except.bind]
  unfold resultOf
  rw [hbody]
  rfl

theorem resultOf_refused {response : Response} (refused : response.isSuccess = false) :
    resultOf request (.ok response) = .error (.transport (.refused response)) := by
  have hbody : Answer.queryBody (.ok response) = .error (.refused response) := by
    simp [Answer.queryBody, refused, bind, Except.bind]
  unfold resultOf
  rw [hbody]
  rfl

theorem resultOf_error (fault : TransportFault) :
    resultOf request (.error fault) = .error (.transport fault) := rfl

/-- A handling that has ended has the result of its payload alone. -/
theorem Accounted.result_eq
    (accounted : Accounted plan payload moment waits messages (.done result))
    (own : ∀ other ∈ messages.filterMap Message.answer?, other = answer) :
    result = plan.outcome payload moment (firstFault waits) answer := by
  unfold RollupPlan.outcome
  cases accounted with
  | refused refused =>
    rw [refused]
    rfl
  | stopped fault made short =>
    rw [made, firstFault_map_ok_append]
    rfl
  | @unqueried request _ _ made full unbuilt =>
    rw [made, firstFault_map_ok]
    change _ = request.query.mapError Fault.ofRequest >>= fun _ => resultOf request answer
    rw [unbuilt]
    rfl
  | @answered request _ _ delivered made full built =>
    obtain rfl := own delivered (by simp [Message.answer?])
    rw [made, firstFault_map_ok]
    change _ = request.query.mapError Fault.ofRequest >>= fun _ => resultOf request delivered
    rw [built]
    rfl

/-- All waits but the last end well. -/
theorem Accounted.waits_eq {handling : Handling}
    (accounted : Accounted plan payload moment waits messages handling) :
    ∃ states : List ProvisionState,
      waits = states.map .ok ∨ ∃ fault, waits = states.map .ok ++ [.error fault] := by
  cases accounted with
  | refused refused => exact ⟨[], .inl rfl⟩
  | @stopped _ states fault made short => exact ⟨states, .inr ⟨fault, rfl⟩⟩
  | _ => exact ⟨_, .inl rfl⟩

/-- A handling takes at most one answer. -/
theorem Accounted.exists_answer {handling : Handling}
    (accounted : Accounted plan payload moment waits messages handling) :
    ∃ answer, ∀ own ∈ messages.filterMap Message.answer?, own = answer := by
  cases accounted with
  | answered answer made full built => exact ⟨answer, by simp [Message.answer?]⟩
  | _ => exact ⟨.error .noRequest, by simp [Message.answer?]⟩

/-- An answer that has been taken is the one to the query of the payload's own request. -/
theorem Accounted.result_of_answer
    (accounted : Accounted plan payload moment waits messages (.done result))
    (delivered : answer ∈ messages.filterMap Message.answer?) :
    ∃ request, plan.request payload moment = .ok request ∧ result = resultOf request answer := by
  cases accounted with
  | @answered request _ _ own made full built =>
    have hanswer : own = answer := by simpa [Message.answer?] using delivered
    exact ⟨request, made, by rw [hanswer]⟩
  | _ => simp at delivered

end Results
end Handling

namespace Orchestrator

/-- The answers that a handling has had: none or one. -/
def answers (index : Nat) (events : List Event) : List Answer :=
  (messages (.handling index) events).filterMap Message.answer?

section Steps
variable {plan : RollupPlan} {events : List Event} {o o' a : Orchestrator} {index : Nat}

/-- Every wait that has ended did so as its gate and the clock told at that moment. -/
theorem Run.exists_waited (run : Run plan events o) {place : Nat}
    {outcome : Except TransportFault ProvisionState}
    (ended : (waits index events)[place]? = some outcome) :
    ∃ before earlier gate, ∃ wait : Wait, Run plan before earlier ∧
      earlier.gates[place]? = some gate ∧ wait.outcome? gate earlier.now = some outcome := by
  induction run with
  | start started => cases ended
  | lag _ millis ih => exact ih ended
  | abandon _ gate ih => exact ih ended
  | @step events o o' prefixRun label stepped ih =>
    rw [waits_append] at ended
    rcases (moves_of_step stepped).waits_seen index with hseen | ⟨request, reached, wait, gate,
      outcome, hwaiting, hgate, houtcome, hseen⟩
    · rw [hseen, List.append_nil] at ended
      exact ih ended
    · rw [hseen, getElem?_concat] at ended
      split at ended
      next hlast =>
        cases ended
        have hhandled := prefixRun.handled index
        rw [hwaiting] at hhandled
        cases hhandled with
        | present _ _ arrival accounted =>
          rw [accounted.length_waits] at hlast
          exact ⟨events, o, gate, wait, prefixRun, hlast ▸ hgate, houtcome⟩
      next => exact ih ended

/-- A wait that ends with a fault tells of the calendar of its gate. -/
theorem Run.exists_calendar_of_fault (run : Run plan events o) {place : Nat}
    {fault : TransportFault} (ended : (waits index events)[place]? = some (.error fault)) :
    ∃ spec, plan.calendars[place]? = some spec ∧
      (fault = .timedOut spec ∨ fault = .abandoned spec) := by
  obtain ⟨_, earlier, gate, wait, hrun, hgate, houtcome⟩ := run.exists_waited ended
  refine ⟨gate.calendar, ?_, wait.fault_of_outcome? houtcome⟩
  rw [← hrun.attends.calendars, List.getElem?_map, hgate]
  rfl

theorem Run.waits_eq (run : Run plan events o) (index : Nat) :
    ∃ states : List ProvisionState, waits index events = states.map .ok ∨
      ∃ fault, waits index events = states.map .ok ++ [.error fault] := by
  have hhandled := run.handled index
  generalize o.handlings[index]? = found at hhandled
  cases hhandled with
  | absent noArrival noWait noMessage => exact ⟨[], .inl noWait⟩
  | present _ _ arrival accounted => exact accounted.waits_eq

/-- Where no reporter goes before its calendar has settled, it only matters which gates settled
within the waits. -/
theorem Run.firstFault_waits (run : Run plan events o)
    (unabandoned : ∀ spec, .error (.abandoned spec) ∉ waits index events) :
    Handling.firstFault (waits index events) =
      plan.gating ((waits index events).map Except.isOk) := by
  obtain ⟨states, hwaits | ⟨fault, hwaits⟩⟩ := run.waits_eq index
  · rw [hwaits, Handling.firstFault_map_ok, Handling.map_isOk_map_ok, plan.gating_of_settled]
  · have hplace : (waits index events)[states.length]? = some (.error fault) := by
      rw [hwaits]
      simp
    obtain ⟨spec, hspec, rfl | rfl⟩ := run.exists_calendar_of_fault hplace
    · rw [hwaits, Handling.firstFault_map_ok_append, List.map_append, Handling.map_isOk_map_ok]
      exact (plan.gating_of_unsettled hspec).symm
    · exact absurd (List.mem_of_getElem? hplace) (unabandoned spec)

/-- A handling that has ended was for one payload, and stands where its waits and messages tell. -/
theorem Run.accounted_of_done (run : Run plan events o) {result : Except Fault RollupResult}
    (done : o.handlings[index]? = some (.done result)) :
    ∃ payload moment, arrivals index events = [(payload, moment)] ∧
      Handling.Accounted plan payload moment (waits index events)
        (messages (.handling index) events) (.done result) := by
  have hhandled := run.handled index
  rw [done] at hhandled
  cases hhandled with
  | present payload moment arrival accounted => exact ⟨payload, moment, arrival, accounted⟩

/-- There is a run in which nothing else is handled, and in which the handling has the same waits,
messages and result. -/
theorem Run.exists_alone (run : Run plan events o) {handling : Handling}
    (found : o.handlings[index]? = some handling) :
    ∃ events' o', Run plan events' o' ∧ o'.handlings = [handling] ∧
      arrivals 0 events' = arrivals index events ∧ waits 0 events' = waits index events ∧
        answers 0 events' = answers index events := by
  obtain ⟨a, hrun, halone⟩ := run.alone index
  obtain ⟨harrivals, hwaits, hmessages⟩ := alone_keeps index events
  refine ⟨_, a, hrun, ?_, harrivals, hwaits, ?_⟩
  · rw [halone.handlings, found]
    rfl
  · rw [answers, hmessages]
    rfl

/-- The result of a handling is a function of the plan, of its own payload and moment, of how its
own waits ended, for which it only matters what gates settled, and of the answer to its own query. A
success of that makes the rows of its body the result for the payload's ids. The handling could
have been the only one, and it has the same result in every run in which these are the same. -/
theorem Run.result_of_own (run : Run plan events o) {result : Except Fault RollupResult}
    (done : o.handlings[index]? = some (.done result)) :
    ∃ payload moment, arrivals index events = [(payload, moment)] ∧
      (∀ answer, (∀ own ∈ answers index events, own = answer) →
        result = plan.outcome payload moment (Handling.firstFault (waits index events)) answer) ∧
      (∀ (place : Nat) (fault : TransportFault),
        (waits index events)[place]? = some (.error fault) →
          ∃ spec, plan.calendars[place]? = some spec ∧
            (fault = .timedOut spec ∨ fault = .abandoned spec)) ∧
      ((∀ spec, .error (.abandoned spec) ∉ waits index events) →
        Handling.firstFault (waits index events) =
          plan.gating ((waits index events).map Except.isOk)) ∧
      (∀ answer ∈ answers index events, ∃ request, plan.request payload moment = .ok request ∧
        (∀ fault, answer = .error fault → result = .error (.transport fault)) ∧
        ∀ response, answer = .ok response →
          (response.isSuccess = false → result = .error (.transport (.refused response))) ∧
          (response.isSuccess = true → result =
            (RollupResult.ofBody response.body request.idColumn request.ids).mapError
              .response)) ∧
      (∃ events' o', Run plan events' o' ∧ o'.handlings = [.done result] ∧
        arrivals 0 events' = arrivals index events ∧ waits 0 events' = waits index events ∧
          answers 0 events' = answers index events) ∧
      ∀ events' o' index' result', Run plan events' o' →
        o'.handlings[index']? = some (.done result') →
        arrivals index' events' = arrivals index events →
        Handling.firstFault (waits index' events') = Handling.firstFault (waits index events) →
        answers index' events' = answers index events → result' = result := by
  obtain ⟨payload, moment, arrival, accounted⟩ := run.accounted_of_done done
  refine ⟨payload, moment, arrival, ?_, ?_, run.firstFault_waits, ?_, run.exists_alone done, ?_⟩
  · intro answer own
    exact accounted.result_eq own
  · intro place fault ended
    exact run.exists_calendar_of_fault ended
  · intro answer delivered
    obtain ⟨request, made, rfl⟩ := accounted.result_of_answer delivered
    refine ⟨request, made, ?_, ?_⟩
    · rintro fault rfl
      exact Handling.resultOf_error fault
    · rintro response rfl
      exact ⟨Handling.resultOf_refused, Handling.resultOf_success⟩
  · intro events' o' index' result' run' done' arrived waited answered
    obtain ⟨payload', moment', arrival', accounted'⟩ := run'.accounted_of_done done'
    rw [arrived, arrival] at arrival'
    cases arrival'
    obtain ⟨answer, own⟩ := accounted.exists_answer
    have own' : ∀ other ∈ answers index' events', other = answer := answered ▸ own
    rw [accounted.result_eq own, accounted'.result_eq own', waited]

end Steps

/-- A payload that waits for one calendar only. -/
def monthlyPlan : RollupPlan :=
  { hourlyPlan with mode := .discrete, calendar := SamplingBucket.oneMonth.calendar }

/-- Of two payloads that are handled at once, the second has its answer first; the first is
refused. -/
theorem Run.result_of_own_crossing :
    ∃ events o, Run monthlyPlan events o ∧
      o.handlings[0]? = some (.done (.error (.transport (.refused ⟨500, "locked"⟩)))) ∧
      o.handlings[1]? = some (.done (.ok ⟨"sensor", .single "b", []⟩)) := by
  obtain ⟨events, o, run, hfirst, hsecond⟩ :
      ∃ events o, Run monthlyPlan events o ∧
        (∃ result, o.handlings[0]? = some (.done result) ∧
          answers 0 events = [.ok ⟨500, "locked"⟩]) ∧
        ∃ result, o.handlings[1]? = some (.done result) ∧ answers 1 events = [.ok ⟨200, "[]"⟩] ∧
          arrivals 1 events = [(.object [("sensor", .text "b")], noon)] :=
    ⟨_, _, ((Run.start rfl : Run monthlyPlan _ _)
      |>.step (.arrive sensorPayload noon) rfl
      |>.step (.arrive (.object [("sensor", .text "b")]) noon) rfl
      |>.step (.startTask 0) rfl
      |>.step (.answerTask 0 (.ok ⟨201, ""⟩)) rfl
      |>.step (.answerTask 0 (.ok ⟨201, ""⟩)) rfl
      |>.step (.proceed 0) rfl
      |>.step (.proceed 1) rfl
      |>.step (.answerQuery 1 (.ok ⟨200, "[]"⟩)) rfl
      |>.step (.answerQuery 0 (.ok ⟨500, "locked"⟩)) rfl), ⟨_, rfl, rfl⟩, _, rfl, rfl, rfl⟩
  obtain ⟨result, hdone, hanswers⟩ := hfirst
  obtain ⟨result', hdone', hanswers', harrivals'⟩ := hsecond
  obtain ⟨_, _, _, _, _, _, hanswered, _⟩ := run.result_of_own hdone
  obtain ⟨_, _, _, hrefused⟩ := hanswered (.ok ⟨500, "locked"⟩) (by simp [hanswers])
  obtain rfl := (hrefused _ rfl).1 (by decide)
  obtain ⟨_, _, harrival', _, _, _, hanswered', _⟩ := run.result_of_own hdone'
  obtain ⟨request, hmade, _, hsuccess⟩ := hanswered' (.ok ⟨200, "[]"⟩) (by simp [hanswers'])
  rw [harrivals'] at harrival'
  cases harrival'
  obtain rfl := (hsuccess _ rfl).2 (by decide)
  have hrows : RollupResult.ofBody "[]" "sensor" (.single "b") =
      .ok ⟨"sensor", .single "b", []⟩ := by cbv
  have hown : request.idColumn = "sensor" ∧ request.ids = .single "b" := by
    cases hmade
    exact ⟨rfl, rfl⟩
  rw [hown.1, hown.2, hrows] at hdone'
  exact ⟨events, o, run, hdone, hdone'⟩

end Orchestrator
end CalendarRollup
