import CalendarRollup.Proofs.Orchestrator.Tasks

/-! The handlings of an orchestrator: where one stands is told by what has been seen of it. -/
namespace CalendarRollup

namespace Handling

/-- Where a wait that has ended leads. -/
def afterWait (gates : List Gate) (limit now : Nat) (request : RollupRequest) (gate : Nat) :
    Except TransportFault ProvisionState → Handling
  | .ok _ => approach gates limit now request (gate + 1)
  | .error fault => .done (.error (.transport fault))

/-- Where the handling of a payload stands, by how its waits have ended and by what has gone
between it and the backend. -/
inductive Accounted (plan : RollupPlan) (payload : Json) (moment : Instant) :
    List (Except TransportFault ProvisionState) → List Message → Handling → Prop
  | refused {fault : RequestFault} (refused : plan.request payload moment = .error fault) :
    Accounted plan payload moment [] [] (.done (.error (.ofRequest fault)))
  | waiting {request : RollupRequest} {states : List ProvisionState} (wait : Wait)
    (made : plan.request payload moment = .ok request)
    (short : states.length < plan.calendars.length) :
    Accounted plan payload moment (states.map .ok) [] (.waiting request states.length wait)
  | stopped {request : RollupRequest} {states : List ProvisionState} (fault : TransportFault)
    (made : plan.request payload moment = .ok request)
    (short : states.length < plan.calendars.length) :
    Accounted plan payload moment (states.map .ok ++ [.error fault]) []
      (.done (.error (.transport fault)))
  | unqueried {request : RollupRequest} {states : List ProvisionState} {fault : RequestFault}
    (made : plan.request payload moment = .ok request)
    (full : states.length = plan.calendars.length) (unbuilt : request.query = .error fault) :
    Accounted plan payload moment (states.map .ok) [] (.done (.error (.ofRequest fault)))
  | querying {request : RollupRequest} {states : List ProvisionState} {statement : String}
    (made : plan.request payload moment = .ok request)
    (full : states.length = plan.calendars.length) (built : request.query = .ok statement) :
    Accounted plan payload moment (states.map .ok) [.issued (.execute statement)]
      (.querying request statement)
  | answered {request : RollupRequest} {states : List ProvisionState} {statement : String}
    (answer : Answer) (made : plan.request payload moment = .ok request)
    (full : states.length = plan.calendars.length) (built : request.query = .ok statement) :
    Accounted plan payload moment (states.map .ok)
      [.issued (.execute statement), .answered answer] (.done (resultOf request answer))

theorem proceed?_eq_some {gates : List Gate} {limit now : Nat} {handling next : Handling}
    (h : handling.proceed? gates limit now = some next) :
    ∃ request index wait gate outcome, handling = .waiting request index wait ∧
      gates[index]? = some gate ∧ wait.outcome? gate now = some outcome ∧
        next = afterWait gates limit now request index outcome := by
  cases handling with
  | waiting request index wait =>
    simp only [proceed?, Option.bind_eq_bind, Option.bind_eq_some_iff] at h
    obtain ⟨gate, hgate, outcome, houtcome, h⟩ := h
    refine ⟨request, index, wait, gate, outcome, rfl, hgate, houtcome, ?_⟩
    cases outcome <;> exact (Option.some.inj h).symm
  | querying request statement => cases h
  | done result => cases h

section Steps
variable {plan : RollupPlan} {payload : Json} {moment : Instant} {gates : List Gate}
  {limit now : Nat} {request : RollupRequest} {states : List ProvisionState}
  {waits : List (Except TransportFault ProvisionState)} {messages : List Message}
  {handling next : Handling}

theorem Accounted.length_waits {place : Nat} {wait : Wait}
    (accounted : Accounted plan payload moment waits messages (.waiting request place wait)) :
    waits.length = place := by
  cases accounted with
  | waiting => exact List.length_map _

theorem Accounted.query (made : plan.request payload moment = .ok request)
    (full : states.length = plan.calendars.length) :
    Accounted plan payload moment (states.map .ok)
      ((query request).command?.toList.map .issued) (query request) := by
  unfold Handling.query
  cases hquery : request.query with
  | error fault => exact .unqueried made full hquery
  | ok statement => exact .querying made full hquery

theorem Accounted.approach (states : List ProvisionState) (limit now : Nat)
    (gated : gates.length = plan.calendars.length)
    (made : plan.request payload moment = .ok request)
    (within : states.length ≤ plan.calendars.length) :
    Accounted plan payload moment (states.map .ok)
      ((approach gates limit now request states.length).command?.toList.map .issued)
      (approach gates limit now request states.length) := by
  unfold Handling.approach
  by_cases hshort : states.length < gates.length
  · rw [if_pos hshort]
    exact .waiting _ made (gated ▸ hshort)
  · rw [if_neg hshort]
    exact .query made (by omega)

theorem Accounted.ofPayload (gated : gates.length = plan.calendars.length) :
    Accounted plan payload moment []
      ((ofPayload plan gates limit now payload moment).command?.toList.map .issued)
      (ofPayload plan gates limit now payload moment) := by
  unfold Handling.ofPayload
  cases hmade : plan.request payload moment with
  | error fault => exact .refused hmade
  | ok request =>
    exact Accounted.approach [] limit now gated hmade (Nat.zero_le _)

/-- A handling that waits is at the gate after those that it has passed, and issues its query
once it has passed the last. -/
theorem Accounted.afterWait {gate : Nat} {wait : Wait}
    (accounted : Accounted plan payload moment waits messages (.waiting request gate wait))
    (limit now : Nat) (gated : gates.length = plan.calendars.length)
    (outcome : Except TransportFault ProvisionState) :
    Accounted plan payload moment (waits ++ [outcome])
      (messages ++ (afterWait gates limit now request gate outcome).command?.toList.map .issued)
      (afterWait gates limit now request gate outcome) := by
  cases accounted with
  | @waiting _ states _ made short =>
    cases outcome with
    | error fault => exact .stopped fault made short
    | ok state =>
      have happroach := Accounted.approach (states ++ [state]) limit now gated made
        (by simpa using Nat.succ_le_of_lt short)
      simpa [Handling.afterWait] using happroach

theorem Accounted.receive {answer : Answer}
    (accounted : Accounted plan payload moment waits messages handling)
    (received : handling.receive? answer = some next) :
    next.command? = none ∧
      Accounted plan payload moment waits (messages ++ [.answered answer]) next := by
  cases accounted with
  | querying made full built =>
    cases received
    exact ⟨rfl, .answered answer made full built⟩
  | _ => cases received

/-- A handling that has passed all gates issues its query if that can be built, and no other
command is issued. -/
theorem Accounted.commands_eq (accounted : Accounted plan payload moment waits messages handling) :
    messages.filterMap Message.command? = [] ∨
      ∃ request statement, ∃ states : List ProvisionState,
        plan.request payload moment = .ok request ∧ request.query = .ok statement ∧
        waits = states.map .ok ∧ states.length = plan.calendars.length ∧
        messages.filterMap Message.command? = [.execute statement] := by
  cases accounted with
  | querying made full built => exact .inr ⟨_, _, _, made, built, rfl, full, rfl⟩
  | answered answer made full built => exact .inr ⟨_, _, _, made, built, rfl, full, rfl⟩
  | _ => exact .inl rfl

theorem Accounted.commands_of_full {statement : String}
    (accounted : Accounted plan payload moment waits messages handling)
    (made : plan.request payload moment = .ok request) (built : request.query = .ok statement)
    (passed : waits = states.map .ok) (full : states.length = plan.calendars.length) :
    messages.filterMap Message.command? = [.execute statement] := by
  have hlength : waits.length = plan.calendars.length := by rw [passed, List.length_map, full]
  cases accounted with
  | refused refused =>
    rw [refused] at made
    cases made
  | waiting wait _ short =>
    rw [List.length_map] at hlength
    omega
  | @stopped _ others fault =>
    have hfault : Except.error fault ∈ states.map (Except.ok (ε := TransportFault)) := by
      rw [← passed]
      simp
    simp at hfault
  | unqueried made' _ unbuilt =>
    cases made.symm.trans made'
    rw [unbuilt] at built
    cases built
  | querying made' _ built' =>
    cases made.symm.trans made'
    cases built.symm.trans built'
    rfl
  | answered answer made' _ built' =>
    cases made.symm.trans made'
    cases built.symm.trans built'
    rfl

end Steps
end Handling

namespace Orchestrator

/-- What has been seen of the handling at an index; nothing, if there is none. -/
inductive Handled (plan : RollupPlan) (events : List Event) (index : Nat) :
    Option Handling → Prop
  | absent (noArrival : arrivals index events = []) (noWait : waits index events = [])
    (noMessage : messages (.handling index) events = []) : Handled plan events index none
  | present {handling : Handling} (payload : Json) (moment : Instant)
    (arrival : arrivals index events = [(payload, moment)])
    (accounted : handling.Accounted plan payload moment (waits index events)
      (messages (.handling index) events)) : Handled plan events index (some handling)

section Steps
variable {plan : RollupPlan} {events seen : List Event} {o o' : Orchestrator} {index : Nat}
  {handling next : Handling}

theorem Handled.append {found : Option Handling} (handled : Handled plan events index found)
    (noArrival : arrivals index seen = []) (noWait : waits index seen = [])
    (noMessage : messages (.handling index) seen = []) :
    Handled plan (events ++ seen) index found := by
  cases handled with
  | absent harrivals hwaits hmessages =>
    refine .absent ?_ ?_ ?_ <;> simp [*]
  | present payload moment harrival haccounted =>
    refine .present payload moment ?_ ?_
    · rw [arrivals_append, harrival, noArrival]
      rfl
    · rw [waits_append, noWait, messages_append, noMessage, List.append_nil, List.append_nil]
      exact haccounted

theorem Handled.arrive {payload : Json} {moment : Instant}
    (handled : Handled plan events index none)
    (accounted : handling.Accounted plan payload moment []
      (handling.command?.toList.map .issued)) :
    Handled plan (events ++ ([.arrived index payload moment] ++
      issuedEvents (log (.handling index) handling.command?))) index (some handling) := by
  cases handled with
  | absent noArrival noWait noMessage =>
    refine .present payload moment ?_ ?_
    · simp [noArrival]
    · simpa [noWait, noMessage] using accounted

theorem Handled.proceed {gates : List Gate} {limit now gate : Nat} {request : RollupRequest}
    {wait : Wait} (handled : Handled plan events index (some (.waiting request gate wait)))
    (gated : gates.length = plan.calendars.length)
    (outcome : Except TransportFault ProvisionState)
    (ended : next = .afterWait gates limit now request gate outcome) :
    Handled plan (events ++ ([.waited index outcome] ++
      issuedEvents (log (.handling index) next.command?))) index (some next) := by
  cases handled with
  | present payload moment arrival accounted =>
    subst ended
    have haccounted := accounted.afterWait limit now gated outcome
    refine .present payload moment ?_ ?_
    · simp [arrival]
    · simpa using haccounted

theorem Handled.receive {answer : Answer} (handled : Handled plan events index (some handling))
    (received : handling.receive? answer = some next) :
    Handled plan (events ++ ([.message (.handling index) (.answered answer)] ++
      issuedEvents (log (.handling index) next.command?))) index (some next) := by
  cases handled with
  | present payload moment arrival accounted =>
    obtain ⟨hcommand, haccounted⟩ := accounted.receive received
    refine .present payload moment ?_ ?_
    · simp [arrival]
    · simpa [hcommand] using haccounted

theorem waitOutcome?_eq {request : RollupRequest} {place : Nat} {wait : Wait} {gate : Gate}
    (found : o.handlings[index]? = some (.waiting request place wait))
    (there : o.gates[place]? = some gate) :
    o.waitOutcome? index = wait.outcome? gate o.now := by
  simp [waitOutcome?, found, there]

theorem Attends.length_gates (attends : Attends plan o) :
    o.gates.length = plan.calendars.length := by
  rw [← attends.calendars, List.length_map]

theorem Handled.step {label : Label} (attends : Attends plan o) (moves : Moves o label o')
    (handled : Handled plan events index o.handlings[index]?) :
    Handled plan (events ++ o.seen label o') index o'.handlings[index]? := by
  cases moves with
  | startTask stepped advances =>
    exact handled.append (by simp) (by simp) (by simp)
  | answerTask stepped advances =>
    exact handled.append (by simp) (by simp) (by simp)
  | elapse millis =>
    rw [seen_elapse, List.append_nil]
    exact handled
  | @arrive payload moment handling made =>
    change Handled plan _ index (o.handlings ++ [handling])[index]?
    rw [seen_arrive, getElem?_concat]
    split
    next hindex =>
      subst hindex
      rw [List.getElem?_eq_none (Nat.le_refl _)] at handled
      refine handled.arrive ?_
      rw [made, attends.samePlan]
      exact .ofPayload attends.length_gates
    next hindex =>
      exact handled.append (by simp [Ne.symm hindex]) (by simp) (by simp [Ne.symm hindex])
  | @proceed place handling next found ended =>
    change Handled plan _ index (o.handlings.set place next)[index]?
    rw [seen_proceed]
    by_cases hindex : place = index
    · subst hindex
      obtain ⟨request, reached, wait, gate, outcome, rfl, hgate, houtcome, hnext⟩ :=
        Handling.proceed?_eq_some ended
      have hlt := (List.getElem?_eq_some_iff.mp found).1
      rw [found] at handled
      rw [List.getElem?_set_self hlt, waitOutcome?_eq found hgate, houtcome]
      exact handled.proceed attends.length_gates outcome hnext
    · rw [List.getElem?_set_ne hindex]
      exact handled.append (by simp) (by simp [hindex]) (by simp [hindex])
  | @answerQuery place answer handling next found received =>
    change Handled plan _ index (o.handlings.set place next)[index]?
    rw [seen_answerQuery]
    by_cases hindex : place = index
    · subst hindex
      have hlt := (List.getElem?_eq_some_iff.mp found).1
      rw [found] at handled
      rw [List.getElem?_set_self hlt]
      exact handled.receive received
    · rw [List.getElem?_set_ne hindex]
      exact handled.append (by simp) (by simp) (by simp [hindex])

theorem Run.handled (run : Run plan events o) (index : Nat) :
    Handled plan events index o.handlings[index]? := by
  induction run with
  | start started =>
    cases start_eq_ok started
    exact .absent rfl rfl rfl
  | step prefixRun _ stepped ih => exact ih.step prefixRun.attends (moves_of_step stepped)
  | lag _ millis ih => exact ih
  | abandon _ gate ih => exact ih

end Steps
end Orchestrator
end CalendarRollup
