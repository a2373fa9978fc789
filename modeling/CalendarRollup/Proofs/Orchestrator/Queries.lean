import CalendarRollup.Proofs.Orchestrator.Handlings

/-! Queries of an orchestrator run only after every calendar that they name has been asked for. -/
namespace CalendarRollup

/-- A wait ends well exactly where the gate has settled, whatever the clock shows. -/
theorem Wait.outcome?_eq_ok_iff (wait : Wait) (gate : Gate) (now : Nat) (state : ProvisionState) :
    wait.outcome? gate now = some (.ok state) ↔ gate.state = state ∧ state.isSettled = true := by
  unfold outcome? Gate.settled?
  by_cases hsettled : gate.state.isSettled = true
  · simp only [hsettled, if_true, Option.some.injEq, Except.ok.injEq]
    constructor
    · rintro rfl
      exact ⟨rfl, hsettled⟩
    · rintro ⟨rfl, _⟩
      rfl
  · have hne : ¬(gate.state = state ∧ state.isSettled = true) := by
      rintro ⟨rfl, h⟩
      exact hsettled h
    cases hattended : gate.attended <;> by_cases hdeadline : wait.deadline ≤ now <;>
      simp [hsettled, hne, hdeadline]

namespace Orchestrator

section Runs
variable {plan : RollupPlan} {events : List Event} {o o' : Orchestrator}

/-- The call that a gate tells of. -/
theorem Attends.exists_call (attends : Attends plan o) {place : Nat} {gate : Gate}
    (found : o.gates[place]? = some gate) :
    ∃ spec call, o.provisioner.calls[place]? = some (spec, call) ∧
      gate.state = Provisioner.report call := by
  have hstate := attends.states place
  rw [found] at hstate
  obtain ⟨⟨spec, call⟩, hcall, hreport⟩ := Option.map_eq_some_iff.mp hstate.symm
  exact ⟨spec, call, hcall, hreport.symm⟩

theorem Attends.ended_of_settled (attends : Attends plan o) {place : Nat} {gate : Gate}
    (found : o.gates[place]? = some gate) (settled : gate.state.isSettled = true) :
    o.Ended place := by
  obtain ⟨spec, call, hcall, hstate⟩ := attends.exists_call found
  refine ⟨spec, call, hcall, ?_⟩
  rw [← Provisioner.isSettled_report, ← hstate]
  exact settled

/-- A step ends at most one wait of a handling, as the gate of the wait tells. -/
theorem Moves.waits_seen {label : Label} (moves : Moves o label o') (index : Nat) :
    waits index (o.seen label o') = [] ∨
      ∃ request place wait gate outcome,
        o.handlings[index]? = some (.waiting request place wait) ∧
        o.gates[place]? = some gate ∧ wait.outcome? gate o.now = some outcome ∧
        waits index (o.seen label o') = [outcome] := by
  cases moves with
  | startTask stepped advances => exact .inl (by simp)
  | answerTask stepped advances => exact .inl (by simp)
  | arrive made => exact .inl (by simp)
  | answerQuery found received => exact .inl (by simp)
  | elapse millis => exact .inl (by rw [seen_elapse]; rfl)
  | @proceed moved handling next found ended =>
    by_cases hmoved : moved = index
    · subst hmoved
      obtain ⟨request, place, wait, gate, outcome, rfl, hgate, houtcome, _⟩ :=
        Handling.proceed?_eq_some ended
      refine .inr ⟨request, place, wait, gate, outcome, found, hgate, houtcome, ?_⟩
      rw [seen_proceed, waitOutcome?_eq found hgate, houtcome]
      simp
    · exact .inl (by simp [hmoved])

/-- A handling passes a gate without a fault only after the call of the gate has ended. -/
theorem Run.ended_of_waits (run : Run plan events o) {index place : Nat}
    {state : ProvisionState} (passed : (waits index events)[place]? = some (.ok state)) :
    o.Ended place := by
  induction run with
  | start started => cases passed
  | lag _ millis ih => exact ih passed
  | abandon _ gate ih => exact ih passed
  | @step events o o' prefixRun label stepped ih =>
    have hmoves := moves_of_step stepped
    rw [waits_append] at passed
    rcases hmoves.waits_seen index with hseen | ⟨request, reached, wait, gate, outcome, hwaiting,
      hgate, houtcome, hseen⟩
    · rw [hseen, List.append_nil] at passed
      exact (ih passed).step hmoves
    · rw [hseen] at passed
      rw [getElem?_concat] at passed
      split at passed
      next hlast =>
        cases passed
        obtain ⟨rfl, hsettled⟩ := (wait.outcome?_eq_ok_iff gate o.now state).mp houtcome
        have hhandled := prefixRun.handled index
        rw [hwaiting] at hhandled
        cases hhandled with
        | present _ _ arrival accounted =>
          rw [hlast, accounted.length_waits]
          exact (prefixRun.attends.ended_of_settled hgate hsettled).step hmoves
      next => exact (ih passed).step hmoves

/-- Every call for a calendar that has ended has had both of its commands answered. -/
theorem Run.exchange_of_ended (run : Run plan events o) {place : Nat} {spec : CalendarSpec}
    (ended : o.Ended place) (named : plan.calendars[place]? = some spec) :
    ∃ a b, messages (.task place) events = Ensure.exchange spec a b := by
  obtain ⟨called, call, hcall, hdone⟩ := ended
  obtain ⟨seen, hrun, hmessages⟩ := run.exists_provisioner_run
  have hspecs := run.attends.specs
  have hspec : plan.calendars[place]? = some called := by
    rw [← hspecs, List.getElem?_map, hcall]
    rfl
  obtain rfl := Option.some.inj (hspec.symm.trans named)
  rw [← hmessages place]
  exact hrun.messages_of_isDone (hspecs ▸ plan.nodup_calendars) hcall hdone

/-- A handling has issued no command, or it has waited for every gate and issued its query. -/
theorem Run.commands_eq (run : Run plan events o) (index : Nat) :
    commands (.handling index) events = [] ∨
      ∃ payload moment request statement, ∃ states : List ProvisionState,
        arrivals index events = [(payload, moment)] ∧
        plan.request payload moment = .ok request ∧ request.query = .ok statement ∧
        waits index events = states.map .ok ∧ states.length = plan.calendars.length ∧
        commands (.handling index) events = [.execute statement] := by
  have hhandled := run.handled index
  generalize o.handlings[index]? = found at hhandled
  cases hhandled with
  | absent noArrival noWait noMessage =>
    left
    unfold commands
    rw [noMessage]
    rfl
  | present _ _ arrival accounted =>
    rcases accounted.commands_eq with hnone | ⟨request, statement, states, hissued⟩
    · exact .inl hnone
    · exact .inr ⟨_, _, request, statement, states, arrival, hissued⟩

theorem Run.exchange_of_commands (run : Run plan events o) {index place : Nat}
    {spec : CalendarSpec} (asked : commands (.handling index) events ≠ [])
    (named : plan.calendars[place]? = some spec) :
    ∃ a b, messages (.task place) events = Ensure.exchange spec a b := by
  rcases run.commands_eq index with hnone | ⟨_, _, _, _, states, _, _, _, hwaits, hfull, _⟩
  · exact absurd hnone asked
  · have hlt : place < states.length := hfull ▸ (List.getElem?_eq_some_iff.mp named).1
    have hpassed : (waits index events)[place]? = some (.ok states[place]) := by
      rw [hwaits, List.getElem?_map, List.getElem?_eq_getElem hlt]
      rfl
    exact run.exchange_of_ended (run.ended_of_waits hpassed) named

theorem Moves.messages_task_seen {label : Label} (moves : Moves o label o') {index : Nat}
    {command : Command} (asks : .message (.handling index) (.issued command) ∈ o.seen label o')
    (place : Nat) : messages (.task place) (o.seen label o') = [] := by
  cases moves with
  | startTask stepped advances => simp [issuedEvents, log] at asks
  | answerTask stepped advances => simp [issuedEvents, log] at asks
  | arrive made => simp
  | proceed found ended => simp
  | answerQuery found received => simp
  | elapse millis =>
    rw [seen_elapse]
    rfl

/-- Before a query is issued, the exchange of every calendar has come to its end. -/
theorem Run.exchange_before (run : Run plan events o) {before after : List Event} {index : Nat}
    {command : Command}
    (split : events = before ++ .message (.handling index) (.issued command) :: after)
    {place : Nat} {spec : CalendarSpec} (named : plan.calendars[place]? = some spec) :
    ∃ a b, messages (.task place) before = Ensure.exchange spec a b := by
  induction run generalizing before after with
  | start started => simp at split
  | lag _ millis ih => exact ih split
  | abandon _ gate ih => exact ih split
  | @step events o o' prefixRun label stepped ih =>
    -- The query is issued in this last step, after the part `middle` of what is seen of it.
    have hlast : ∀ middle, o.seen label o' =
        middle ++ .message (.handling index) (.issued command) :: after →
          ∃ a b, messages (.task place) (events ++ middle) = Ensure.exchange spec a b := by
      intro middle hseen
      have hasks : .message (.handling index) (.issued command) ∈ o.seen label o' := by
        simp [hseen]
      have hquiet := (moves_of_step stepped).messages_task_seen hasks place
      have hcommand := mem_commands (List.mem_append_right events hasks)
      obtain ⟨a, b, hexchange⟩ := (prefixRun.step label stepped).exchange_of_commands
        (List.ne_nil_of_mem hcommand) named
      refine ⟨a, b, ?_⟩
      rw [hseen, messages_append] at hquiet
      rw [messages_append, (List.append_eq_nil_iff.mp hquiet).1, ← hexchange, messages_append,
        hseen, messages_append, hquiet]
    rcases List.append_eq_append_iff.mp split with ⟨middle, rfl, hseen⟩ | ⟨rest, hevents, hafter⟩
    · exact hlast middle hseen
    · cases rest with
      | nil =>
        rw [List.append_nil] at hevents
        subst hevents
        simpa using hlast [] hafter.symm
      | cons event rest =>
        obtain ⟨rfl, _⟩ := List.cons.inj hafter
        exact ih hevents

section Silent
variable {index : Nat} {payload : Json} {moment : Instant}

theorem Run.commands_of_refused (run : Run plan events o) {fault : RequestFault}
    (arrived : (payload, moment) ∈ arrivals index events)
    (refused : plan.request payload moment = .error fault) :
    commands (.handling index) events = [] := by
  rcases run.commands_eq index with hnone | ⟨_, _, _, _, _, harrival, hmade, _⟩
  · exact hnone
  · rw [harrival] at arrived
    cases List.mem_singleton.mp arrived
    rw [refused] at hmade
    cases hmade

theorem Run.commands_of_fault (run : Run plan events o) {fault : TransportFault}
    (ended : .error fault ∈ waits index events) : commands (.handling index) events = [] := by
  rcases run.commands_eq index with hnone | ⟨_, _, _, _, states, _, _, _, hwaits, _⟩
  · exact hnone
  · rw [hwaits] at ended
    simp at ended

theorem Run.commands_of_unbuilt (run : Run plan events o) {request : RollupRequest}
    {fault : RequestFault} (arrived : (payload, moment) ∈ arrivals index events)
    (made : plan.request payload moment = .ok request) (unbuilt : request.query = .error fault) :
    commands (.handling index) events = [] := by
  rcases run.commands_eq index with hnone | ⟨_, _, _, _, _, harrival, hmade, hbuilt, _⟩
  · exact hnone
  · rw [harrival] at arrived
    cases List.mem_singleton.mp arrived
    cases made.symm.trans hmade
    rw [unbuilt] at hbuilt
    cases hbuilt

end Silent

/-- A handling that has waited for every gate without a fault issues its query. -/
theorem Run.commands_of_full (run : Run plan events o) {index : Nat} {payload : Json}
    {moment : Instant} {request : RollupRequest} {statement : String}
    (states : List ProvisionState) (arrived : (payload, moment) ∈ arrivals index events)
    (made : plan.request payload moment = .ok request) (built : request.query = .ok statement)
    (passed : waits index events = states.map .ok)
    (full : states.length = plan.calendars.length) :
    commands (.handling index) events = [.execute statement] := by
  have hhandled := run.handled index
  generalize o.handlings[index]? = found at hhandled
  cases hhandled with
  | absent noArrival noWait noMessage =>
    rw [noArrival] at arrived
    cases arrived
  | present _ _ arrival accounted =>
    rw [arrival] at arrived
    cases List.mem_singleton.mp arrived
    exact accounted.commands_of_full made built passed full

theorem step_proceed {index place : Nat} {request : RollupRequest} {wait : Wait} {gate : Gate}
    (found : o.handlings[index]? = some (.waiting request place wait))
    (there : o.gates[place]? = some gate) (settled : gate.state.isSettled = true) :
    ∃ o', o.step (.proceed index) = some o' ∧
      o'.handlings[index]? = some (.approach o.gates o.limit o.now request (place + 1)) ∧
      waits index (o.seen (.proceed index) o') = [.ok gate.state] := by
  have houtcome := (wait.outcome?_eq_ok_iff gate o.now gate.state).mpr ⟨rfl, settled⟩
  have hproceed : (Handling.waiting request place wait).proceed? o.gates o.limit o.now =
      some (.approach o.gates o.limit o.now request (place + 1)) := by
    simp [Handling.proceed?, there, houtcome]
  have hlt := (List.getElem?_eq_some_iff.mp found).1
  refine ⟨o.setHandling index (.approach o.gates o.limit o.now request (place + 1)), ?_, ?_, ?_⟩
  · simp [Orchestrator.step, found, hproceed]
  · exact List.getElem?_set_self hlt
  · rw [seen_proceed, waitOutcome?_eq found there, houtcome]
    simp

/-- A settled gate lets a handling pass, to the next gate or to its query. -/
theorem Run.proceed_of_settled (run : Run plan events o) {index place : Nat}
    {request : RollupRequest} {wait : Wait} {gate : Gate}
    (found : o.handlings[index]? = some (.waiting request place wait))
    (there : o.gates[place]? = some gate) (settled : gate.state.isSettled = true) :
    ∃ o', o.step (.proceed index) = some o' ∧
      (place + 1 < plan.calendars.length →
        ∃ next, o'.handlings[index]? = some (.waiting request (place + 1) next)) ∧
      (place + 1 = plan.calendars.length → ∀ statement, request.query = .ok statement →
        commands (.handling index) (events ++ o.seen (.proceed index) o') =
          [.execute statement]) := by
  obtain ⟨o', hstep, hnext, hwaits⟩ := step_proceed found there settled
  refine ⟨o', hstep, fun hmore => ⟨.begun o.now o.limit, ?_⟩, fun hlast statement hbuilt => ?_⟩
  · rw [hnext, Handling.approach, if_pos (run.attends.length_gates ▸ hmore)]
  · have hhandled := run.handled index
    rw [found] at hhandled
    cases hhandled with
    | present payload moment arrival accounted =>
      generalize hpassed : waits index events = passed at accounted
      generalize messages (.handling index) events = messages at accounted
      cases accounted with
      | @waiting _ states _ made short =>
        have harrived : (payload, moment) ∈
            arrivals index (events ++ o.seen (.proceed index) o') := by
          simp [arrival]
        refine (run.step _ hstep).commands_of_full (states ++ [gate.state])
          harrived made hbuilt ?_ ?_
        · rw [waits_append, hpassed, hwaits, List.map_append]
          rfl
        · simpa using hlast

/-- No query is issued before both commands for every calendar that the handlings wait for have
been issued and answered, in whatever order tasks and handlings go on. A handling issues at most
one command: none if its payload is refused, a wait ends with a fault or the query cannot be
built, and its query once all of its waits have ended well. A gate that has settled lets it pass
also where the calendar has failed. -/
theorem Run.query_after_calendars (run : Run plan events o) :
    o.gates.map Gate.calendar = plan.calendars ∧
    (∀ before after index command,
      events = before ++ .message (.handling index) (.issued command) :: after →
        ∀ place spec, plan.calendars[place]? = some spec →
          ∃ a b, messages (.task place) before = Ensure.exchange spec a b) ∧
    (∀ index, (commands (.handling index) events).length ≤ 1) ∧
    (∀ index payload moment, .arrived index payload moment ∈ events →
      (∀ fault, plan.request payload moment = .error fault →
        commands (.handling index) events = []) ∧
      (∀ fault, .waited index (.error fault) ∈ events →
        commands (.handling index) events = []) ∧
      (∀ request, plan.request payload moment = .ok request →
        (∀ fault, request.query = .error fault → commands (.handling index) events = []) ∧
        ∀ statement (states : List ProvisionState), request.query = .ok statement →
          waits index events = states.map .ok → states.length = plan.calendars.length →
            commands (.handling index) events = [.execute statement])) ∧
    (∀ index request place wait gate reason,
      o.handlings[index]? = some (.waiting request place wait) →
      o.gates[place]? = some gate → gate.state = .failed reason →
        ∃ o', o.step (.proceed index) = some o' ∧
          (place + 1 < plan.calendars.length →
            ∃ next, o'.handlings[index]? = some (.waiting request (place + 1) next)) ∧
          (place + 1 = plan.calendars.length → ∀ statement, request.query = .ok statement →
            commands (.handling index) (events ++ o.seen (.proceed index) o') =
              [.execute statement])) := by
  refine ⟨run.attends.calendars, ?_, ?_, ?_, ?_⟩
  · intro before after index command split place spec named
    exact run.exchange_before split named
  · intro index
    rcases run.commands_eq index with hnone | ⟨_, _, _, _, _, _, _, _, _, _, hone⟩
    · rw [hnone]
      exact Nat.zero_le 1
    · rw [hone]
      exact Nat.le_refl 1
  · intro index payload moment arrived
    have harrived := mem_arrivals arrived
    refine ⟨?_, ?_, fun request hmade => ⟨?_, ?_⟩⟩
    · intro fault hrefused
      exact run.commands_of_refused harrived hrefused
    · intro fault hfault
      exact run.commands_of_fault (mem_waits hfault)
    · intro fault hunbuilt
      exact run.commands_of_unbuilt harrived hmade hunbuilt
    · intro statement states hbuilt hpassed hfull
      exact run.commands_of_full states harrived hmade hbuilt hpassed hfull
  · intro index request place wait gate reason found there failed
    exact run.proceed_of_settled found there (by rw [failed]; rfl)

end Runs

def hourlyPlan : RollupPlan where
  table := "readings"
  idColumn := "sensor"
  timeColumn := "measured"
  rules := [⟨"temp", .max⟩]
  mode := .continuous
  calendar := SamplingBucket.oneHour.calendar
  lookback := ⟨6, .hour, by decide⟩
  endTime := .now
  provisionTimeoutSecs := 1

def sensorPayload : Json := .object [("sensor", .text "a")]

def noon : Instant := ⟨1704110400, 0, by decide⟩

/-- One payload times out, another is refused. The last is queried for, after the first of its
calendars has failed. -/
theorem Run.query_after_calendars_hourlyPlan :
    ∃ events o, Run hourlyPlan events o ∧ commands (.handling 0) events = [] ∧
      commands (.handling 1) events = [] ∧
      (∃ reason, waits 2 events = [.ok (.failed reason), .ok .ready]) ∧
      ∃ statement, commands (.handling 2) events = [.execute statement] := by
  obtain ⟨events, o, run, harrived, htimedOut, hrefused, hlast, reason, hwaits⟩ :
      ∃ events o, Run hourlyPlan events o ∧ .arrived 0 sensorPayload noon ∈ events ∧
        .waited 0 (.error (.timedOut SamplingBucket.oneHour.calendar)) ∈ events ∧
        .arrived 1 .null noon ∈ events ∧ .arrived 2 sensorPayload noon ∈ events ∧
        ∃ reason, waits 2 events = [.ok (.failed reason), .ok .ready] :=
    ⟨_, _, (((Run.start rfl : Run hourlyPlan _ _)
      |>.step (.arrive sensorPayload noon) rfl
      |>.lag 1000)
      |>.step (.proceed 0) rfl
      |>.step (.arrive .null noon) rfl
      |>.step (.arrive sensorPayload noon) rfl
      |>.step (.startTask 0) rfl
      |>.step (.answerTask 0 (.error (.failed "connection reset"))) rfl
      |>.step (.answerTask 0 (.ok ⟨500, "locked"⟩)) rfl
      |>.step (.proceed 2) rfl
      |>.step (.startTask 1) rfl
      |>.step (.answerTask 1 (.ok ⟨201, ""⟩)) rfl
      |>.step (.answerTask 1 (.ok ⟨201, ""⟩)) rfl
      |>.step (.proceed 2) rfl), List.mem_of_getElem? (i := 0) rfl,
      List.mem_of_getElem? (i := 1) rfl, List.mem_of_getElem? (i := 2) rfl,
      List.mem_of_getElem? (i := 3) rfl, _, rfl⟩
  obtain ⟨_, _, _, hcommands, _⟩ := run.query_after_calendars
  obtain ⟨_, hfault, _⟩ := hcommands 0 sensorPayload noon harrived
  obtain ⟨hunmade, _⟩ := hcommands 1 .null noon hrefused
  obtain ⟨_, _, hmade⟩ := hcommands 2 sensorPayload noon hlast
  obtain ⟨_, hqueried⟩ := hmade _ rfl
  exact ⟨events, o, run, hfault _ htimedOut, hunmade .payloadNotObject rfl, ⟨reason, hwaits⟩,
    _, hqueried _ [.failed reason, .ready] rfl hwaits rfl⟩

end Orchestrator
end CalendarRollup
