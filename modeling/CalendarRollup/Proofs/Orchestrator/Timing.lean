import CalendarRollup.Proofs.Orchestrator.Queries

/-! The moment at which a query is issued. A handling has the whole limit for each gate that it
waits for, so its waits may come to more than the limit where there are two gates. -/
namespace CalendarRollup

theorem isSome_getElem? {α : Type} {values : List α} {place : Nat} :
    values[place]?.isSome = true ↔ place < values.length := by
  simp

theorem foldl_max_le_iff {first bound : Nat} {values : List Nat} :
    values.foldl max first ≤ bound ↔ first ≤ bound ∧ ∀ value ∈ values, value ≤ bound := by
  induction values generalizing first with
  | nil => simp
  | cons value rest ih =>
    rw [List.foldl_cons, ih, Nat.max_le, List.forall_mem_cons, and_assoc]

theorem Provisioner.Accounted.length_messages_lt {spec : CalendarSpec}
    {memories : List (List CalendarSpec)} {messages : List Message} {call : Ensure}
    (accounted : Accounted spec memories messages call) (waits : call.isDone = false) :
    messages.length < 4 := by
  cases accounted with
  | unstarted => simp
  | found known => cases waits
  | asked unknown recorded =>
    cases recorded with
    | awaitingPattern => simp
    | awaitingCalendar a => simp
    | done a b => cases waits

namespace Orchestrator

/-- All that can happen under a plan, with the moments at which it is seen. The clock moves on only
in steps of its own; a reporter may go before its calendar has settled. -/
inductive Timed (plan : RollupPlan) : List (Nat × Event) → Orchestrator → Prop
  | start {o : Orchestrator} : Orchestrator.start plan = .ok o → Timed plan [] o
  | step {events : List (Nat × Event)} {o o' : Orchestrator} (timed : Timed plan events o)
    (label : Label) (stepped : o.step label = some o') :
    Timed plan (events ++ (o.seen label o').map (o.now, ·)) o'
  | abandon {events : List (Nat × Event)} {o : Orchestrator} (timed : Timed plan events o)
    (gate : Nat) : Timed plan events { o with gates := o.gates.modify gate Gate.leave }

def Event.isMessage (issuer : Issuer) : Event → Bool
  | .message other _ => other == issuer
  | _ => false

def Event.isArrival (index : Nat) : Event → Bool
  | .arrived other _ _ => other == index
  | _ => false

/-- When events of a kind were seen, in order. -/
def moments (isOf : Event → Bool) (events : List (Nat × Event)) : List Nat :=
  (events.filter (isOf ·.2)).map Prod.fst

/-- When the gate at a place settled: as the last of the four messages between its task and the
backend was seen, which is the answer to the second command. -/
def settledAt? (place : Nat) (events : List (Nat × Event)) : Option Nat :=
  (moments (Event.isMessage (.task place)) events)[3]?

section Moments
variable {events seen : List (Nat × Event)} {place now moment : Nat}

theorem moments_append (isOf : Event → Bool) :
    moments isOf (events ++ seen) = moments isOf events ++ moments isOf seen := by
  simp [moments]

theorem length_moments (isOf : Event → Bool) :
    (moments isOf events).length = (events.map Prod.snd).countP isOf := by
  rw [moments, List.length_map, ← List.countP_eq_length_filter, List.countP_map]
  rfl

theorem countP_isMessage (issuer : Issuer) (events : List Event) :
    events.countP (Event.isMessage issuer) = (messages issuer events).length := by
  rw [messages, List.length_filterMap_eq_countP]
  congr 1
  funext event
  cases event with
  | message other message => by_cases h : other = issuer <;> simp [Event.isMessage, h]
  | _ => rfl

theorem countP_isArrival (index : Nat) (events : List Event) :
    events.countP (Event.isArrival index) = (arrivals index events).length := by
  rw [arrivals, List.length_filterMap_eq_countP]
  congr 1
  funext event
  cases event with
  | arrived other payload moment => by_cases h : other = index <;> simp [Event.isArrival, h]
  | _ => rfl

theorem isSome_settledAt?_iff :
    (settledAt? place events).isSome = true ↔
      4 ≤ (messages (.task place) (events.map Prod.snd)).length := by
  rw [settledAt?, isSome_getElem?, length_moments, countP_isMessage]
  exact Iff.rfl

theorem settledAt?_append (settled : settledAt? place events = some moment) :
    settledAt? place (events ++ seen) = some moment := by
  unfold settledAt? at settled ⊢
  rw [moments_append, List.getElem?_append_left (List.getElem?_eq_some_iff.mp settled).1, settled]

/-- A gate that settles in a step does so at the moment of the step. -/
theorem settledAt?_seen {step : List Event}
    (settled : settledAt? place (events ++ step.map (now, ·)) = some moment) :
    settledAt? place events = some moment ∨ moment = now := by
  unfold settledAt? at settled ⊢
  rw [moments_append, List.getElem?_append] at settled
  split at settled
  next => exact .inl settled
  next =>
    have hmem := List.mem_of_getElem? settled
    simp only [moments, List.mem_map, List.mem_filter] at hmem
    obtain ⟨_, ⟨⟨event, _, rfl⟩, _⟩, rfl⟩ := hmem
    exact .inr rfl

theorem exists_mem_of_settledAt? (settled : settledAt? place events = some moment) :
    ∃ event, (moment, event) ∈ events := by
  have hmem := List.mem_of_getElem? settled
  simp only [moments, List.mem_map, List.mem_filter] at hmem
  obtain ⟨⟨_, event⟩, ⟨hevent, _⟩, rfl⟩ := hmem
  exact ⟨event, hevent⟩

end Moments

/-- A handling has passed some gates at a moment. It passes a gate as that settles, or at once if
that was before the wait, and only where it settles within the limit from the beginning of this
wait. -/
inductive Passed (limit : Nat) (events : List (Nat × Event)) (arrived : Nat) : Nat → Nat → Prop
  | none : Passed limit events arrived 0 arrived
  | next {place since ended : Nat} (passed : Passed limit events arrived place since)
    (settled : settledAt? place events = some ended) (within : ended ≤ since + limit) :
    Passed limit events arrived (place + 1) (max since ended)

section Passing
variable {limit arrived place moment : Nat} {events : List (Nat × Event)}

theorem Passed.append (passed : Passed limit events arrived place moment)
    (seen : List (Nat × Event)) : Passed limit (events ++ seen) arrived place moment := by
  induction passed with
  | none => exact .none
  | next _ settled within ih => exact .next ih (settledAt?_append settled) within

theorem Passed.le (passed : Passed limit events arrived place moment) :
    moment ≤ arrived + place * limit := by
  induction passed with
  | none => omega
  | next _ settled within ih =>
    rw [Nat.succ_mul]
    omega

theorem Passed.exists_settled (passed : Passed limit events arrived place moment) :
    ∃ settled : List Nat, settled.length = place ∧ moment = settled.foldl max arrived ∧
      ∀ (gate ended : Nat), settled[gate]? = some ended → settledAt? gate events = some ended ∧
        ended ≤ (settled.take gate).foldl max arrived + limit := by
  induction passed with
  | none => exact ⟨[], rfl, rfl, fun gate ended found => by simp at found⟩
  | @next place since last passed hlast hwithin ih =>
    obtain ⟨settled, rfl, rfl, hsettled⟩ := ih
    refine ⟨settled ++ [last], by simp, by simp, fun gate ended found => ?_⟩
    rw [getElem?_concat] at found
    split at found
    next hgate =>
      cases found
      subst hgate
      rw [List.take_left]
      exact ⟨hlast, hwithin⟩
    next =>
      have hlt := (List.getElem?_eq_some_iff.mp found).1
      rw [List.take_append_of_le_length (Nat.le_of_lt hlt)]
      exact hsettled gate ended found

end Passing

/-- A payload has come to be handled at a moment. -/
def ArrivedAt (events : List (Nat × Event)) (index arrived : Nat) : Prop :=
  ∃ payload moment, (arrived, .arrived index payload moment) ∈ events

/-- A handling waits for the gate at a place since a moment. It passes as soon as that settles. -/
structure Awaits (events : List (Nat × Event)) (o : Orchestrator) (index place since : Nat) :
    Prop where
  passed : ∃ arrived, ArrivedAt events index arrived ∧ Passed o.limit events arrived place since
  begun : since ≤ o.now
  due : o.now ≤ since + o.limit
  prompt : ∀ ended, settledAt? place events = some ended → o.now = max since ended

/-- The waits and the query of a handling are at the moments that the gates tell. -/
structure Punctual (events : List (Nat × Event)) (o : Orchestrator) (index : Nat) : Prop where
  waits : ∀ request place wait, o.handlings[index]? = some (.waiting request place wait) →
    ∃ since, wait = .begun since o.limit ∧ Awaits events o index place since
  asks : ∀ asked command, (asked, .message (.handling index) (.issued command)) ∈ events →
    ∃ arrived, ArrivedAt events index arrived ∧
      Passed o.limit events arrived o.gates.length asked

section Steps
variable {plan : RollupPlan} {events : List (Nat × Event)} {seen : List Event}
  {o o' : Orchestrator} {index place since : Nat}

theorem Timed.run (timed : Timed plan events o) : Run plan (events.map Prod.snd) o := by
  induction timed with
  | start started => exact .start started
  | abandon _ gate ih => exact ih.abandon gate
  | step _ label stepped ih => simpa [Function.comp_def] using ih.step label stepped

/-- The clock moves on only where no wait can end, and not beyond the end of any. -/
theorem elapse_eq_some {millis : Nat} (h : o.step (.elapse millis) = some o') :
    o' = { o with now := o.now + millis } ∧
      ∀ (index : Nat) request place wait,
        o.handlings[index]? = some (Handling.waiting request place wait) →
          o.canProceed (.waiting request place wait) = false ∧ o.now + millis ≤ wait.deadline := by
  simp only [step] at h
  split at h
  next hready =>
    simp only [Bool.and_eq_true, isIdle, List.all_eq_true] at hready
    refine ⟨(Option.some.inj h).symm, fun index request place wait found => ?_⟩
    have hmem := List.mem_of_getElem? found
    exact ⟨by simpa using hready.1.2 _ hmem, by simpa [Handling.deadline?] using hready.2 _ hmem⟩
  next => cases h

theorem Timed.moment_le (timed : Timed plan events o) {moment : Nat} {event : Event}
    (was : (moment, event) ∈ events) : moment ≤ o.now := by
  induction timed with
  | start started => cases was
  | abandon _ gate ih => exact ih was
  | @step events o o' _ label stepped ih =>
    have hclock : o.now ≤ o'.now := by
      cases moves_of_step stepped with
      | elapse millis => exact Nat.le_add_right _ _
      | _ => exact Nat.le_refl _
    rcases List.mem_append.mp was with hbefore | hnow
    · exact Nat.le_trans (ih hbefore) hclock
    · obtain ⟨_, _, hsame⟩ := List.mem_map.mp hnow
      cases hsame
      exact hclock

/-- A gate has settled when its task has had its second answer. -/
theorem Run.length_messages_task {events : List Event} (run : Run plan events o) {gate : Gate}
    (found : o.gates[place]? = some gate) :
    4 ≤ (messages (.task place) events).length ↔ gate.state.isSettled = true := by
  constructor
  · intro enough
    obtain ⟨seen, hrun, hmessages⟩ := run.exists_provisioner_run
    obtain ⟨spec, call, hcall, hstate⟩ := run.attends.exists_call found
    rw [hstate, Provisioner.isSettled_report]
    cases hdone : call.isDone with
    | true => rfl
    | false =>
      have hless := (hrun.explained.calls hcall).length_messages_lt hdone
      rw [hmessages] at hless
      omega
  · intro settled
    have hnamed : plan.calendars[place]? = some gate.calendar := by
      rw [← run.attends.calendars, List.getElem?_map, found]
      rfl
    obtain ⟨a, b, hexchange⟩ :=
      run.exchange_of_ended (run.attends.ended_of_settled found settled) hnamed
    rw [hexchange]
    exact Nat.le_refl 4

theorem Timed.isSome_settledAt?_iff (timed : Timed plan events o) {gate : Gate}
    (found : o.gates[place]? = some gate) :
    (settledAt? place events).isSome = true ↔ gate.state.isSettled = true :=
  Orchestrator.isSome_settledAt?_iff.trans (timed.run.length_messages_task found)

theorem ArrivedAt.append {arrived : Nat} (arrival : ArrivedAt events index arrived)
    (more : List (Nat × Event)) : ArrivedAt (events ++ more) index arrived := by
  obtain ⟨payload, moment, hmem⟩ := arrival
  exact ⟨payload, moment, List.mem_append_left _ hmem⟩

/-- While the clock stands, a wait goes on, and its gate may settle now. -/
theorem Awaits.append (awaits : Awaits events o index place since) (seen : List Event)
    (limits : o'.limit = o.limit) (clock : o'.now = o.now) :
    Awaits (events ++ seen.map (o.now, ·)) o' index place since := by
  obtain ⟨⟨arrived, harrived, hpassed⟩, hbegun, hdue, hprompt⟩ := awaits
  refine ⟨⟨arrived, harrived.append _, ?_⟩, ?_, ?_, fun ended settled => ?_⟩
  · rw [limits]
    exact hpassed.append _
  · rwa [clock]
  · rwa [clock, limits]
  · rw [clock]
    rcases settledAt?_seen settled with hbefore | rfl
    · exact hprompt ended hbefore
    · exact (Nat.max_eq_right hbegun).symm

/-- A query that was issued before stays where it is. -/
theorem Punctual.asked_before (punctual : Punctual events o index) (more : List (Nat × Event))
    (limits : o'.limit = o.limit) (gates : o'.gates.length = o.gates.length) {asked : Nat}
    {command : Command} (asks : (asked, .message (.handling index) (.issued command)) ∈ events) :
    ∃ arrived, ArrivedAt (events ++ more) index arrived ∧
      Passed o'.limit (events ++ more) arrived o'.gates.length asked := by
  obtain ⟨arrived, harrived, hpassed⟩ := punctual.asks asked command asks
  refine ⟨arrived, harrived.append more, ?_⟩
  rw [limits, gates]
  exact hpassed.append more

/-- A step that leaves a handling where it is. -/
theorem Punctual.append (punctual : Punctual events o index) (limits : o'.limit = o.limit)
    (clock : o'.now = o.now) (gates : o'.gates.length = o.gates.length)
    (same : o'.handlings[index]? = o.handlings[index]?)
    (silent : commands (.handling index) seen = []) :
    Punctual (events ++ seen.map (o.now, ·)) o' index where
  waits request place wait found := by
    obtain ⟨since, hwait, hawaits⟩ := punctual.waits request place wait (same ▸ found)
    exact ⟨since, by rw [limits, hwait], hawaits.append seen limits clock⟩
  asks asked command asks := by
    rcases List.mem_append.mp asks with hbefore | hnow
    · exact punctual.asked_before _ limits gates hbefore
    · obtain ⟨event, hevent, hsame⟩ := List.mem_map.mp hnow
      cases hsame
      exact absurd (mem_commands hevent) (by simp [silent])

/-- Where a step may lead a handling: to its end, or to a gate or the query, past the gates
before. -/
inductive Reaches (events : List (Nat × Event)) (o : Orchestrator) (index : Nat) :
    Handling → Prop
  | done (result : Except Fault RollupResult) : Reaches events o index (.done result)
  | approach {place arrived : Nat} (request : RollupRequest) (within : place ≤ o.gates.length)
    (arrival : ArrivedAt events index arrived)
    (passed : Passed o.limit events arrived place o.now) :
    Reaches events o index (.approach o.gates o.limit o.now request place)

theorem Reaches.awaits {handling : Handling} {request : RollupRequest} {wait : Wait}
    (reaches : Reaches events o index handling)
    (past : ∀ {moment event}, (moment, event) ∈ events → moment ≤ o.now)
    (waits : handling = .waiting request place wait) :
    wait = .begun o.now o.limit ∧ Awaits events o index place o.now := by
  cases reaches with
  | done result => cases waits
  | approach asked within arrival passed =>
    unfold Handling.approach at waits
    split at waits
    next =>
      cases waits
      refine ⟨rfl, ⟨_, arrival, passed⟩, Nat.le_refl _, Nat.le_add_right _ _, ?_⟩
      intro ended settled
      obtain ⟨event, hevent⟩ := exists_mem_of_settledAt? settled
      exact (Nat.max_eq_left (past hevent)).symm
    next =>
      unfold Handling.query at waits
      split at waits <;> cases waits

theorem Reaches.asks {handling : Handling} {command : Command}
    (reaches : Reaches events o index handling) (asks : handling.command? = some command) :
    ∃ arrived, ArrivedAt events index arrived ∧
      Passed o.limit events arrived o.gates.length o.now := by
  cases reaches with
  | done result => cases asks
  | @approach place arrived request within arrival passed =>
    unfold Handling.approach at asks
    split at asks
    next => cases asks
    next hlast =>
      have hplace : place = o.gates.length := by omega
      exact ⟨arrived, arrival, hplace ▸ passed⟩

/-- A step that leads a handling on. -/
theorem Punctual.reach {handling : Handling} (punctual : Punctual events o index)
    (limits : o'.limit = o.limit) (clock : o'.now = o.now) (gates : o'.gates = o.gates)
    (found : o'.handlings[index]? = some handling)
    (past : ∀ {moment event}, (moment, event) ∈ events → moment ≤ o.now)
    (issued : commands (.handling index) seen = handling.command?.toList)
    (reaches : Reaches (events ++ seen.map (o.now, ·)) o' index handling) :
    Punctual (events ++ seen.map (o.now, ·)) o' index := by
  have hpast : ∀ {moment event}, (moment, event) ∈ events ++ seen.map (o.now, ·) →
      moment ≤ o'.now := by
    intro moment event was
    rw [clock]
    rcases List.mem_append.mp was with hbefore | hnow
    · exact past hbefore
    · obtain ⟨_, _, hsame⟩ := List.mem_map.mp hnow
      cases hsame
      exact Nat.le_refl _
  constructor
  case waits =>
    intro request place wait waits
    exact ⟨o'.now, reaches.awaits hpast (Option.some.inj (found.symm.trans waits))⟩
  case asks =>
    intro asked command asks
    rcases List.mem_append.mp asks with hbefore | hnow
    · exact punctual.asked_before _ limits (by rw [gates]) hbefore
    · obtain ⟨event, hevent, hsame⟩ := List.mem_map.mp hnow
      cases hsame
      have hcommand := mem_commands hevent
      rw [issued, Option.mem_toList] at hcommand
      exact clock ▸ reaches.asks hcommand

/-- A handling waits for a gate that is there. -/
theorem Run.exists_gate {events : List Event} (run : Run plan events o) {request : RollupRequest}
    {wait : Wait} (found : o.handlings[index]? = some (.waiting request place wait)) :
    ∃ gate, o.gates[place]? = some gate := by
  have hhandled := run.handled index
  rw [found] at hhandled
  cases hhandled with
  | present payload moment arrival accounted =>
    generalize waits index events = waits at accounted
    generalize messages (.handling index) events = messages at accounted
    cases accounted with
    | waiting wait made short =>
      exact ⟨_, List.getElem?_eq_getElem (run.attends.length_gates ▸ short)⟩

/-- No time passes beyond the end of a wait, nor once its gate has settled. -/
theorem Punctual.elapse {millis : Nat} (timed : Timed plan events o)
    (punctual : Punctual events o index)
    (stands : ∀ request place wait, o.handlings[index]? = some (.waiting request place wait) →
      o.canProceed (.waiting request place wait) = false ∧ o.now + millis ≤ wait.deadline) :
    Punctual events { o with now := o.now + millis } index where
  waits request place wait found := by
    obtain ⟨since, rfl, hawaits⟩ := punctual.waits request place wait found
    obtain ⟨hstuck, hdeadline⟩ := stands request place _ found
    refine ⟨since, rfl, hawaits.passed, Nat.le_add_right_of_le hawaits.begun, hdeadline, ?_⟩
    -- A gate that has settled would let the handling pass, and the clock would stand.
    intro ended settled
    obtain ⟨gate, hgate⟩ := timed.run.exists_gate found
    have hsettled := (timed.isSome_settledAt?_iff hgate).mp (by simp [settled])
    have houtcome := (Wait.outcome?_eq_ok_iff (.begun since o.limit) gate o.now gate.state).mpr
      ⟨rfl, hsettled⟩
    simp [canProceed, Handling.proceed?, hgate, houtcome] at hstuck
  asks := punctual.asks

theorem commands_append (issuer : Issuer) (events seen : List Event) :
    commands issuer (events ++ seen) = commands issuer events ++ commands issuer seen := by
  simp [commands]

theorem commands_issuedEvents_log (issuer other : Issuer) (command : Option Command) :
    commands issuer (issuedEvents (log other command)) =
      if other = issuer then command.toList else [] := by
  cases command <;> by_cases h : other = issuer <;> simp [commands, h, Message.command?]

theorem Reaches.of_payload {payload : Json} {moment : Instant} {handling : Handling}
    (arrival : ArrivedAt events index o.now)
    (made : handling = .ofPayload o.plan o.gates o.limit o.now payload moment) :
    Reaches events o index handling := by
  rw [made]
  unfold Handling.ofPayload
  cases o.plan.request payload moment with
  | error fault => exact .done _
  | ok request => exact .approach request (Nat.zero_le _) arrival .none

/-- A wait that ends well leads past its gate. -/
theorem Reaches.of_wait {request : RollupRequest} {handling : Handling}
    {outcome : Except TransportFault ProvisionState} (within : place < o.gates.length)
    (passed : ∀ state, outcome = .ok state → ∃ arrived, ArrivedAt events index arrived ∧
      Passed o.limit events arrived (place + 1) o.now)
    (made : handling = .afterWait o.gates o.limit o.now request place outcome) :
    Reaches events o index handling := by
  rw [made]
  cases outcome with
  | error fault => exact .done _
  | ok state =>
    obtain ⟨arrived, harrival, hpassed⟩ := passed state rfl
    exact .approach request within harrival hpassed

/-- A gate that has settled is passed at this moment. -/
theorem Awaits.passed_next (awaits : Awaits events o index place since) {ended : Nat}
    (settled : settledAt? place events = some ended) :
    ∃ arrived, ArrivedAt events index arrived ∧
      Passed o.limit events arrived (place + 1) o.now := by
  obtain ⟨⟨arrived, harrival, hpassed⟩, hbegun, hdue, hprompt⟩ := awaits
  have hnow := hprompt ended settled
  refine ⟨arrived, harrival, ?_⟩
  rw [hnow]
  exact .next hpassed settled (by omega)

theorem Timed.exists_settledAt? (timed : Timed plan events o) {gate : Gate} {wait : Wait}
    {state : ProvisionState} (found : o.gates[place]? = some gate)
    (ended : wait.outcome? gate o.now = some (.ok state)) :
    ∃ moment, settledAt? place events = some moment := by
  obtain ⟨rfl, hsettled⟩ := (wait.outcome?_eq_ok_iff gate o.now state).mp ended
  exact Option.isSome_iff_exists.mp ((timed.isSome_settledAt?_iff found).mpr hsettled)

theorem Punctual.arrive {payload : Json} {moment : Instant} {handling : Handling}
    (timed : Timed plan events o) (punctual : Punctual events o index)
    (made : handling = .ofPayload o.plan o.gates o.limit o.now payload moment) :
    Punctual (events ++ (o.seen (.arrive payload moment) (o.afterArrival handling)).map (o.now, ·))
      (o.afterArrival handling) index := by
  by_cases hindex : o.handlings.length = index
  · subst hindex
    refine punctual.reach rfl rfl rfl List.getElem?_concat_length timed.moment_le ?_
      (.of_payload ⟨payload, moment, ?_⟩ made)
    · rw [seen_arrive, commands_append, commands_issuedEvents_log, if_pos rfl]
      rfl
    · rw [seen_arrive]
      exact List.mem_append_right _ List.mem_cons_self
  · refine punctual.append rfl rfl rfl ?_ ?_
    · change (o.handlings ++ [handling])[index]? = _
      rw [getElem?_concat, if_neg (Ne.symm hindex)]
    · rw [seen_arrive, commands_append, commands_issuedEvents_log, if_neg (by simp [hindex])]
      rfl

theorem Punctual.proceed {moved : Nat} {handling next : Handling} (timed : Timed plan events o)
    (punctual : Punctual events o index) (found : o.handlings[moved]? = some handling)
    (ended : handling.proceed? o.gates o.limit o.now = some next) :
    Punctual (events ++ (o.seen (.proceed moved) (o.setHandling moved next)).map (o.now, ·))
      (o.setHandling moved next) index := by
  by_cases hindex : moved = index
  · subst hindex
    obtain ⟨request, place, wait, gate, outcome, rfl, hgate, houtcome, hnext⟩ :=
      Handling.proceed?_eq_some ended
    have hlt := (List.getElem?_eq_some_iff.mp found).1
    obtain ⟨since, _, hawaits⟩ := punctual.waits request place wait found
    refine punctual.reach rfl rfl rfl (List.getElem?_set_self hlt) timed.moment_le ?_
      (.of_wait (List.getElem?_eq_some_iff.mp hgate).1 ?_ hnext)
    · rw [seen_proceed, commands_append, commands_issuedEvents_log, if_pos rfl]
      simp [commands]
    · rintro state rfl
      obtain ⟨moment, hsettled⟩ := timed.exists_settledAt? hgate houtcome
      obtain ⟨arrived, harrival, hpassed⟩ := hawaits.passed_next hsettled
      exact ⟨arrived, harrival.append _, hpassed.append _⟩
  · refine punctual.append rfl rfl rfl (List.getElem?_set_ne hindex) ?_
    rw [seen_proceed, commands_append, commands_issuedEvents_log, if_neg (by simp [hindex])]
    simp [commands]

theorem Punctual.answerQuery {moved : Nat} {handling next : Handling} {answer : Answer}
    (timed : Timed plan events o) (punctual : Punctual events o index)
    (found : o.handlings[moved]? = some handling)
    (received : handling.receive? answer = some next) :
    Punctual
      (events ++ (o.seen (.answerQuery moved answer) (o.setHandling moved next)).map (o.now, ·))
      (o.setHandling moved next) index := by
  by_cases hindex : moved = index
  · subst hindex
    have hlt := (List.getElem?_eq_some_iff.mp found).1
    cases handling with
    | querying request statement =>
      cases received
      refine punctual.reach rfl rfl rfl (List.getElem?_set_self hlt) timed.moment_le ?_ (.done _)
      simp [commands, Handling.command?, Message.command?]
    | _ => cases received
  · refine punctual.append rfl rfl rfl (List.getElem?_set_ne hindex) ?_
    rw [seen_answerQuery, commands_append, commands_issuedEvents_log, if_neg (by simp [hindex])]
    simp [commands, messages, hindex]

theorem Timed.punctual (timed : Timed plan events o) (index : Nat) : Punctual events o index := by
  induction timed with
  | start started =>
    cases start_eq_ok started
    exact ⟨fun _ _ _ found => (nomatch found), fun _ _ asks => (nomatch asks)⟩
  | @abandon events o _ gate ih =>
    have hsame : Punctual (events ++ [].map (o.now, ·))
        { o with gates := o.gates.modify gate Gate.leave } index :=
      ih.append rfl rfl (List.length_modify ..) rfl rfl
    rwa [List.map_nil, List.append_nil] at hsame
  | @step events o o' timed label stepped ih =>
    cases moves_of_step stepped with
    | startTask _ advances =>
      refine ih.append rfl rfl ?_ rfl ?_
      · simp [afterTask]
      · simp [commands]
    | answerTask _ advances =>
      refine ih.append rfl rfl ?_ rfl ?_
      · simp [afterTask]
      · simp [commands]
    | elapse millis =>
      obtain ⟨_, hstands⟩ := elapse_eq_some stepped
      rw [seen_elapse, List.map_nil, List.append_nil]
      exact ih.elapse timed (hstands index)
    | arrive made => exact ih.arrive timed made
    | proceed found ended => exact ih.proceed timed found ended
    | answerQuery found received => exact ih.answerQuery timed found received

theorem Run.length_arrivals_le {events : List Event} (run : Run plan events o) (index : Nat) :
    (arrivals index events).length ≤ 1 := by
  have hhandled := run.handled index
  generalize o.handlings[index]? = found at hhandled
  cases hhandled with
  | absent noArrival noWait noMessage => simp [noArrival]
  | present payload moment arrival accounted => simp [arrival]

theorem ArrivedAt.mem_moments {arrived : Nat} (arrival : ArrivedAt events index arrived) :
    arrived ∈ moments (Event.isArrival index) events := by
  obtain ⟨payload, moment, hmem⟩ := arrival
  exact List.mem_map.mpr ⟨_, List.mem_filter.mpr ⟨hmem, by simp [Event.isArrival]⟩, rfl⟩

/-- A payload arrives once. -/
theorem Timed.arrived_unique (timed : Timed plan events o) {arrived other : Nat}
    (arrival : ArrivedAt events index arrived) (again : ArrivedAt events index other) :
    arrived = other := by
  have hlength : (moments (Event.isArrival index) events).length ≤ 1 := by
    rw [length_moments, countP_isArrival]
    exact timed.run.length_arrivals_le index
  have harrived := arrival.mem_moments
  have hagain := again.mem_moments
  generalize moments (Event.isArrival index) events = moments at hlength harrived hagain
  match moments with
  | [] => cases harrived
  | [first] => rw [List.mem_singleton.mp harrived, List.mem_singleton.mp hagain]
  | _ :: _ :: _ => simp at hlength

/-- A query is issued as the last of its gates settles, or on arrival if all have settled before.
Each wait has the whole limit from the end of the one before: together they come to at most the
limit for each calendar, and keep to a single one exactly where all gates settle within it from the
arrival. -/
theorem Timed.query_moment (timed : Timed plan events o) {arrived asked : Nat} {payload : Json}
    {moment : Instant} {command : Command}
    (arrival : (arrived, .arrived index payload moment) ∈ events)
    (asks : (asked, .message (.handling index) (.issued command)) ∈ events) :
    ∃ settled : List Nat, settled.length = plan.calendars.length ∧
      (∀ (place ended : Nat), settled[place]? = some ended →
        settledAt? place events = some ended ∧
          ended ≤ (settled.take place).foldl max arrived + o.limit) ∧
      asked = settled.foldl max arrived ∧
      asked ≤ arrived + plan.calendars.length * o.limit ∧
      (asked ≤ arrived + o.limit ↔ ∀ ended ∈ settled, ended ≤ arrived + o.limit) := by
  obtain ⟨other, hother, hpassed⟩ := (timed.punctual index).asks asked command asks
  obtain rfl := timed.arrived_unique hother ⟨payload, moment, arrival⟩
  rw [timed.run.attends.length_gates] at hpassed
  obtain ⟨settled, hlength, hasked, hsettled⟩ := hpassed.exists_settled
  refine ⟨settled, hlength, hsettled, hasked, hpassed.le, ?_⟩
  rw [hasked, foldl_max_le_iff]
  exact and_iff_right (Nat.le_add_right _ _)

end Steps

/-- With a limit of one second, the gates settle after 0.9 and 1.8 seconds. -/
theorem Timed.exists_slow :
    ∃ events o command, Timed hourlyPlan events o ∧ o.limit = 1000 ∧
      (0, .arrived 0 sensorPayload noon) ∈ events ∧
      (1800, .message (.handling 0) (.issued command)) ∈ events ∧
      settledAt? 0 events = some 900 ∧ settledAt? 1 events = some 1800 :=
  ⟨_, _, _, ((Timed.start rfl : Timed hourlyPlan _ _)
    |>.step (.arrive sensorPayload noon) rfl
    |>.step (.startTask 0) rfl
    |>.step (.startTask 1) rfl
    |>.step (.elapse 900) rfl
    |>.step (.answerTask 0 (.ok ⟨201, ""⟩)) rfl
    |>.step (.answerTask 0 (.ok ⟨201, ""⟩)) rfl
    |>.step (.proceed 0) rfl
    |>.step (.elapse 900) rfl
    |>.step (.answerTask 1 (.ok ⟨201, ""⟩)) rfl
    |>.step (.answerTask 1 (.ok ⟨201, ""⟩)) rfl
    |>.step (.proceed 0) rfl), rfl, List.mem_of_getElem? (i := 0) rfl,
    List.mem_of_getElem? (i := 11) rfl, rfl, rfl⟩

/-- No single limit bounds the waits for two gates together. -/
theorem Timed.not_query_within_limit :
    ¬ ∀ plan events o index arrived asked payload moment command, Timed plan events o →
      (arrived, .arrived index payload moment) ∈ events →
      (asked, .message (.handling index) (.issued command)) ∈ events →
        asked ≤ arrived + o.limit := by
  intro within
  obtain ⟨events, o, command, timed, hlimit, harrival, hasks, _⟩ := exists_slow
  have hwithin := within _ _ _ _ _ _ _ _ _ timed harrival hasks
  omega

/-- The query is issued as the second gate settles, later than the limit from the arrival. -/
theorem Timed.query_moment_slow :
    ∃ events o, Timed hourlyPlan events o ∧ ∃ settled : List Nat, settled.length = 2 ∧
      (∀ (place ended : Nat), settled[place]? = some ended →
        settledAt? place events = some ended) ∧
      1800 = settled.foldl max 0 ∧ ¬ ∀ ended ∈ settled, ended ≤ 1000 := by
  obtain ⟨events, o, command, timed, hlimit, harrival, hasks, _⟩ := exists_slow
  obtain ⟨settled, hlength, hsettled, hasked, _, hwithin⟩ := timed.query_moment harrival hasks
  rw [hlimit] at hwithin
  refine ⟨events, o, timed, settled, hlength, fun place ended found => (hsettled place ended found).1,
    hasked, fun all => ?_⟩
  have hbound := hwithin.mpr all
  omega

end Orchestrator
end CalendarRollup
