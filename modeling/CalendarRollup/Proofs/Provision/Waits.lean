import CalendarRollup.Proofs.Provision.Readiness

/-! Waits for a gate: what each of them ends with is told by the moments at which the wait began
and the gate settled, and no wait changes anything for others. -/
namespace CalendarRollup.Readiness

/-- Where a wait stands that found the gate in a state when it began. -/
inductive Waited (s : Readiness) (events : List Event) (deadline : Nat) (found : ProvisionState) :
    Waiter → Prop
  | pending (due : s.now ≤ deadline) : Waited s events deadline found (.pending ⟨deadline⟩)
  | answered (settled : s.gate.state.isSettled = true)
    (timely : found.isSettled = false → ∀ moment state, (moment, state) ∈ changes events →
      state.isSettled = true → moment ≤ deadline) :
    Waited s events deadline found (.ended (.ok s.gate.state))
  | timedOut (unsettled : found.isSettled = false) (passed : deadline ≤ s.now)
    (late : ∀ moment state, (moment, state) ∈ changes events → state.isSettled = true →
      deadline ≤ moment) :
    Waited s events deadline found (.ended (.error (.timedOut s.gate.calendar)))

/-- Every wait that has begun is accounted for. -/
def Attended (s : Readiness) (events : List Event) : Prop :=
  ∀ name moment limit found, .began name moment limit found ∈ events →
    (found.isSettled = true → s.gate.state = found) ∧
      ∃ waiter, s.waiters name = some waiter ∧ Waited s events (moment + limit) found waiter

section Steps
variable {place : Nat} {spec : CalendarSpec} {past : List Provisioner.Event}
  {events seen : List Event} {s s' : Readiness}

/-- A gate stands in the state that it has settled in. -/
theorem Reported.eq_of_change (reported : Reported place spec past events s) {moment : Nat}
    {state : ProvisionState} (change : (moment, state) ∈ changes events)
    (settled : state.isSettled = true) : s.gate.state = state := by
  obtain ⟨call, _, hstate, hcourse⟩ := reported.course
  rw [hstate]
  generalize changes events = changes at change hcourse
  cases hcourse with
  | pending => cases change
  | provisioning begun asks =>
    cases List.mem_singleton.mp change
    cases settled
  | settled begun ended result =>
    rcases List.mem_cons.mp change with hfirst | hlast
    · cases hfirst
      cases settled
    · cases List.mem_singleton.mp hlast
      rfl

theorem Reported.exists_change (reported : Reported place spec past events s)
    (settled : s.gate.state.isSettled = true) :
    ∃ moment, (moment, s.gate.state) ∈ changes events := by
  obtain ⟨call, _, hstate, hcourse⟩ := reported.course
  rw [hstate] at settled ⊢
  generalize changes events = changes at hcourse ⊢
  cases hcourse with
  | pending => cases settled
  | provisioning begun asks =>
    rw [asks] at settled
    cases settled
  | settled begun ended result => exact ⟨ended, by simp⟩

/-- What a wait ends with at this moment. -/
theorem Reported.outcome?_eq (reported : Reported place spec past events s) (wait : Wait) :
    wait.outcome? s.gate s.now =
      if s.gate.state.isSettled = true then some (.ok s.gate.state)
      else if wait.deadline ≤ s.now then some (.error (.timedOut s.gate.calendar)) else none := by
  unfold Wait.outcome? Gate.settled?
  by_cases hsettled : s.gate.state.isSettled = true
  · simp [hsettled]
  · have hattended : s.gate.attended = true := by
      cases hattended : s.gate.attended with
      | true => rfl
      | false => exact absurd (reported.attended hattended) hsettled
    simp [hsettled, hattended]

/-- A wait ends as the gate and the clock tell at that moment. -/
theorem Reported.waited_of_ended {deadline : Nat} {found : ProvisionState}
    {outcome : Except TransportFault ProvisionState}
    (reported : Reported place spec past events s)
    (held : found.isSettled = true → s.gate.state = found) (due : s.now ≤ deadline)
    (ended : Wait.outcome? ⟨deadline⟩ s.gate s.now = some outcome) :
    Waited s events deadline found (.ended outcome) := by
  rw [reported.outcome?_eq] at ended
  split at ended
  next hsettled =>
    cases ended
    exact .answered hsettled fun _ moment state hchange _ =>
      Nat.le_trans (reported.times moment state hchange) due
  next hunsettled =>
    split at ended
    next hpassed =>
      cases ended
      refine .timedOut ?_ hpassed fun moment state hchange hsettled => ?_
      · exact Bool.eq_false_iff.mpr fun settled => hunsettled (held settled ▸ settled)
      · rw [reported.eq_of_change hchange hsettled] at hunsettled
        exact absurd hsettled hunsettled
    next => cases ended

/-- A wait that is not concerned stays where it is while the gate and the clock move on. -/
theorem Waited.mono {deadline : Nat} {found : ProvisionState} {waiter : Waiter}
    (waited : Waited s events deadline found waiter)
    (later : s.now ≤ s'.now) (within : ∀ wait, waiter = .pending wait → s'.now ≤ wait.deadline)
    (calendar : s'.gate.calendar = s.gate.calendar)
    (settled : s.gate.state.isSettled = true → s'.gate.state = s.gate.state)
    (changed : ∀ moment state, (moment, state) ∈ changes seen →
      s.gate.state.isSettled = false ∧ s.now ≤ moment) :
    Waited s' (events ++ seen) deadline found waiter := by
  cases waited with
  | pending due => exact .pending (within _ rfl)
  | answered hsettled timely =>
    rw [← settled hsettled]
    refine .answered (by rw [settled hsettled, hsettled]) fun unsettled moment state hchange => ?_
    rw [changes_append, List.mem_append] at hchange
    rcases hchange with hbefore | hnow
    · exact timely unsettled moment state hbefore
    · rw [(changed moment state hnow).1] at hsettled
      cases hsettled
  | timedOut unsettled passed late =>
    rw [← calendar]
    refine .timedOut unsettled (Nat.le_trans passed later) fun moment state hchange => ?_
    rw [changes_append, List.mem_append] at hchange
    rcases hchange with hbefore | hnow
    · exact late moment state hbefore
    · intro _
      exact Nat.le_trans passed (changed moment state hnow).2

/-- Where a step leaves a wait that has begun: as it is, or at its end. -/
theorem Step.waiter {name : Nat} {waiter : Waiter} (stepped : Step place s seen s')
    (found : s.waiters name = some waiter) :
    s'.waiters name = some waiter ∨
      ∃ wait outcome, waiter = .pending wait ∧ wait.outcome? s.gate s.now = some outcome ∧
        seen = [] ∧ s' = s.setWaiter name (.ended outcome) := by
  cases stepped with
  | await other limit unused =>
    have hne : name ≠ other := by
      rintro rfl
      rw [found] at unused
      cases unused
    exact .inl ((if_neg hne).trans found)
  | @finish other wait outcome waits ended =>
    by_cases hne : name = other
    · subst hne
      cases found.symm.trans waits
      exact .inr ⟨wait, outcome, rfl, ended, rfl, rfl⟩
    · exact .inl ((if_neg hne).trans found)
  | _ => exact .inl found

/-- A wait begins with what the gate and the clock show. -/
theorem Step.began {name moment limit : Nat} {found : ProvisionState}
    (stepped : Step place s seen s') (begins : .began name moment limit found ∈ seen) :
    moment = s.now ∧ found = s.gate.state ∧ s' = s.setWaiter name (.pending ⟨moment + limit⟩) := by
  cases stepped with
  | report own moved there =>
    unfold change at begins
    split at begins <;> simp at begins
  | other other moved => simp at begins
  | await other limit unused =>
    cases List.mem_singleton.mp begins
    exact ⟨rfl, rfl, rfl⟩
  | _ => cases begins

/-- The clock does not go back, and not beyond a deadline. -/
theorem Step.clock (stepped : Step place s seen s') :
    s.now ≤ s'.now ∧ ∀ name wait, s.waiters name = some (.pending wait) →
      s.now ≤ wait.deadline → s'.now ≤ wait.deadline := by
  cases stepped with
  | elapse millis within =>
    exact ⟨Nat.le_add_right _ _, fun name wait waits _ => within name wait waits⟩
  | _ => exact ⟨Nat.le_refl _, fun _ _ _ due => due⟩

theorem Step.calendar (stepped : Step place s seen s') :
    s'.gate.calendar = s.gate.calendar := by
  cases stepped <;> rfl

theorem Reported.state_of_settled (reported : Reported place spec past events s)
    (stepped : Step place s seen s') (settled : s.gate.state.isSettled = true) :
    s'.gate.state = s.gate.state := by
  obtain ⟨call, hcall, hstate, _⟩ := reported.course
  rw [hstate, Provisioner.isSettled_report] at settled
  exact (stepped.state_of_done hcall settled).2

/-- The gate changes before it has settled, at the moment of the step. -/
theorem Reported.changes_seen (reported : Reported place spec past events s)
    (stepped : Step place s seen s') {moment : Nat} {state : ProvisionState}
    (change : (moment, state) ∈ changes seen) :
    s.gate.state.isSettled = false ∧ moment = s.now := by
  have hsame := reported.state_of_settled stepped
  cases stepped with
  | @report label provisioner command other next own moved there =>
    simp only [changes_append, changes_map_call, changes_change, List.nil_append] at change
    split at change
    · cases change
    next hne =>
      cases List.mem_singleton.mp change
      refine ⟨Bool.eq_false_iff.mpr fun settled => hne (hsame settled).symm, rfl⟩
  | other other moved => simp at change
  | _ => cases change

/-- A wait that has begun ends as the gate and the clock tell, and until then stays as it is. -/
theorem Attended.step (attended : Attended s events)
    (reported : Reported place spec past events s) (stepped : Step place s seen s') :
    Attended s' (events ++ seen) := by
  intro name moment limit found began
  rcases List.mem_append.mp began with hbefore | hnow
  · obtain ⟨hheld, waiter, hwaiter, hwaited⟩ := attended name moment limit found hbefore
    have hheld' : found.isSettled = true → s'.gate.state = found := by
      intro settled
      rw [reported.state_of_settled stepped (hheld settled ▸ settled), hheld settled]
    refine ⟨hheld', ?_⟩
    rcases stepped.waiter hwaiter with hsame | ⟨wait, outcome, rfl, hended, rfl, rfl⟩
    · refine ⟨waiter, hsame, hwaited.mono stepped.clock.1 ?_ stepped.calendar
        (reported.state_of_settled stepped) fun moment state hchange => ?_⟩
      · rintro wait rfl
        cases hwaited with
        | pending due => exact stepped.clock.2 name _ hwaiter due
      · obtain ⟨hunsettled, rfl⟩ := reported.changes_seen stepped hchange
        exact ⟨hunsettled, Nat.le_refl _⟩
    · refine ⟨.ended outcome, if_pos rfl, ?_⟩
      cases hwaited with
      | pending due =>
        have hwaited := reported.waited_of_ended hheld due hended
        exact hwaited.mono (Nat.le_refl _) (fun wait h => by cases h) rfl (fun _ => rfl)
          fun moment state hchange => by cases hchange
  · obtain ⟨rfl, rfl, rfl⟩ := stepped.began hnow
    exact ⟨fun _ => rfl, _, if_pos rfl, .pending (Nat.le_add_right _ _)⟩

end Steps

section Erasure
variable {place : Nat} {first s s' : Readiness} {events seen : List Event}

/-- The state with some of the waits only. -/
def only (keep : Nat → Bool) (s : Readiness) : Readiness :=
  { s with waiters := fun name => if keep name then s.waiters name else none }

/-- What is seen without the other waits. -/
def without (keep : Nat → Bool) (events : List Event) : List Event :=
  events.filter fun
    | .began name _ _ _ => keep name
    | _ => true

theorem without_map_call (keep : Nat → Bool) (observed : List Provisioner.Event) :
    without keep (observed.map .call) = observed.map .call := by
  simp [without]

theorem without_change (keep : Nat → Bool) (s : Readiness) (state : ProvisionState) :
    without keep (s.change state) = s.change state := by
  unfold change
  split <;> rfl

theorem without_append (keep : Nat → Bool) (events seen : List Event) :
    without keep (events ++ seen) = without keep events ++ without keep seen := by
  simp [without]

theorem only_setWaiter {keep : Nat → Bool} {name : Nat} (kept : keep name = true)
    (s : Readiness) (waiter : Waiter) :
    (s.setWaiter name waiter).only keep = (s.only keep).setWaiter name waiter := by
  unfold only setWaiter
  congr 1
  funext other
  by_cases hother : other = name
  · simp [hother, kept]
  · simp [hother]

theorem only_setWaiter_of_not {keep : Nat → Bool} {name : Nat} (dropped : keep name = false)
    (s : Readiness) (waiter : Waiter) : (s.setWaiter name waiter).only keep = s.only keep := by
  unfold only setWaiter
  congr 1
  funext other
  by_cases hother : other = name
  · simp [hother, dropped]
  · simp [hother]

theorem waiters_only {keep : Nat → Bool} {name : Nat} (kept : keep name = true) (s : Readiness) :
    (s.only keep).waiters name = s.waiters name := if_pos kept

/-- A step can be taken without the waits that are dropped, unless it is one of theirs. -/
theorem Step.only (keep : Nat → Bool) (stepped : Step place s seen s')
    (run : Run place (first.only keep) (without keep events) (s.only keep)) :
    Run place (first.only keep) (without keep (events ++ seen)) (s'.only keep) := by
  rw [without_append]
  cases stepped with
  | report own moved there =>
    rw [without_append, without_map_call, without_change]
    exact run.step (.report own moved there)
  | other other moved =>
    rw [without_map_call]
    exact run.step (.other other moved)
  | leave found done => exact run.step (.leave found done)
  | elapse millis within =>
    refine run.step (.elapse millis fun name wait waits => ?_)
    by_cases hkeep : keep name = true
    · exact within name wait ((waiters_only hkeep s).symm.trans waits)
    · simp [Readiness.only, hkeep] at waits
  | await name limit unused =>
    cases hkeep : keep name with
    | true =>
      have hseen : without keep [.began name s.now limit s.gate.state] =
          [.began name s.now limit s.gate.state] := by simp [without, hkeep]
      rw [only_setWaiter hkeep, hseen]
      exact run.step (.await name limit ((waiters_only hkeep s).trans unused))
    | false =>
      rw [only_setWaiter_of_not hkeep]
      simpa [without, hkeep] using run
  | @finish name wait outcome waits ended =>
    cases hkeep : keep name with
    | true =>
      rw [only_setWaiter hkeep]
      exact run.step (.finish ((waiters_only hkeep s).trans waits) ended)
    | false =>
      rw [only_setWaiter_of_not hkeep]
      simpa [without] using run

/-- What is left of a run when waits are taken out of it is a run, with the same gate, the same
calls and the same ends of all other waits. -/
theorem Run.only (keep : Nat → Bool) (run : Run place first events s) :
    Run place (first.only keep) (without keep events) (s.only keep) := by
  induction run with
  | start => exact .start
  | step _ stepped ih => exact stepped.only keep ih

end Erasure

section Course
variable {past : List Provisioner.Event} {p : Provisioner} {spec : CalendarSpec} {now : Nat}
  {events : List Event} {s : Readiness}

theorem only_opened (keep : Nat → Bool) :
    (opened now p spec).only keep = opened now p spec := by
  unfold only opened
  simp

theorem Attended.opened : Attended (opened now p spec) [] := by
  intro name moment limit found began
  cases began

theorem Run.attended (reachable : Provisioner.Run past p)
    (run : Run p.calls.length (Readiness.opened now p spec) events s)
    (unknown : Unknown p.calls.length spec events) : Attended s events := by
  induction run with
  | start => exact .opened
  | step run stepped ih =>
    exact (ih unknown.of_append).step (run.reported reachable unknown.of_append) stepped

/-- The gate goes from pending to provisioning, and from there to the one state it settles in. -/
theorem Reported.changes_eq {place : Nat} (reported : Reported place spec past events s) :
    (changes events = [] ∧ s.gate.state = .pending) ∨
      (∃ begun, changes events = [(begun, .provisioning)] ∧ s.gate.state = .provisioning) ∨
      ∃ begun ended, changes events = [(begun, .provisioning), (ended, s.gate.state)] ∧
        s.gate.state.isSettled = true := by
  obtain ⟨call, _, hstate, hcourse⟩ := reported.course
  rw [hstate]
  generalize changes events = changes at hcourse ⊢
  cases hcourse with
  | pending => exact .inl ⟨rfl, rfl⟩
  | provisioning begun asks => exact .inr (.inl ⟨begun, rfl, asks⟩)
  | settled begun ended result =>
    exact .inr (.inr ⟨begun, ended, rfl, Provisioner.isSettled_report _⟩)

/-- A gate settles after both commands of its call, each issued once, in the state that their
answers make. -/
theorem Run.exchange_of_settled (reachable : Provisioner.Run past p)
    (run : Run p.calls.length (Readiness.opened now p spec) events s)
    (unknown : Unknown p.calls.length spec events) (settled : s.gate.state.isSettled = true) :
    ∃ a b, Provisioner.messages p.calls.length (calls events) = Ensure.exchange spec a b ∧
      s.provisioner.calls[p.calls.length]? = some (spec, .done (Ensure.resultOf spec a b)) ∧
      (s.gate.state = .ready ↔ a.Succeeds ∧ b.Succeeds) ∧
      ∀ fault, Ensure.resultOf spec a b = .error fault →
        s.gate.state = .failed fault.message := by
  obtain ⟨call, hcall, hstate, _⟩ := (run.reported reachable unknown).course
  rw [hstate] at settled ⊢
  rcases run.recorded reachable unknown with ⟨hunstarted, _⟩ | ⟨other, hother, hrecorded⟩
  · cases hcall.symm.trans hunstarted
    cases settled
  · cases hcall.symm.trans hother
    generalize Provisioner.messages p.calls.length (calls events) = messages at hrecorded ⊢
    cases hrecorded with
    | awaitingPattern => cases settled
    | awaitingCalendar a => cases settled
    | done a b =>
      refine ⟨a, b, rfl, hcall, ?_, ?_⟩
      · rw [← Ensure.resultOf_eq_ok_iff spec a b]
        cases Ensure.resultOf spec a b <;> simp [Provisioner.report]
      · intro fault hfault
        rw [hfault]
        rfl

/-- Until the gate settles, its call can go on: by its start, then by any answer. -/
theorem Run.goes_on (reachable : Provisioner.Run past p)
    (run : Run p.calls.length (Readiness.opened now p spec) events s)
    (unknown : Unknown p.calls.length spec events) (unsettled : s.gate.state.isSettled = false) :
    (∃ a b, Provisioner.messages p.calls.length (calls events) <+: Ensure.exchange spec a b) ∧
      ((s.provisioner.step (.start p.calls.length)).isSome = true ∨
        ∀ answer, (s.provisioner.step (.answer p.calls.length answer)).isSome = true) := by
  obtain ⟨call, hcall, hstate, _⟩ := (run.reported reachable unknown).course
  rcases run.recorded reachable unknown with ⟨hunstarted, hmessages⟩ | ⟨other, hother, hrecorded⟩
  · refine ⟨⟨.error .noRequest, .error .noRequest, ?_⟩, .inl ?_⟩
    · rw [hmessages]
      exact List.nil_prefix
    · simp [Provisioner.step, hunstarted]
  · cases hcall.symm.trans hother
    obtain ⟨a, b, hprefix, _⟩ := hrecorded.isPrefix
    refine ⟨⟨a, b, hprefix⟩, .inr fun answer => ?_⟩
    rw [hstate, Provisioner.isSettled_report] at unsettled
    obtain ⟨next, hnext⟩ := hrecorded.exists_receive unsettled answer
    simp [Provisioner.step, hcall, hnext]

/-- A wait ends at once where the gate has settled, and at its deadline at the latest. -/
theorem Reported.finish {place name : Nat} (reported : Reported place spec past events s)
    {wait : Wait} (waits : s.waiters name = some (.pending wait))
    (due : s.gate.state.isSettled = true ∨ wait.deadline ≤ s.now) :
    ∃ outcome, Step place s [] (s.setWaiter name (.ended outcome)) := by
  have houtcome := reported.outcome?_eq wait
  by_cases hsettled : s.gate.state.isSettled = true
  · rw [if_pos hsettled] at houtcome
    exact ⟨_, .finish waits houtcome⟩
  · rw [if_neg hsettled, if_pos (due.resolve_left hsettled)] at houtcome
    exact ⟨_, .finish waits houtcome⟩

/-- What a wait that has ended tells: the state that the gate has settled in, unless the limit was
over before. -/
theorem Waited.outcome_eq {place deadline : Nat} {found : ProvisionState}
    {outcome : Except TransportFault ProvisionState}
    (waited : Waited s events deadline found (.ended outcome))
    (reported : Reported place spec past events s)
    (held : found.isSettled = true → s.gate.state = found) :
    ((s.gate.state.isSettled = true ∧ outcome = .ok s.gate.state) ∨
      outcome = .error (.timedOut spec)) ∧
    (found.isSettled = true → outcome = .ok found) ∧
    (found.isSettled = false →
      (∀ ended state, (ended, state) ∈ changes events → state.isSettled = true →
        ended < deadline → outcome = .ok state) ∧
      ((∀ ended state, (ended, state) ∈ changes events → state.isSettled = true →
        deadline < ended) → outcome = .error (.timedOut spec))) := by
  cases waited with
  | answered settled timely =>
    refine ⟨.inl ⟨settled, rfl⟩, fun hfound => by rw [held hfound], fun hfound => ⟨?_, ?_⟩⟩
    · intro ended state hchange hsettled _
      rw [reported.eq_of_change hchange hsettled]
    · intro late
      obtain ⟨ended, hchange⟩ := reported.exists_change settled
      have htimely := timely hfound ended _ hchange settled
      have hlate := late ended _ hchange settled
      omega
  | timedOut unsettled passed late =>
    refine ⟨.inr (by rw [reported.calendar]), fun hfound => ?_, fun _ => ⟨?_, fun _ => ?_⟩⟩
    · rw [unsettled] at hfound
      cases hfound
    · intro ended state hchange hsettled hearly
      have hlate := late ended state hchange hsettled
      omega
    · rw [reported.calendar]

/-- A new gate whose call does not find its calendar known, with any number of waits for it. The
gate goes from pending to provisioning and then settles for good: as ready if both commands
succeeded, else as failed with the message of the call's fault; each command is issued once. A wait
never ends with an unsettled state. It ends well, with the state that the gate has settled in, if
that was so when it began or before its limit was over, and is timed out else; it can always end at
its limit, and no time passes beyond that. Taking out waits leaves everything else as it was. -/
theorem Run.gate_and_waits (reachable : Provisioner.Run past p)
    (run : Run p.calls.length (Readiness.opened now p spec) events s)
    (unknown : Unknown p.calls.length spec events) :
    ((changes events = [] ∧ s.gate.state = .pending) ∨
      (∃ begun, changes events = [(begun, .provisioning)] ∧ s.gate.state = .provisioning) ∨
      ∃ begun ended, changes events = [(begun, .provisioning), (ended, s.gate.state)] ∧
        s.gate.state.isSettled = true) ∧
    (s.gate.state.isSettled = true →
      (∀ later s', Run p.calls.length s later s' → s'.gate.state = s.gate.state) ∧
      ∃ a b, Provisioner.messages p.calls.length (calls events) = Ensure.exchange spec a b ∧
        s.provisioner.calls[p.calls.length]? = some (spec, .done (Ensure.resultOf spec a b)) ∧
        (s.gate.state = .ready ↔ a.Succeeds ∧ b.Succeeds) ∧
        ∀ fault, Ensure.resultOf spec a b = .error fault →
          s.gate.state = .failed fault.message) ∧
    (s.gate.state.isSettled = false →
      (∃ a b, Provisioner.messages p.calls.length (calls events) <+: Ensure.exchange spec a b) ∧
      ((s.provisioner.step (.start p.calls.length)).isSome = true ∨
        ∀ answer, (s.provisioner.step (.answer p.calls.length answer)).isSome = true)) ∧
    (∀ name moment limit found, .began name moment limit found ∈ events →
      (s.waiters name = some (.pending (.begun moment limit)) ∧ s.now ≤ moment + limit ∧
        (s.gate.state.isSettled = true ∨ moment + limit ≤ s.now →
          ∃ outcome, Step p.calls.length s [] (s.setWaiter name (.ended outcome)))) ∨
      ∃ outcome, s.waiters name = some (.ended outcome) ∧
        ((s.gate.state.isSettled = true ∧ outcome = .ok s.gate.state) ∨
          outcome = .error (.timedOut spec)) ∧
        (found.isSettled = true → outcome = .ok found) ∧
        (found.isSettled = false →
          (∀ ended state, (ended, state) ∈ changes events → state.isSettled = true →
            ended < moment + limit → outcome = .ok state) ∧
          ((∀ ended state, (ended, state) ∈ changes events → state.isSettled = true →
            moment + limit < ended) → outcome = .error (.timedOut spec)))) ∧
    ∀ keep, Run p.calls.length (Readiness.opened now p spec) (without keep events) (s.only keep) ∧
      (s.only keep).gate = s.gate ∧ (s.only keep).provisioner = s.provisioner ∧
        ∀ name, keep name = true → (s.only keep).waiters name = s.waiters name := by
  have hreported := run.reported reachable unknown
  refine ⟨hreported.changes_eq, fun settled => ⟨?_, run.exchange_of_settled reachable unknown
    settled⟩, run.goes_on reachable unknown, ?_, fun keep => ⟨?_, rfl, rfl, fun name kept =>
    waiters_only kept s⟩⟩
  · intro later s' continued
    obtain ⟨call, hcall, hstate, _⟩ := hreported.course
    rw [hstate, Provisioner.isSettled_report] at settled
    exact (continued.state_of_done hcall settled).2
  · intro name moment limit found began
    obtain ⟨hheld, waiter, hwaiter, hwaited⟩ :=
      run.attended reachable unknown name moment limit found began
    cases waiter with
    | pending wait =>
      cases hwaited with
      | pending due => exact .inl ⟨hwaiter, due, hreported.finish hwaiter⟩
    | ended outcome => exact .inr ⟨outcome, hwaiter, hwaited.outcome_eq hreported hheld⟩
  · have honly := run.only keep
    rwa [only_opened] at honly

end Course

/-- One wait is over before its gate settles, one is answered then, and one begins after the
reporter has gone. -/
theorem Run.gate_and_waits_three :
    ∃ events s, Run 0 (opened 0 .new SamplingBucket.oneHour.calendar) events s ∧
      s.gate.state = .ready ∧
      s.waiters 0 = some (.ended (.error (.timedOut SamplingBucket.oneHour.calendar))) ∧
      s.waiters 1 = some (.ended (.ok .ready)) ∧ s.waiters 2 = some (.ended (.ok .ready)) := by
  obtain ⟨events, s, run, hmemories, hchanges, hbegan, hended⟩ :
      ∃ events s, Run 0 (opened 0 .new SamplingBucket.oneHour.calendar) events s ∧
        Provisioner.memories 0 (calls events) = [[]] ∧
        changes events = [(0, .provisioning), (50, .ready)] ∧
        (events[0]? = some (.began 0 0 0 .pending) ∧ events[1]? = some (.began 1 0 100 .pending) ∧
          events[9]? = some (.began 2 50 0 .ready)) ∧
        ∀ name < 3, ∃ outcome, s.waiters name = some (.ended outcome) :=
    ⟨_, _, ((Run.start : Run 0 _ _ _)
      |>.step (.await 0 0 rfl)
      |>.step (.await 1 100 rfl)
      |>.step (.finish (rfl : Readiness.waiters _ 0 = _) rfl)
      |>.step (.report (rfl : Provisioner.Label.index? (.start 0) = _) rfl rfl)
      |>.step (.report (rfl : (Provisioner.Label.answer 0 (.ok ⟨200, "already exists"⟩)).index?
        = _) rfl rfl)
      |>.step (.elapse 50 fun
        | 0, _, waits => by cases waits
        | 1, _, waits => by
          cases waits
          decide
        | _ + 2, _, waits => by cases waits)
      |>.step (.report (rfl : (Provisioner.Label.answer 0 (.ok ⟨201, ""⟩)).index? = _) rfl rfl)
      |>.step (.finish (rfl : Readiness.waiters _ 1 = _) rfl)
      |>.step (.leave rfl rfl)
      |>.step (.await 2 0 rfl)
      |>.step (.finish (rfl : Readiness.waiters _ 2 = _) rfl)), rfl, rfl, ⟨rfl, rfl, rfl⟩, fun
        | 0, _ => ⟨_, rfl⟩
        | 1, _ => ⟨_, rfl⟩
        | 2, _ => ⟨_, rfl⟩⟩
  have hunknown : Unknown 0 SamplingBucket.oneHour.calendar events := by
    simp [Unknown, hmemories]
  obtain ⟨hgate, _, _, hwaits, _⟩ := run.gate_and_waits .start hunknown
  have hready : s.gate.state = .ready := by
    rw [hchanges] at hgate
    rcases hgate with ⟨hnone, _⟩ | ⟨_, hone, _⟩ | ⟨_, _, htwo, _⟩
    · cases hnone
    · cases hone
    · simp only [List.cons.injEq, Prod.mk.injEq] at htwo
      exact htwo.2.1.2.symm
  have houtcome : ∀ name < 3, ∀ moment limit found, .began name moment limit found ∈ events →
      ∃ outcome, s.waiters name = some (.ended outcome) ∧
        (found.isSettled = true → outcome = .ok found) ∧
        (found.isSettled = false →
          (50 < moment + limit → outcome = .ok .ready) ∧
          (moment + limit < 50 →
            outcome = .error (.timedOut SamplingBucket.oneHour.calendar))) := by
    intro name hname moment limit found began
    obtain ⟨outcome, hdone⟩ := hended name hname
    rcases hwaits name moment limit found began with ⟨hpending, _⟩ | ⟨_, hwaiter, _, hfound, hopen⟩
    · rw [hdone] at hpending
      cases hpending
    · refine ⟨_, hwaiter, hfound, fun unsettled => ⟨fun early => ?_, fun late => ?_⟩⟩
      · exact (hopen unsettled).1 50 .ready (by simp [hchanges]) rfl early
      · refine (hopen unsettled).2 fun ended state hchange hsettled => ?_
        simp only [hchanges, List.mem_cons, List.not_mem_nil, or_false, Prod.mk.injEq] at hchange
        rcases hchange with ⟨rfl, rfl⟩ | ⟨rfl, rfl⟩
        · cases hsettled
        · exact late
  obtain ⟨_, hfirst, _, hpassed⟩ := houtcome 0 (by decide) _ _ _ (List.mem_of_getElem? hbegan.1)
  obtain ⟨_, hsecond, _, hearly⟩ := houtcome 1 (by decide) _ _ _ (List.mem_of_getElem? hbegan.2.1)
  obtain ⟨_, hthird, hfound, _⟩ := houtcome 2 (by decide) _ _ _ (List.mem_of_getElem? hbegan.2.2)
  obtain rfl := (hpassed rfl).2 (by decide)
  obtain rfl := (hearly rfl).1 (by decide)
  obtain rfl := hfound rfl
  exact ⟨events, s, run, hready, hfirst, hsecond, hthird⟩

end CalendarRollup.Readiness
