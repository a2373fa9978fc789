import CalendarRollup.Proofs.Orchestrator.Tasks

/-! One handling of a run without the others: what is left when their steps are taken out is a run
of the same tasks with a single handling. -/
namespace CalendarRollup.Orchestrator

/-- What is seen of the tasks and of one handling, which becomes the first. -/
def aloneEvent? (index : Nat) : Event → Option Event
  | .arrived other payload moment =>
    if other = index then some (.arrived 0 payload moment) else none
  | .waited other outcome => if other = index then some (.waited 0 outcome) else none
  | .message (.handling other) message =>
    if other = index then some (.message (.handling 0) message) else none
  | .message (.task gate) message => some (.message (.task gate) message)

def alone (index : Nat) (events : List Event) : List Event := events.filterMap (aloneEvent? index)

section Seen
variable (index other : Nat) (events seen : List Event)

@[simp] theorem alone_append :
    alone index (events ++ seen) = alone index events ++ alone index seen := by
  simp [alone]

theorem alone_cons_task (gate : Nat) (message : Message) :
    alone index (.message (.task gate) message :: events) =
      .message (.task gate) message :: alone index events := rfl

@[simp] theorem alone_cons_handling (message : Message) :
    alone index (.message (.handling other) message :: events) =
      if other = index then .message (.handling 0) message :: alone index events
      else alone index events := by
  by_cases h : other = index <;> simp [alone, aloneEvent?, h]

@[simp] theorem alone_cons_arrived (payload : Json) (moment : Instant) :
    alone index (.arrived other payload moment :: events) =
      if other = index then .arrived 0 payload moment :: alone index events
      else alone index events := by
  by_cases h : other = index <;> simp [alone, aloneEvent?, h]

@[simp] theorem alone_cons_waited (outcome : Except TransportFault ProvisionState) :
    alone index (.waited other outcome :: events) =
      if other = index then .waited 0 outcome :: alone index events else alone index events := by
  by_cases h : other = index <;> simp [alone, aloneEvent?, h]

@[simp] theorem alone_map_waited (outcomes : List (Except TransportFault ProvisionState)) :
    alone index (outcomes.map (.waited other)) =
      if other = index then outcomes.map (.waited 0) else [] := by
  by_cases h : other = index
  · rw [if_pos h]
    induction outcomes with
    | nil => rfl
    | cons outcome rest ih => rw [List.map_cons, alone_cons_waited, if_pos h, ih, List.map_cons]
  · simp [alone, aloneEvent?, h]

@[simp] theorem alone_issued_task (gate : Nat) (command : Option Command) :
    alone index (issuedEvents (log (.task gate) command)) =
      issuedEvents (log (.task gate) command) := by
  cases command <;> rfl

@[simp] theorem alone_issued_handling (command : Option Command) :
    alone index (issuedEvents (log (.handling other) command)) =
      if other = index then issuedEvents (log (.handling 0) command) else [] := by
  cases command <;> by_cases h : other = index <;> simp [alone, aloneEvent?, issuedEvents, log, h]

/-- Nothing that is seen of the handling is lost. -/
theorem alone_keeps :
    arrivals 0 (alone index events) = arrivals index events ∧
      waits 0 (alone index events) = waits index events ∧
        messages (.handling 0) (alone index events) = messages (.handling index) events := by
  induction events with
  | nil => exact ⟨rfl, rfl, rfl⟩
  | cons event rest ih =>
    obtain ⟨harrivals, hwaits, hmessages⟩ := ih
    cases event with
    | arrived other payload moment =>
      by_cases h : other = index <;> simp [h, harrivals, hwaits, hmessages]
    | waited other outcome =>
      by_cases h : other = index <;> simp [h, harrivals, hwaits, hmessages]
    | message issuer message =>
      cases issuer with
      | task gate => simp [alone_cons_task, harrivals, hwaits, hmessages]
      | handling other => by_cases h : other = index <;> simp [h, harrivals, hwaits, hmessages]

end Seen

/-- Every step that no clock is needed for can be taken as it was. -/
theorem Moves.step_eq {o o' : Orchestrator} {label : Label} (moves : Moves o label o')
    (timeless : ∀ millis, label ≠ .elapse millis) : o.step label = some o' := by
  cases moves with
  | startTask stepped advances =>
    have hself := advances.self
    simp [step, taskStep, stepped, hself, afterTask]
  | answerTask stepped advances =>
    have hself := advances.self
    simp [step, taskStep, stepped, hself, afterTask]
  | arrive made =>
    rw [made]
    rfl
  | proceed found ended => simp [step, found, ended]
  | answerQuery found received => simp [step, found, received]
  | elapse millis => exact absurd rfl (timeless millis)

/-- The same state with one handling only. -/
structure Alone (index : Nat) (o a : Orchestrator) : Prop where
  plan : a.plan = o.plan
  now : a.now = o.now
  gates : a.gates = o.gates
  provisioner : a.provisioner = o.provisioner
  handlings : a.handlings = o.handlings[index]?.toList

section Steps
variable {plan : RollupPlan} {events kept : List Event} {o o' a : Orchestrator} {index : Nat}

/-- A step can be taken out where it changes neither tasks nor the handling in question. -/
theorem Alone.of_same (isAlone : Alone index o a) (plans : o'.plan = o.plan)
    (now : o'.now = o.now) (gates : o'.gates = o.gates)
    (provisioners : o'.provisioner = o.provisioner)
    (handlings : o'.handlings[index]? = o.handlings[index]?) : Alone index o' a where
  plan := isAlone.plan.trans plans.symm
  now := isAlone.now.trans now.symm
  gates := isAlone.gates.trans gates.symm
  provisioner := isAlone.provisioner.trans provisioners.symm
  handlings := by rw [handlings, isAlone.handlings]

theorem Alone.afterTask (isAlone : Alone index o a) (gate : Nat) (provisioner : Provisioner)
    (call : Ensure) (command : Option Command) :
    Alone index (o.afterTask gate provisioner call command)
      (a.afterTask gate provisioner call command) where
  plan := isAlone.plan
  now := isAlone.now
  gates := congrArg (·.modify gate (·.follow call)) isAlone.gates
  provisioner := rfl
  handlings := isAlone.handlings

theorem Alone.afterArrival (isAlone : Alone o.handlings.length o a) (handling : Handling) :
    a.handlings = [] ∧
      Alone o.handlings.length (o.afterArrival handling) (a.afterArrival handling) := by
  have hnone : a.handlings = [] := by
    rw [isAlone.handlings, List.getElem?_eq_none (Nat.le_refl _)]
    rfl
  refine ⟨hnone, isAlone.plan, isAlone.now, isAlone.gates, isAlone.provisioner, ?_⟩
  change a.handlings ++ [handling] = (o.handlings ++ [handling])[o.handlings.length]?.toList
  rw [hnone, List.getElem?_concat_length]
  rfl

theorem Alone.setHandling (isAlone : Alone index o a) {handling : Handling}
    (found : o.handlings[index]? = some handling) (next : Handling) :
    a.handlings[0]? = some handling ∧
      Alone index (o.setHandling index next) (a.setHandling 0 next) := by
  have hone : a.handlings = [handling] := by rw [isAlone.handlings, found]; rfl
  have hlt := (List.getElem?_eq_some_iff.mp found).1
  refine ⟨by rw [hone]; rfl, isAlone.plan, isAlone.now, isAlone.gates, isAlone.provisioner, ?_⟩
  change a.handlings.set 0 next = (o.handlings.set index next)[index]?.toList
  rw [hone, List.getElem?_set_self hlt]
  rfl

theorem Alone.step {label : Label} (isAlone : Alone index o a) (run : Run plan kept a)
    (moves : Moves o label o') :
    ∃ a', Run plan (kept ++ alone index (o.seen label o')) a' ∧ Alone index o' a' := by
  cases moves with
  | startTask stepped advances =>
    have hmoves : Moves a _ _ := .startTask (isAlone.provisioner ▸ stepped)
      (isAlone.provisioner ▸ advances)
    have hrun := run.step _ (hmoves.step_eq (by simp))
    exact ⟨_, by simpa using hrun, isAlone.afterTask _ _ _ _⟩
  | answerTask stepped advances =>
    have hmoves : Moves a _ _ := .answerTask (isAlone.provisioner ▸ stepped)
      (isAlone.provisioner ▸ advances)
    have hrun := run.step _ (hmoves.step_eq (by simp))
    exact ⟨_, by simpa [alone_cons_task] using hrun, isAlone.afterTask _ _ _ _⟩
  | elapse millis =>
    rw [seen_elapse]
    have hlag : Run plan (kept ++ alone index []) { a with now := a.now + millis } := by
      simpa [alone] using run.lag millis
    refine ⟨_, hlag, isAlone.plan, ?_, isAlone.gates, isAlone.provisioner, isAlone.handlings⟩
    exact congrArg (· + millis) isAlone.now
  | @arrive payload moment handling made =>
    by_cases hplace : o.handlings.length = index
    · subst hplace
      obtain ⟨hnone, hnext⟩ := isAlone.afterArrival handling
      have hmade : handling = .ofPayload a.plan a.gates a.limit a.now payload moment := by
        rw [made, limit, limit, isAlone.plan, isAlone.gates, isAlone.now]
      have hmoves : Moves a _ _ := .arrive hmade
      have hrun := run.step _ (hmoves.step_eq (by simp))
      exact ⟨_, by simpa [hnone] using hrun, hnext⟩
    · refine ⟨a, by simpa [hplace] using run, isAlone.of_same rfl rfl rfl rfl ?_⟩
      change (o.handlings ++ [handling])[index]? = _
      rw [getElem?_concat, if_neg (Ne.symm hplace)]
  | @proceed place handling next found ended =>
    by_cases hplace : place = index
    · subst hplace
      obtain ⟨hfound, hnext⟩ := isAlone.setHandling found next
      have hended : handling.proceed? a.gates a.limit a.now = some next := by
        rw [limit, isAlone.plan, isAlone.gates, isAlone.now]
        exact ended
      have hwait : a.waitOutcome? 0 = o.waitOutcome? place := by
        simp only [waitOutcome?, hfound, found, isAlone.gates, isAlone.now]
      have hmoves : Moves a _ _ := .proceed hfound hended
      have hrun := run.step _ (hmoves.step_eq (by simp))
      exact ⟨_, by simpa [hwait] using hrun, hnext⟩
    · refine ⟨a, by simpa [hplace] using run, isAlone.of_same rfl rfl rfl rfl ?_⟩
      exact List.getElem?_set_ne hplace
  | @answerQuery place answer handling next found received =>
    by_cases hplace : place = index
    · subst hplace
      obtain ⟨hfound, hnext⟩ := isAlone.setHandling found next
      have hmoves : Moves a _ _ := .answerQuery hfound received
      have hrun := run.step _ (hmoves.step_eq (by simp))
      exact ⟨_, by simpa using hrun, hnext⟩
    · refine ⟨a, by simpa [hplace] using run, isAlone.of_same rfl rfl rfl rfl ?_⟩
      exact List.getElem?_set_ne hplace

/-- The tasks of a run and one of its handlings are a run of their own. -/
theorem Run.alone (run : Run plan events o) (index : Nat) :
    ∃ a, Run plan (alone index events) a ∧ Alone index o a := by
  induction run with
  | @start o started =>
    refine ⟨o, .start started, rfl, rfl, rfl, rfl, ?_⟩
    cases start_eq_ok started
    rfl
  | step _ _ stepped ih =>
    obtain ⟨a, hrun, halone⟩ := ih
    rw [alone_append]
    exact halone.step hrun (moves_of_step stepped)
  | lag _ millis ih =>
    obtain ⟨a, hrun, halone⟩ := ih
    refine ⟨_, hrun.lag millis, halone.plan, ?_, halone.gates, halone.provisioner,
      halone.handlings⟩
    exact congrArg (· + millis) halone.now
  | abandon _ gate ih =>
    obtain ⟨a, hrun, halone⟩ := ih
    refine ⟨_, hrun.abandon gate, halone.plan, halone.now, ?_, halone.provisioner,
      halone.handlings⟩
    exact congrArg (·.modify gate Gate.leave) halone.gates

end Steps
end CalendarRollup.Orchestrator
