import CalendarRollup.Proofs.Orchestrator.Runs

/-! The tasks of an orchestrator: each is a call of one provisioner, and the gate it reports to
tells where the call stands. -/
namespace CalendarRollup

/-- The calendars that a plan selects, as every calendar has a bucket. -/
def RollupPlan.calendars (plan : RollupPlan) : List CalendarSpec :=
  let finer := plan.calendar.samplingBucket.calendar
  match plan.mode with
  | .discrete => [plan.calendar]
  | .continuous => if finer = plan.calendar then [plan.calendar] else [plan.calendar, finer]

theorem RollupPlan.selectCalendars_eq (plan : RollupPlan) :
    plan.selectCalendars = .ok plan.calendars := by
  unfold selectCalendars calendars
  cases plan.mode with
  | discrete => rfl
  | continuous =>
    rw [plan.calendar.selectBucket_eq]
    rfl

theorem RollupPlan.nodup_calendars (plan : RollupPlan) : plan.calendars.Nodup := by
  unfold calendars
  cases plan.mode with
  | discrete => simp
  | continuous =>
    by_cases h : plan.calendar.samplingBucket.calendar = plan.calendar
    · simp [h]
    · simp [h, Ne.symm h]

theorem map_modify_of_same {α β : Type} {f : α → α} {g : α → β} (same : ∀ a, g (f a) = g a)
    (values : List α) (place : Nat) : (values.modify place f).map g = values.map g := by
  apply List.ext_getElem?
  intro i
  rw [List.getElem?_map, List.getElem?_map, List.getElem?_modify]
  cases values[i]? with
  | none => rfl
  | some value => by_cases hi : place = i <;> simp [hi, same]

@[simp] theorem Gate.state_follow (gate : Gate) (call : Ensure) :
    (gate.follow call).state = Provisioner.report call := by
  unfold follow
  cases call.isDone <;> rfl

@[simp] theorem Gate.calendar_follow (gate : Gate) (call : Ensure) :
    (gate.follow call).calendar = gate.calendar := by
  unfold follow
  cases call.isDone <;> rfl

theorem Gate.state_leave (gate : Gate) : gate.leave.state = gate.state := rfl

theorem Gate.calendar_leave (gate : Gate) : gate.leave.calendar = gate.calendar := rfl

/-- Every call keeps its calendar. -/
theorem Provisioner.Advances.specs {p p' : Provisioner} {index : Nat} {spec : CalendarSpec}
    {call : Ensure} (advances : p.Advances index spec call p') :
    p'.calls.map Prod.fst = p.calls.map Prod.fst := by
  obtain ⟨before, hbefore, _⟩ := advances.waited
  obtain ⟨hlt, hget⟩ := List.getElem?_eq_some_iff.mp hbefore
  rw [advances.calls, List.map_set]
  apply List.ext_getElem?
  intro i
  by_cases hi : index = i
  · subst hi
    simp [hlt, hget]
  · simp [List.getElem?_set_ne hi]

namespace Orchestrator

theorem start_eq_ok {plan : RollupPlan} {o : Orchestrator} (h : start plan = .ok o) :
    o = {
      plan, now := 0
      gates := plan.calendars.map Gate.new
      provisioner := ⟨[], plan.calendars.map (·, .unstarted)⟩
      handlings := []
      issued := [] } := by
  unfold start at h
  split at h
  · cases h
  · rw [plan.selectCalendars_eq] at h
    cases h
    rfl

/-- The call of a gate has ended. -/
def Ended (o : Orchestrator) (gate : Nat) : Prop :=
  ∃ spec call, o.provisioner.calls[gate]? = some (spec, call) ∧ call.isDone = true

/-- Every calendar of the plan has a call and a gate, at the same place. -/
structure Attends (plan : RollupPlan) (o : Orchestrator) : Prop where
  samePlan : o.plan = plan
  specs : o.provisioner.calls.map Prod.fst = plan.calendars
  calendars : o.gates.map Gate.calendar = plan.calendars
  states : ∀ i : Nat, o.gates[i]?.map Gate.state =
    o.provisioner.calls[i]?.map fun call : CalendarSpec × Ensure => Provisioner.report call.2

section Tasks
variable {plan : RollupPlan} {o o' : Orchestrator} {gate other : Nat} {spec : CalendarSpec}
  {call : Ensure} {provisioner : Provisioner}

theorem Attends.afterTask (attends : Attends plan o)
    (advances : o.provisioner.Advances gate spec call provisioner) (command : Option Command) :
    Attends plan (o.afterTask gate provisioner call command) where
  samePlan := attends.samePlan
  specs := advances.specs.trans attends.specs
  calendars := (map_modify_of_same (fun found => found.calendar_follow call) _ _).trans
    attends.calendars
  states := by
    intro i
    have hi := attends.states i
    change (o.gates.modify gate (·.follow call))[i]?.map Gate.state =
      provisioner.calls[i]?.map fun call : CalendarSpec × Ensure => Provisioner.report call.2
    rw [advances.calls, List.getElem?_modify]
    by_cases hne : gate = i
    · subst hne
      obtain ⟨before, hbefore, _⟩ := advances.waited
      have hlt := (List.getElem?_eq_some_iff.mp hbefore).1
      rw [hbefore] at hi
      cases hgate : o.gates[gate]? with
      | none =>
        rw [hgate] at hi
        cases hi
      | some found => simp [hlt]
    · rw [List.getElem?_set_ne hne, ← hi]
      cases o.gates[i]? <;> simp [hne]

/-- Steps of handlings leave all tasks and gates alone. -/
theorem Attends.of_same (attends : Attends plan o) (plans : o'.plan = o.plan)
    (gates : o'.gates = o.gates) (provisioners : o'.provisioner = o.provisioner) :
    Attends plan o' where
  samePlan := plans.trans attends.samePlan
  specs := provisioners ▸ attends.specs
  calendars := gates ▸ attends.calendars
  states := gates ▸ provisioners ▸ attends.states

theorem Attends.abandon (attends : Attends plan o) (gate : Nat) :
    Attends plan { o with gates := o.gates.modify gate Gate.leave } where
  samePlan := attends.samePlan
  specs := attends.specs
  calendars := (map_modify_of_same Gate.calendar_leave _ _).trans attends.calendars
  states := by
    intro i
    rw [← attends.states i, ← List.getElem?_map, ← List.getElem?_map]
    exact congrArg (·[i]?) (map_modify_of_same Gate.state_leave o.gates gate)

theorem Attends.start (started : Orchestrator.start plan = .ok o) : Attends plan o := by
  cases start_eq_ok started
  refine ⟨rfl, ?_, ?_, ?_⟩
  · simp [Function.comp_def]
  · simp [Function.comp_def, Gate.new]
  · intro i
    cases h : plan.calendars[i]? <;> simp [h, Gate.new, Provisioner.report]

theorem Attends.step {label : Label} (attends : Attends plan o) (moves : Moves o label o') :
    Attends plan o' := by
  cases moves with
  | startTask stepped advances => exact attends.afterTask advances _
  | answerTask stepped advances => exact attends.afterTask advances _
  | arrive made => exact attends.of_same rfl rfl rfl
  | proceed found ended => exact attends.of_same rfl rfl rfl
  | answerQuery found received => exact attends.of_same rfl rfl rfl
  | elapse millis => exact attends.of_same rfl rfl rfl

theorem Run.attends {events : List Event} (run : Run plan events o) : Attends plan o := by
  induction run with
  | start started => exact .start started
  | step _ _ stepped ih => exact ih.step (moves_of_step stepped)
  | lag _ millis ih => exact ih.of_same rfl rfl rfl
  | abandon _ gate ih => exact ih.abandon gate

/-- A call that has ended stays as it is. -/
theorem Ended.step {label : Label} (ended : o.Ended other)
    (moves : Moves o label o') : o'.Ended other := by
  have hadvance : ∀ {gate spec call provisioner},
      o.provisioner.Advances gate spec call provisioner →
        ∃ spec call, provisioner.calls[other]? = some (spec, call) ∧ call.isDone = true := by
    intro gate spec call provisioner advances
    obtain ⟨before, hbefore, hwaits⟩ := advances.waited
    obtain ⟨specₒ, ended, hfound, hdone⟩ := ended
    have hne : gate ≠ other := by
      rintro rfl
      rw [hbefore] at hfound
      cases hfound
      rw [hwaits] at hdone
      cases hdone
    refine ⟨specₒ, ended, ?_, hdone⟩
    rw [advances.calls, List.getElem?_set_ne hne, hfound]
  cases moves with
  | startTask stepped advances => exact hadvance advances
  | answerTask stepped advances => exact hadvance advances
  | arrive made => exact ended
  | proceed found proceeds => exact ended
  | answerQuery found received => exact ended
  | elapse millis => exact ended

/-- What is seen of the tasks is what is seen of the calls of a provisioner. -/
theorem Run.exists_provisioner_run {events : List Event} (run : Run plan events o) :
    ∃ seen, Provisioner.Run seen o.provisioner ∧
      ∀ gate, Provisioner.messages gate seen = messages (.task gate) events := by
  induction run with
  | start started =>
    cases start_eq_ok started
    exact ⟨[], .of_calls plan.calendars, fun _ => rfl⟩
  | lag _ millis ih => exact ih
  | abandon _ gate ih => exact ih
  | step _ _ stepped ih =>
    obtain ⟨seen, hrun, hmessages⟩ := ih
    cases moves_of_step stepped with
    | startTask hstep advances =>
      refine ⟨_, hrun.step _ hstep, fun gate => ?_⟩
      simp [hmessages]
    | @answerTask moved answer _ _ _ _ hstep advances =>
      refine ⟨_, hrun.step _ hstep, fun gate => ?_⟩
      by_cases h : moved = gate <;> simp [hmessages, h]
    | arrive made => exact ⟨seen, hrun, fun gate => by simp [hmessages]⟩
    | proceed found ended => exact ⟨seen, hrun, fun gate => by simp [hmessages]⟩
    | answerQuery found received => exact ⟨seen, hrun, fun gate => by simp [hmessages]⟩
    | elapse millis => exact ⟨seen, hrun, fun gate => by simp [hmessages]⟩

end Tasks
end Orchestrator
end CalendarRollup
