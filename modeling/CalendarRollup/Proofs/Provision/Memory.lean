import CalendarRollup.Proofs.Provision.Runs

/-! The memory of a provisioner holds what its calls have made sure of, and nothing else. -/
namespace CalendarRollup.Provisioner

/-- The memory grows in the step in which a call succeeds, by the calendar of that call. -/
theorem step_known {p p' : Provisioner} {label : Label} {command : Option Command}
    (stepped : p.step label = some (p', command)) :
    p'.known = p.known ∨ ∃ index answer spec provisioned, label = .answer index answer ∧
      p'.calls[index]? = some (spec, .done (.ok provisioned)) ∧ p'.known = spec :: p.known := by
  cases step_eq_some_iff.mp stepped with
  | call spec => exact .inl rfl
  | @start index spec found =>
    left
    by_cases hknown : spec ∈ p.known
    · simp [advance, hknown]
    · simp [advance, hknown, Ensure.started, Ensure.succeeded]
  | @answer index spec call next answer found received =>
    by_cases hnew : next.succeeded = true ∧ spec ∉ p.known
    · right
      obtain ⟨hsucceeded, hunknown⟩ := hnew
      have hself := getElem?_advance_self next found
      cases next with
      | done result =>
        obtain ⟨provisioned, rfl⟩ := (Ensure.succeeded_done_iff result).mp hsucceeded
        refine ⟨index, answer, spec, provisioned, rfl, hself, ?_⟩
        simp [advance, hsucceeded, hunknown]
      | _ => cases hsucceeded
    · left
      unfold advance
      rw [if_neg]
      simpa using hnew

/-- A calendar is in the memory exactly when a call for it has ended with both answers a success. A
call that finds its calendar there issues no command. Every other call issues two, the second
whatever becomes of the first, and its result is the first failure of the two, if there is one. A
call that fails leaves the memory as it is. -/
theorem Run.memory_and_calls {events : List Event} {p : Provisioner} (run : Run events p) :
    (∀ spec, spec ∈ p.known ↔
      ∃ index call a b, p.calls[index]? = some (spec, call) ∧ call.isDone = true ∧
        messages index events = Ensure.exchange spec a b ∧ a.Succeeds ∧ b.Succeeds) ∧
    (∀ index spec call, p.calls[index]? = some (spec, call) →
      (call = .unstarted ∧ messages index events = []) ∨
      ∃ memory, memories index events = [memory] ∧
        (spec ∈ memory →
          messages index events = [] ∧
            call = .done (.ok ⟨.alreadyExists, .alreadyExists⟩)) ∧
        (spec ∉ memory →
          (call.isDone = false → ∀ answer, (p.step (.answer index answer)).isSome = true) ∧
          ∃ a b, messages index events <+: Ensure.exchange spec a b ∧
            ∀ result, call = .done result →
              messages index events = Ensure.exchange spec a b ∧
              ((∃ provisioned, result = .ok provisioned) ↔ a.Succeeds ∧ b.Succeeds) ∧
              (∀ fault, Creation.ofAnswer (.pattern spec) a = .error fault →
                result = .error fault) ∧
              (∀ fault, a.Succeeds → Creation.ofAnswer (.calendar spec) b = .error fault →
                result = .error fault))) ∧
    (∀ label p' command, p.step label = some (p', command) →
      p'.known = p.known ∨ ∃ index answer spec provisioned, label = .answer index answer ∧
        p'.calls[index]? = some (spec, .done (.ok provisioned)) ∧ p'.known = spec :: p.known) := by
  refine ⟨fun spec => run.explained.known, ?_, fun label p' command => step_known⟩
  intro index spec call hcall
  have haccounted := run.explained.calls hcall
  generalize hmemories : memories index events = memories at haccounted ⊢
  generalize hmessages : messages index events = messages at haccounted ⊢
  cases haccounted with
  | unstarted => exact .inl ⟨rfl, rfl⟩
  | @found memory known =>
    right
    exact ⟨memory, rfl, fun _ => ⟨rfl, rfl⟩, fun unknown => absurd known unknown⟩
  | @asked memory messages call unknown recorded =>
    right
    refine ⟨memory, rfl, fun known => absurd known unknown, fun _ => ⟨?_, ?_⟩⟩
    · intro waits answer
      obtain ⟨next, hnext⟩ := recorded.exists_receive waits answer
      simp [Provisioner.step, hcall, hnext]
    · obtain ⟨a, b, hprefix, hdone⟩ := recorded.isPrefix
      refine ⟨a, b, hprefix, fun result hresult => ?_⟩
      obtain ⟨hexchange, rfl⟩ := hdone result hresult
      exact ⟨hexchange, Ensure.resultOf_eq_ok_iff spec a b,
        fun fault => Ensure.resultOf_of_pattern_error,
        fun fault => Ensure.resultOf_of_calendar_error⟩

/-- Two calls for one calendar overlap: the first succeeds, the second fails twice. A third call
begins after them. -/
theorem Run.memory_and_calls_overlapping :
    ∃ events p, Run events p ∧ SamplingBucket.oneHour.calendar ∈ p.known ∧
      messages 1 events = Ensure.exchange SamplingBucket.oneHour.calendar
        (.error (.failed "connection reset")) (.ok ⟨500, "locked"⟩) ∧
      messages 2 events = [] := by
  obtain ⟨events, p, run, hfirst, hsecond, hthird⟩ :
      ∃ events p, Run events p ∧
        (p.calls[0]? = some (SamplingBucket.oneHour.calendar,
            .done (.ok ⟨.alreadyExists, .created⟩)) ∧
          messages 0 events = Ensure.exchange SamplingBucket.oneHour.calendar
            (.ok ⟨200, "already exists"⟩) (.ok ⟨201, ""⟩)) ∧
        messages 1 events = Ensure.exchange SamplingBucket.oneHour.calendar
          (.error (.failed "connection reset")) (.ok ⟨500, "locked"⟩) ∧
        (∃ call, p.calls[2]? = some (SamplingBucket.oneHour.calendar, call) ∧
          memories 2 events = [[SamplingBucket.oneHour.calendar]]) :=
    ⟨_, _, (Run.start
      |>.step (.call SamplingBucket.oneHour.calendar) rfl
      |>.step (.call SamplingBucket.oneHour.calendar) rfl
      |>.step (.start 0) rfl
      |>.step (.start 1) rfl
      |>.step (.answer 1 (.error (.failed "connection reset"))) rfl
      |>.step (.answer 0 (.ok ⟨200, "already exists"⟩)) rfl
      |>.step (.answer 0 (.ok ⟨201, ""⟩)) rfl
      |>.step (.answer 1 (.ok ⟨500, "locked"⟩)) rfl
      |>.step (.call SamplingBucket.oneHour.calendar) rfl
      |>.step (.start 2) rfl), ⟨rfl, rfl⟩, rfl, _, rfl, rfl⟩
  obtain ⟨hknown, hcalls, _⟩ := run.memory_and_calls
  have hhour := (hknown _).mpr ⟨0, _, _, _, hfirst.1, rfl, hfirst.2,
    ⟨_, rfl, by decide, by decide⟩, ⟨_, rfl, by decide, by decide⟩⟩
  refine ⟨events, p, run, hhour, hsecond, ?_⟩
  obtain ⟨call, hcall, hmemories⟩ := hthird
  rcases hcalls 2 _ call hcall with ⟨_, hmessages⟩ | ⟨memory, hmemory, hfound, _⟩
  · exact hmessages
  · rw [hmemories] at hmemory
    cases hmemory
    exact (hfound (List.mem_singleton_self _)).1

end CalendarRollup.Provisioner
