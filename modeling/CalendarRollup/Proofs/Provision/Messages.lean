import CalendarRollup.Proofs.Rollup.Requests
import CalendarRollup.Provision.Ensure

/-! What goes between the backend and a call that makes sure of a calendar. -/
namespace CalendarRollup

inductive Message where
  | issued (command : Command)
  | answered (answer : Answer)
  deriving Repr

def Message.command? : Message → Option Command
  | .issued command => some command
  | .answered _ => none

def BackendObject.creating (object : BackendObject) : Command := .execute object.createStatement

/-- The backend could be reached and answered with a status of success. -/
def Answer.Succeeds (answer : Answer) : Prop :=
  ∃ response, answer = .ok response ∧
    200 ≤ response.status.toNat ∧ response.status.toNat ≤ 299

theorem Response.isSuccess_iff (response : Response) :
    response.isSuccess = true ↔ 200 ≤ response.status.toNat ∧ response.status.toNat ≤ 299 := by
  simp only [isSuccess, Bool.and_eq_true, decide_eq_true_eq]
  omega

namespace Creation

theorem ofResponse?_isSome (response : Response) :
    (ofResponse? response).isSome = response.isSuccess := by
  unfold ofResponse?
  cases response.isSuccess with
  | false => rfl
  | true => cases mentionsExisting response.body <;> rfl

theorem ofAnswer_ok {object : BackendObject} {response : Response} {creation : Creation}
    (means : ofResponse? response = some creation) :
    ofAnswer object (.ok response) = .ok creation := by
  refine Except.bind_eq_ok.mpr ⟨response, rfl, ?_⟩
  rw [means]

theorem report_of_ofAnswer [Complaints] {object : BackendObject} {answer : Answer} {fault : Fault}
    (failed : ofAnswer object answer = .error fault) : fault.report = fault.message := by
  rcases Except.bind_eq_error.mp failed with h | ⟨response, _, h⟩
  · obtain ⟨_, _, rfl⟩ := Except.mapError_eq_error_iff.mp h
    rfl
  · split at h
    next => cases h
    next =>
      cases h
      rfl

/-- An object is there exactly when its creation is answered with success. -/
theorem ofAnswer_eq_ok_iff (object : BackendObject) (answer : Answer) :
    (∃ creation, ofAnswer object answer = .ok creation) ↔ answer.Succeeds := by
  cases answer with
  | error fault =>
    constructor
    · rintro ⟨creation, h⟩
      cases h
    · rintro ⟨response, h, _⟩
      cases h
  | ok response =>
    have hstatus : Answer.Succeeds (.ok response) ↔ (ofResponse? response).isSome = true := by
      rw [ofResponse?_isSome, response.isSuccess_iff]
      constructor
      · rintro ⟨_, h, hstatus⟩
        cases h
        exact hstatus
      · intro hstatus
        exact ⟨response, rfl, hstatus⟩
    rw [hstatus]
    constructor
    · rintro ⟨creation, h⟩
      obtain ⟨_, hresponse, h⟩ := Except.bind_eq_ok.mp h
      cases hresponse
      cases hmeans : ofResponse? response with
      | none =>
        rw [hmeans] at h
        cases h
      | some creation => rfl
    · intro h
      obtain ⟨creation, hmeans⟩ := Option.isSome_iff_exists.mp h
      exact ⟨creation, ofAnswer_ok hmeans⟩

end Creation

namespace Ensure

/-- All that goes between the backend and a call that asks it. -/
def exchange (spec : CalendarSpec) (pattern calendar : Answer) : List Message :=
  [.issued (BackendObject.pattern spec).creating, .answered pattern,
    .issued (BackendObject.calendar spec).creating, .answered calendar]

/-- The result of a call by its two answers. -/
def resultOf (spec : CalendarSpec) (pattern calendar : Answer) : Except Fault Provisioned := do
  let pattern ← Creation.ofAnswer (.pattern spec) pattern
  let calendar ← Creation.ofAnswer (.calendar spec) calendar
  return { pattern, calendar }

theorem resultOf_eq_ok_iff (spec : CalendarSpec) (a b : Answer) :
    (∃ provisioned, resultOf spec a b = .ok provisioned) ↔ a.Succeeds ∧ b.Succeeds := by
  rw [← Creation.ofAnswer_eq_ok_iff (.pattern spec), ← Creation.ofAnswer_eq_ok_iff (.calendar spec)]
  constructor
  · rintro ⟨provisioned, h⟩
    obtain ⟨pattern, hpattern, h⟩ := Except.bind_eq_ok.mp h
    obtain ⟨calendar, hcalendar, _⟩ := Except.bind_eq_ok.mp h
    exact ⟨⟨pattern, hpattern⟩, ⟨calendar, hcalendar⟩⟩
  · rintro ⟨⟨pattern, hpattern⟩, ⟨calendar, hcalendar⟩⟩
    refine ⟨⟨pattern, calendar⟩, ?_⟩
    unfold resultOf
    rw [hpattern, hcalendar]
    rfl

theorem resultOf_of_pattern_error {spec : CalendarSpec} {a b : Answer} {fault : Fault}
    (h : Creation.ofAnswer (.pattern spec) a = .error fault) :
    resultOf spec a b = .error fault := by
  unfold resultOf
  rw [h]
  rfl

theorem resultOf_of_calendar_error {spec : CalendarSpec} {a b : Answer} {fault : Fault}
    (ha : a.Succeeds) (h : Creation.ofAnswer (.calendar spec) b = .error fault) :
    resultOf spec a b = .error fault := by
  obtain ⟨pattern, hpattern⟩ := (Creation.ofAnswer_eq_ok_iff (.pattern spec) a).mpr ha
  unfold resultOf
  rw [hpattern, h]
  rfl

/-- A call does not fail for a text that is refused, so the state of a gate tells the whole
message. -/
theorem report_of_resultOf [Complaints] {spec : CalendarSpec} {a b : Answer} {fault : Fault}
    (failed : resultOf spec a b = .error fault) : fault.report = fault.message := by
  rcases Except.bind_eq_error.mp failed with h | ⟨_, _, h⟩
  · exact Creation.report_of_ofAnswer h
  · rcases Except.bind_eq_error.mp h with h | ⟨_, _, h⟩
    · exact Creation.report_of_ofAnswer h
    · cases h

theorem receive?_pattern {spec : CalendarSpec} {response : Response} {pattern : Creation}
    (means : Creation.ofResponse? response = some pattern) :
    awaitingPattern.receive? spec (.ok response) = some (.awaitingCalendar (.ok pattern)) := by
  unfold receive?
  rw [Creation.ofAnswer_ok means]

theorem receive?_calendar {spec : CalendarSpec} {response : Response} {calendar : Creation}
    (pattern : Creation) (means : Creation.ofResponse? response = some calendar) :
    (awaitingCalendar (.ok pattern)).receive? spec (.ok response) =
      some (.done (.ok ⟨pattern, calendar⟩)) := by
  have hcalendar : Creation.ofAnswer (.calendar spec) (.ok response) = .ok calendar :=
    Creation.ofAnswer_ok means
  simp only [receive?, hcalendar]
  rfl

/-- Where a call stands that asks the backend, by what has gone between them. -/
inductive Recorded (spec : CalendarSpec) : List Message → Ensure → Prop
  | awaitingPattern :
    Recorded spec [.issued (BackendObject.pattern spec).creating] .awaitingPattern
  | awaitingCalendar (a : Answer) :
    Recorded spec
      [.issued (BackendObject.pattern spec).creating, .answered a,
        .issued (BackendObject.calendar spec).creating]
      (.awaitingCalendar (Creation.ofAnswer (.pattern spec) a))
  | done (a b : Answer) : Recorded spec (exchange spec a b) (.done (resultOf spec a b))

theorem isDone_eq_false_of_receive {spec : CalendarSpec} {call next : Ensure} {answer : Answer}
    (received : call.receive? spec answer = some next) : call.isDone = false := by
  cases call with
  | done result => cases received
  | _ => rfl

/-- A call takes an answer and issues its next command, if there is one. -/
theorem Recorded.receive {spec : CalendarSpec} {messages : List Message} {call next : Ensure}
    {answer : Answer} (recorded : Recorded spec messages call)
    (received : call.receive? spec answer = some next) :
    Recorded spec (messages ++ .answered answer :: (next.command? spec).toList.map .issued)
      next := by
  cases recorded with
  | awaitingPattern =>
    cases received
    exact .awaitingCalendar answer
  | awaitingCalendar a =>
    cases received
    exact .done a answer
  | done a b => cases received

/-- A call that has not ended can take any answer. -/
theorem Recorded.exists_receive {spec : CalendarSpec} {messages : List Message} {call : Ensure}
    (recorded : Recorded spec messages call) (waits : call.isDone = false) (answer : Answer) :
    ∃ next, call.receive? spec answer = some next := by
  cases recorded with
  | awaitingPattern => exact ⟨_, rfl⟩
  | awaitingCalendar a => exact ⟨_, rfl⟩
  | done a b => cases waits

theorem exchange_inj {spec : CalendarSpec} {a b a' b' : Answer} :
    exchange spec a b = exchange spec a' b' ↔ a = a' ∧ b = b' := by
  simp [exchange]

@[simp] theorem succeeded_started (known : Bool) : (started known).succeeded = known := by
  cases known <;> rfl

theorem succeeded_done_iff (result : Except Fault Provisioned) :
    (Ensure.done result).succeeded = true ↔ ∃ provisioned, result = .ok provisioned := by
  cases result <;> simp [succeeded]

/-- A call that asks the backend succeeds exactly when both of its commands do. -/
theorem Recorded.succeeded_iff {spec : CalendarSpec} {messages : List Message} {call : Ensure}
    (recorded : Recorded spec messages call) :
    call.succeeded = true ↔
      call.isDone = true ∧ ∃ a b, messages = exchange spec a b ∧ a.Succeeds ∧ b.Succeeds := by
  cases recorded with
  | awaitingPattern => simp [succeeded, isDone]
  | awaitingCalendar a => simp [succeeded, isDone]
  | done a b =>
    rw [succeeded_done_iff, resultOf_eq_ok_iff]
    constructor
    · rintro ⟨ha, hb⟩
      exact ⟨rfl, a, b, rfl, ha, hb⟩
    · rintro ⟨_, a', b', h, ha, hb⟩
      obtain ⟨rfl, rfl⟩ := exchange_inj.mp h
      exact ⟨ha, hb⟩

/-- The messages of a call are those of the whole exchange as far as it has come. -/
theorem Recorded.isPrefix {spec : CalendarSpec} {messages : List Message} {call : Ensure}
    (recorded : Recorded spec messages call) :
    ∃ a b, messages <+: exchange spec a b ∧
      ∀ result, call = .done result →
        messages = exchange spec a b ∧ result = resultOf spec a b := by
  cases recorded with
  | awaitingPattern =>
    refine ⟨.error .noRequest, .error .noRequest, ?_, fun result h => ?_⟩
    · simp [exchange]
    · cases h
  | awaitingCalendar a =>
    refine ⟨a, .error .noRequest, ?_, fun result h => ?_⟩
    · simp [exchange]
    · cases h
  | done a b =>
    refine ⟨a, b, List.prefix_rfl, fun result h => ?_⟩
    cases h
    exact ⟨rfl, rfl⟩

end Ensure
end CalendarRollup
