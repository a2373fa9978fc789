import CalendarRollup.Proofs.Backend.Tables
import CalendarRollup.Proofs.Provision.Runs

/-! Provisioners that share a backend, and what the backend has told each of their calls. -/
namespace CalendarRollup

namespace Ensure

/-- What the backend has told a call about its objects, in order, as far as it has executed the
commands; the last answer may still be on its way. -/
inductive Heard : Ensure → Option Response → List Creation → Prop
  | unstarted : Heard .unstarted none []
  | awaitingPattern : Heard .awaitingPattern none []
  | patternAnswered {response : Response} {pattern : Creation}
    (means : Creation.ofResponse? response = some pattern) :
    Heard .awaitingPattern (some response) [pattern]
  | awaitingCalendar (pattern : Creation) : Heard (.awaitingCalendar (.ok pattern)) none [pattern]
  | calendarAnswered (pattern : Creation) {response : Response} {calendar : Creation}
    (means : Creation.ofResponse? response = some calendar) :
    Heard (.awaitingCalendar (.ok pattern)) (some response) [pattern, calendar]
  | done (provisioned : Provisioned) :
    Heard (.done (.ok provisioned)) none [provisioned.pattern, provisioned.calendar]

section Heard
variable {spec : CalendarSpec} {call next : Ensure} {reply? : Option Response}
  {outcomes : List Creation}

theorem Heard.unique {others : List Creation} (heard : Heard call reply? outcomes)
    (again : Heard call reply? others) : outcomes = others := by
  cases heard with
  | patternAnswered means =>
    cases again with
    | patternAnswered means' => rw [Option.some.inj (means.symm.trans means')]
  | calendarAnswered pattern means =>
    cases again with
    | calendarAnswered _ means' => rw [Option.some.inj (means.symm.trans means')]
  | _ =>
    cases again
    rfl

/-- The command of a call inserts the row that follows those that it has heard of. -/
theorem Heard.execute {command : Command} (heard : Heard call none outcomes)
    (waits : call.command? spec = some command) :
    ∃ statement entry, command = .execute statement ∧
      Entry.ofStatement? statement = some entry ∧
      ∀ response creation, Creation.ofResponse? response = some creation →
        Heard call (some response) (outcomes ++ [creation]) ∧
        spec.entries.zip (outcomes ++ [creation]) =
          spec.entries.zip outcomes ++ [(entry, creation)] := by
  cases heard with
  | awaitingPattern =>
    cases waits
    refine ⟨_, spec.patternEntry, rfl, Entry.ofStatement?_pattern spec, ?_⟩
    intro response creation means
    exact ⟨.patternAnswered means, rfl⟩
  | awaitingCalendar pattern =>
    cases waits
    refine ⟨_, spec.calendarEntry, rfl, Entry.ofStatement?_calendar spec, ?_⟩
    intro response creation means
    exact ⟨.calendarAnswered pattern means, rfl⟩
  | _ => cases waits

/-- An answer that comes in tells nothing new. -/
theorem Heard.receive {response : Response} (heard : Heard call (some response) outcomes)
    (received : call.receive? spec (.ok response) = some next) : Heard next none outcomes := by
  cases heard with
  | @patternAnswered _ pattern means =>
    cases received
    rw [Creation.ofAnswer_ok means]
    exact .awaitingCalendar pattern
  | @calendarAnswered pattern _ calendar means =>
    cases received
    rw [Creation.ofAnswer_ok means]
    exact .done ⟨pattern, calendar⟩

/-- A call that has succeeded has heard of all of its rows. -/
theorem Heard.of_succeeded (heard : Heard call none outcomes) (succeeded : call.succeeded = true)
    {entry : Entry} (needed : entry ∈ spec.entries) :
    ∃ creation, (entry, creation) ∈ spec.entries.zip outcomes := by
  cases heard with
  | done provisioned =>
    rcases CalendarSpec.mem_entries.mp needed with rfl | rfl
    · exact ⟨provisioned.pattern, by simp [CalendarSpec.entries]⟩
    · exact ⟨provisioned.calendar, by simp [CalendarSpec.entries]⟩
  | _ => cases succeeded

end Heard
end Ensure

/-- A call of one of many provisioners. -/
structure Caller where
  provisioner : Nat
  call : Nat
  deriving DecidableEq, Repr

/-- Provisioners, and the backend that all of them ask. -/
structure World where
  content : Entry → Prop
  provisioners : Nat → Provisioner
  /-- What the backend has answered to a call that has not taken it yet. -/
  reply? : Caller → Option Response

namespace World

/-- No provisioner remembers anything at first. -/
def new (content : Entry → Prop) : World := ⟨content, fun _ => .new, fun _ => none⟩

def call? (world : World) (caller : Caller) : Option (CalendarSpec × Ensure) :=
  (world.provisioners caller.provisioner).calls[caller.call]?

def setProvisioner (world : World) (place : Nat) (p : Provisioner) : World :=
  { world with
    provisioners := fun other => if other = place then p else world.provisioners other }

def setReply (world : World) (caller : Caller) (reply? : Option Response) : World :=
  { world with reply? := fun other => if other = caller then reply? else world.reply? other }

/-- The world after the backend has executed the command of a call. -/
def execute (world : World) (caller : Caller) (response : Response) (content : Entry → Prop) :
    World :=
  { world.setReply caller (some response) with content }

/-- What can happen: a provisioner is called, a call starts, the backend executes the command that
a call waits on, or its answer comes in. -/
inductive Step (world : World) : World → Prop
  | call (place : Nat) (spec : CalendarSpec) {p : Provisioner}
    (stepped : (world.provisioners place).step (.call spec) = some (p, none)) :
    Step world (world.setProvisioner place p)
  | start (caller : Caller) {p : Provisioner} {command : Option Command}
    (stepped : (world.provisioners caller.provisioner).step (.start caller.call) =
      some (p, command)) :
    Step world (world.setProvisioner caller.provisioner p)
  | execute (caller : Caller) {spec : CalendarSpec} {call : Ensure} {command : Command}
    {response : Response} {content : Entry → Prop}
    (found : world.call? caller = some (spec, call)) (waits : call.command? spec = some command)
    (unanswered : world.reply? caller = none)
    (executes : Executes world.content command response content) :
    Step world (world.execute caller response content)
  | deliver (caller : Caller) {response : Response} {p : Provisioner} {command : Option Command}
    (answered : world.reply? caller = some response)
    (stepped : (world.provisioners caller.provisioner).step (.answer caller.call (.ok response)) =
      some (p, command)) :
    Step world ((world.setProvisioner caller.provisioner p).setReply caller none)

/-- Every order of what can happen, from any content of the backend on. -/
inductive Run (content : Entry → Prop) : World → Prop
  | start : Run content (.new content)
  | step {world world' : World} : Run content world → Step world world' → Run content world'

section Frame
variable {world : World} {caller other : Caller} {spec : CalendarSpec} {call next : Ensure}

/-- Only one caller has come to stand elsewhere, or an answer has gone to or from it. -/
structure Concerns (caller : Caller) (world world' : World) : Prop where
  call? : ∀ {other}, other ≠ caller → world'.call? other = world.call? other
  reply? : ∀ {other}, other ≠ caller → world'.reply? other = world.reply? other

/-- The world after a call has moved on, with its answer taken. -/
def advance (world : World) (caller : Caller) (spec : CalendarSpec) (next : Ensure) : World :=
  (world.setProvisioner caller.provisioner
    ((world.provisioners caller.provisioner).advance caller.call spec next)).setReply caller none

theorem concerns_advance : Concerns caller world (world.advance caller spec next) where
  call? := by
    intro other hne
    unfold World.call? advance setReply setProvisioner
    by_cases hplace : other.provisioner = caller.provisioner
    · have hcall : caller.call ≠ other.call := by
        intro hcall
        apply hne
        cases other
        cases caller
        simp_all
      simp only [hplace, if_true]
      exact Provisioner.getElem?_advance_of_ne hcall
    · simp only [hplace, if_false]
  reply? := by
    intro other hne
    unfold advance setReply setProvisioner
    simp only [hne, if_false]

theorem call?_advance_self (next : Ensure) (found : world.call? caller = some (spec, call)) :
    (world.advance caller spec next).call? caller = some (spec, next) := by
  unfold World.call? advance setReply setProvisioner
  simp only [if_true]
  exact Provisioner.getElem?_advance_self next found

theorem mem_known_advance {place : Nat} {remembered : CalendarSpec}
    (h : remembered ∈ ((world.advance caller spec next).provisioners place).known) :
    remembered ∈ (world.provisioners place).known ∨
      (remembered = spec ∧ next.succeeded = true) := by
  unfold advance setReply setProvisioner at h
  by_cases hplace : place = caller.provisioner
  · subst hplace
    simp only [if_true] at h
    exact Provisioner.mem_known_advance.mp h
  · simp only [hplace, if_false] at h
    exact .inl h

theorem reply?_advance_self : (world.advance caller spec next).reply? caller = none := if_pos rfl

/-- A call that no answer is on its way to moves on in its provisioner only. -/
theorem advance_of_quiet (quiet : world.reply? caller = none) :
    world.advance caller spec next =
      world.setProvisioner caller.provisioner
        ((world.provisioners caller.provisioner).advance caller.call spec next) := by
  unfold advance setReply
  congr 1
  funext other
  by_cases hne : other = caller
  · subst hne
    simpa using quiet.symm
  · simp only [hne, if_false]
    rfl

theorem concerns_execute {response : Response} {content : Entry → Prop} :
    Concerns caller world (world.execute caller response content) :=
  ⟨fun _ => rfl, fun hne => if_neg hne⟩

theorem reply?_execute_self {response : Response} {content : Entry → Prop} :
    (world.execute caller response content).reply? caller = some response := if_pos rfl

/-- The world after a provisioner has been called. -/
def add (world : World) (place : Nat) (spec : CalendarSpec) : World :=
  world.setProvisioner place
    { world.provisioners place with
      calls := (world.provisioners place).calls ++ [(spec, .unstarted)] }

/-- The next call of a provisioner. -/
def newest (world : World) (place : Nat) : Caller :=
  ⟨place, (world.provisioners place).calls.length⟩

theorem call?_newest (place : Nat) : world.call? (world.newest place) = none :=
  List.getElem?_eq_none (Nat.le_refl _)

theorem call?_add_newest (place : Nat) :
    (world.add place spec).call? (world.newest place) = some (spec, .unstarted) := by
  unfold World.call? add setProvisioner newest
  simp only [if_true, List.getElem?_concat_length]

theorem concerns_add (place : Nat) :
    Concerns (world.newest place) world (world.add place spec) where
  call? := by
    intro other hne
    unfold World.call? add setProvisioner
    by_cases hplace : other.provisioner = place
    · have hcall : other.call ≠ (world.provisioners place).calls.length := by
        intro hcall
        apply hne
        cases other
        simp_all [newest]
      simp only [hplace, if_true, getElem?_concat, hcall, if_false]
    · simp only [hplace, if_false]
  reply? := fun _ => rfl

theorem known_add (place other : Nat) :
    ((world.add place spec).provisioners other).known = (world.provisioners other).known := by
  unfold add setProvisioner
  by_cases hplace : other = place
  · simp [hplace]
  · simp [hplace]

end Frame
end World
end CalendarRollup
