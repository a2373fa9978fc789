import CalendarRollup.Proofs.Backend.Tables
import CalendarRollup.Proofs.Orchestrator.Queries
import CalendarRollup.Proofs.Rollup.QueryCalendars

/-! The calendars that an orchestrator has gates for are those that its queries refer to. -/
namespace CalendarRollup
open Text

namespace RollupRequest

/-- A query inserts no rows. -/
theorem ofStatement?_query {request : RollupRequest} {statement : String}
    (accepted : request.query = .ok statement) : Entry.ofStatement? statement = none := by
  obtain ⟨_, predicate, _, htext⟩ := (query_eq_ok_iff request statement).mp accepted
  have hselects : select.toList <+: statement.toList := by
    rw [htext]
    simp only [select, String.toList_append, List.append_assoc, List.prefix_append]
  have hpattern : ¬ Entry.patternInsertion.toList <+: statement.toList := fun h =>
    absurd (List.prefix_of_prefix_length_le h hselects (by decide)) (by decide)
  have hcalendar : ¬ Entry.calendarInsertion.toList <+: statement.toList := fun h =>
    absurd (List.prefix_of_prefix_length_le h hselects (by decide)) (by decide)
  unfold Entry.ofStatement?
  rw [if_neg (mt List.isPrefixOf_iff_prefix.mp hpattern),
    if_neg (mt List.isPrefixOf_iff_prefix.mp hcalendar)]

end RollupRequest

namespace RollupPlan
variable {plan : RollupPlan} {payload : Json} {moment : Instant} {request : RollupRequest}

/-- A request takes over what its plan says about the query. -/
theorem request_eq_ok (made : plan.request payload moment = .ok request) :
    request.table = plan.table ∧ request.idColumn = plan.idColumn ∧
      request.timeColumn = plan.timeColumn ∧ request.mode = plan.mode ∧
      request.calendar = plan.calendar := by
  obtain ⟨_, _, _, _, _, _, _, _, rfl⟩ := request_eq_ok_iff.mp made
  exact ⟨rfl, rfl, rfl, rfl, rfl⟩

/-- The calendars that are named in the query are those of the plan, also where the finer one is
the plan's own. -/
theorem mem_calendarNames_iff (made : plan.request payload moment = .ok request) (name : String) :
    name ∈ request.calendarNames ↔ name ∈ plan.calendars.map CalendarSpec.calendarName := by
  obtain ⟨_, _, _, hmode, hcalendar⟩ := request_eq_ok made
  unfold RollupRequest.calendarNames calendars
  rw [hmode, hcalendar]
  cases plan.mode with
  | discrete => simp
  | continuous =>
    by_cases hsame : plan.calendar.samplingBucket.calendar = plan.calendar <;>
      simp [hsame, SamplingBucket.calendarName]

end RollupPlan

namespace Orchestrator

theorem eq_nil_of_short {fixed last middle after : List Event} {issuer : Issuer}
    {command : Command} (quiet : .message issuer (.issued command) ∉ fixed) (short : last.length ≤ 1)
    (split : fixed ++ last = middle ++ .message issuer (.issued command) :: after) : after = [] := by
  have hlast : ∀ rest : List Event,
      last = rest ++ .message issuer (.issued command) :: after → after = [] := by
    rintro rest rfl
    simp only [List.length_append, List.length_cons] at short
    exact List.length_eq_zero_iff.mp (by omega)
  rcases List.append_eq_append_iff.mp split with ⟨rest, _, h⟩ | ⟨rest, hfixed, h⟩
  · exact hlast rest h
  · cases rest with
    | nil => exact hlast [] h.symm
    | cons event rest =>
      obtain ⟨rfl, _⟩ := List.cons.inj h
      exact absurd (hfixed ▸ List.mem_append_right _ List.mem_cons_self) quiet

section Runs
variable {plan : RollupPlan} {events : List Event} {o o' : Orchestrator}

theorem Moves.length_issued_le {label : Label} (moves : Moves o label o') :
    (o'.issued.drop o.issued.length).length ≤ 1 := by
  have hlog : ∀ issuer command, (log issuer command).length ≤ 1 := by
    intro issuer command
    cases command <;> simp [log]
  cases moves with
  | startTask stepped advances => simpa [afterTask] using hlog _ _
  | answerTask stepped advances => simpa [afterTask] using hlog _ _
  | arrive made => simpa [afterArrival] using hlog _ _
  | proceed found ended => simpa [setHandling] using hlog _ _
  | answerQuery found received => simpa [setHandling] using hlog _ _
  | elapse millis => simp

/-- A step ends with the command that is issued in it. -/
theorem Moves.eq_nil_of_issued {label : Label} (moves : Moves o label o') {issuer : Issuer}
    {command : Command} {middle after : List Event}
    (split : o.seen label o' = middle ++ .message issuer (.issued command) :: after) :
    after = [] := by
  have hquiet : .message issuer (.issued command) ∉ o.observed label := by
    cases label <;> simp [observed]
  have hshort : (issuedEvents (o'.issued.drop o.issued.length)).length ≤ 1 := by
    rw [issuedEvents, List.length_map]
    exact moves.length_issued_le
  exact eq_nil_of_short hquiet hshort split

/-- What has been seen up to a command that was issued is a run of its own. -/
theorem Run.exists_issued (run : Run plan events o) {before after : List Event} {issuer : Issuer}
    {command : Command} (split : events = before ++ .message issuer (.issued command) :: after) :
    ∃ o', Run plan (before ++ [.message issuer (.issued command)]) o' := by
  induction run generalizing before after with
  | start started => simp at split
  | lag _ millis ih => exact ih split
  | abandon _ gate ih => exact ih split
  | @step events o o' prefixRun label stepped ih =>
    have hstep := prefixRun.step label stepped
    have hmoves := moves_of_step stepped
    rcases List.append_eq_append_iff.mp split with ⟨middle, rfl, hseen⟩ | ⟨rest, rfl, hafter⟩
    · cases hmoves.eq_nil_of_issued hseen
      rw [hseen, ← List.append_assoc] at hstep
      exact ⟨o', hstep⟩
    · cases rest with
      | nil =>
        have hseen : o.seen label o' = [] ++ .message issuer (.issued command) :: after :=
          hafter.symm
        cases hmoves.eq_nil_of_issued hseen
        rw [hseen, List.append_nil, List.nil_append] at hstep
        exact ⟨o', hstep⟩
      | cons event rest =>
        obtain ⟨rfl, _⟩ := List.cons.inj hafter
        exact ih rfl

/-- Before a query is issued, its handling has waited for every gate, and no wait has ended with a
fault. -/
theorem Run.issued_query (run : Run plan events o) {before after : List Event} {index : Nat}
    {command : Command}
    (split : events = before ++ .message (.handling index) (.issued command) :: after) :
    ∃ payload moment request statement, ∃ states : List ProvisionState,
      arrivals index before = [(payload, moment)] ∧ plan.request payload moment = .ok request ∧
      request.query = .ok statement ∧ command = .execute statement ∧
      waits index before = states.map .ok ∧ states.length = plan.calendars.length := by
  obtain ⟨o', hrun⟩ := run.exists_issued split
  have hcommand : command ∈ commands (.handling index)
      (before ++ [.message (.handling index) (.issued command)]) := mem_commands (by simp)
  rcases hrun.commands_eq index with
    hnone | ⟨payload, moment, request, statement, states, harrival, hmade, hbuilt, hwaits, hfull, hone⟩
  · rw [hnone] at hcommand
    cases hcommand
  · rw [hone] at hcommand
    rw [arrivals_append, arrivals_cons_message] at harrival
    rw [waits_append, waits_cons_message] at hwaits
    exact ⟨payload, moment, request, statement, states, (List.append_nil _).symm.trans harrival,
      hmade, hbuilt, List.mem_singleton.mp hcommand, (List.append_nil _).symm.trans hwaits, hfull⟩

/-- A task issues only the commands for its own calendar. -/
theorem Run.commands_task (run : Run plan events o) {task : Nat} {command : Command}
    (issued : command ∈ commands (.task task) events) :
    ∃ spec call, o.provisioner.calls[task]? = some (spec, call) ∧ command ∈ spec.creations := by
  obtain ⟨seen, hrun, hmessages⟩ := run.exists_provisioner_run
  obtain ⟨message, hmessage, hissued⟩ := List.mem_filterMap.mp issued
  rw [← hmessages] at hmessage
  cases hcall : o.provisioner.calls[task]? with
  | none =>
    rw [(hrun.explained.unseen (List.getElem?_eq_none_iff.mp hcall)).2] at hmessage
    cases hmessage
  | some call =>
    obtain ⟨spec, call⟩ := call
    have haccounted := hrun.explained.calls hcall
    generalize Provisioner.messages task seen = messages at hmessage haccounted
    generalize Provisioner.memories task seen = memories at haccounted
    refine ⟨spec, call, rfl, ?_⟩
    cases haccounted with
    | unstarted => cases hmessage
    | found known => cases hmessage
    | asked unknown recorded =>
      obtain ⟨a, b, hpart, _⟩ := recorded.isPrefix
      have hexchange := hpart.subset hmessage
      simp only [Ensure.exchange, List.mem_cons, List.not_mem_nil, or_false] at hexchange
      rcases hexchange with rfl | rfl | rfl | rfl
      · cases hissued
        exact List.mem_cons_self
      · cases hissued
      · cases hissued
        exact List.mem_cons_of_mem _ List.mem_cons_self
      · cases hissued

/-- A calendar is called for by one task only, and nobody else issues a command that creates its
objects. -/
structure Provides (events : List Event) (o : Orchestrator) (spec : CalendarSpec) (task : Nat) :
    Prop where
  called : ∀ other, (∃ call, o.provisioner.calls[other]? = some (spec, call)) ↔ other = task
  created : ∀ issuer command, command ∈ commands issuer events → command ∈ spec.creations →
    issuer = .task task

theorem Run.provides (run : Run plan events o) {task : Nat} {spec : CalendarSpec}
    (named : plan.calendars[task]? = some spec) : Provides events o spec task := by
  have hspecs := run.attends.specs
  have hcalled : ∀ other, (∃ call, o.provisioner.calls[other]? = some (spec, call)) ↔
      other = task := by
    intro other
    have hother : (∃ call, o.provisioner.calls[other]? = some (spec, call)) ↔
        plan.calendars[other]? = some spec := by
      rw [← hspecs, List.getElem?_map, Option.map_eq_some_iff]
      constructor
      · rintro ⟨call, h⟩
        exact ⟨_, h, rfl⟩
      · rintro ⟨⟨_, call⟩, h, rfl⟩
        exact ⟨call, h⟩
    rw [hother]
    constructor
    · intro h
      exact (List.getElem?_inj (List.getElem?_eq_some_iff.mp h).1 plan.nodup_calendars).mp
        (h.trans named.symm)
    · rintro rfl
      exact named
  refine ⟨hcalled, fun issuer command hissued hcreates => ?_⟩
  cases issuer with
  | task other =>
    obtain ⟨owner, call, hcall, howner⟩ := run.commands_task hissued
    cases CalendarSpec.eq_of_mem_creations howner hcreates
    rw [(hcalled other).mp ⟨call, hcall⟩]
  | handling index =>
    rcases run.commands_eq index with hnone | ⟨_, _, _, statement, _, _, _, hbuilt, _, _, hone⟩
    · rw [hnone] at hissued
      cases hissued
    · rw [hone] at hissued
      cases List.mem_singleton.mp hissued
      obtain ⟨_, _, hinto⟩ := CalendarSpec.entry_of_mem_creations hcreates
      rw [RollupRequest.ofStatement?_query hbuilt] at hinto
      cases hinto

/-- The calendars that have a gate are those that the queries refer to, each of them once, and each
has a task of its own. A query is issued only after a wait at all of these gates, behind which both
commands for the calendar have been answered. The identifiers of a plan are put into its queries as
they are, so they must not have literals of their own. -/
theorem Run.calendars_of_queries (run : Run plan events o) :
    (o.gates.map Gate.calendar).Nodup ∧
    (∀ task gate, o.gates[task]? = some gate → Provides events o gate.calendar task) ∧
    (IsPlain plan.table.toList → IsPlain plan.idColumn.toList → IsPlain plan.timeColumn.toList →
      ∀ payload moment request statement, plan.request payload moment = .ok request →
        request.query = .ok statement →
          ∀ name, name ∈ referredCalendars statement ↔
            name ∈ o.gates.map fun gate => gate.calendar.calendarName) ∧
    (∀ before after index command,
      events = before ++ .message (.handling index) (.issued command) :: after →
        ∃ payload moment request statement, ∃ states : List ProvisionState,
          arrivals index before = [(payload, moment)] ∧
          plan.request payload moment = .ok request ∧ request.query = .ok statement ∧
          command = .execute statement ∧
          waits index before = states.map .ok ∧ states.length = o.gates.length ∧
          ∀ task gate, o.gates[task]? = some gate →
            ∃ a b, messages (.task task) before = Ensure.exchange gate.calendar a b) := by
  have hgates := run.attends.calendars
  have hnamed : ∀ {task : Nat} {gate : Gate}, o.gates[task]? = some gate →
      plan.calendars[task]? = some gate.calendar := by
    intro task gate found
    rw [← hgates, List.getElem?_map, found]
    rfl
  refine ⟨hgates ▸ plan.nodup_calendars, fun task gate found => run.provides (hnamed found), ?_, ?_⟩
  · intro plainTable plainId plainTime payload moment request statement made built name
    obtain ⟨htable, hid, htime, _, _⟩ := RollupPlan.request_eq_ok made
    rw [RollupRequest.referredCalendars_query built (htime ▸ plainTime) (htable ▸ plainTable)
      (hid ▸ plainId), RollupPlan.mem_calendarNames_iff made, ← hgates, List.map_map]
    rfl
  · intro before after index command split
    obtain ⟨payload, moment, request, statement, states, harrival, hmade, hbuilt, hcommand, hwaits,
      hfull⟩ := run.issued_query split
    refine ⟨payload, moment, request, statement, states, harrival, hmade, hbuilt, hcommand, hwaits,
      hfull.trans run.attends.length_gates.symm, ?_⟩
    intro task gate found
    exact run.exchange_before split (hnamed found)

end Runs

/-- A plan whose finer calendar is its own. -/
def everySecondPlan : RollupPlan := { hourlyPlan with calendar := SamplingBucket.oneSecond.calendar }

/-- An id that reads like the beginning of an aggregation. -/
def aggregatingPayload : Json :=
  .object [("sensor", .text "AggregateBy('AVG($temp)', 'ts_9day', ")]

/-- One gate is there for the calendar that stands twice in the query, and none for the one that
the id names. -/
theorem Run.calendars_of_queries_everySecond :
    ∃ events o statement, Run everySecondPlan events o ∧
      commands (.handling 0) events = [.execute statement] ∧
      o.gates.map Gate.calendar = [SamplingBucket.oneSecond.calendar] ∧
      (∀ name, name ∈ referredCalendars statement ↔ name ∈ ["ts_1sec"]) ∧
      Provides events o SamplingBucket.oneSecond.calendar 0 := by
  obtain ⟨events, o, statement, run, hcommands, ⟨gate, hgates, hcalendar⟩, request, hmade, hbuilt⟩ :
      ∃ events o statement, Run everySecondPlan events o ∧
        commands (.handling 0) events = [.execute statement] ∧
        (∃ gate, o.gates = [gate] ∧ gate.calendar = SamplingBucket.oneSecond.calendar) ∧
        ∃ request, everySecondPlan.request aggregatingPayload noon = .ok request ∧
          request.query = .ok statement :=
    ⟨_, _, _, (Run.start rfl : Run everySecondPlan _ _)
      |>.step (.arrive aggregatingPayload noon) rfl
      |>.step (.startTask 0) rfl
      |>.step (.answerTask 0 (.ok ⟨201, ""⟩)) rfl
      |>.step (.answerTask 0 (.ok ⟨201, ""⟩)) rfl
      |>.step (.proceed 0) rfl, rfl, ⟨_, rfl, rfl⟩, _, rfl, rfl⟩
  obtain ⟨_, hprovides, hqueries, _⟩ := run.calendars_of_queries
  have hnames := hqueries (by decide) (by decide) (by decide) _ _ _ _ hmade hbuilt
  have hprovided := hprovides 0 gate (by rw [hgates]; rfl)
  rw [hcalendar] at hprovided
  refine ⟨events, o, statement, run, hcommands, ?_, fun name => ?_, hprovided⟩
  · rw [hgates, List.map_singleton, hcalendar]
  · have hname : gate.calendar.calendarName = "ts_1sec" := by
      rw [hcalendar]
      decide
    have hreferred := hnames name
    rw [hgates, List.map_singleton, hname] at hreferred
    exact hreferred

/-- A plan whose column of times is an aggregation of its own. -/
def nestedPlan : RollupPlan :=
  { hourlyPlan with
    mode := .discrete
    timeColumn := "AggregateBy('AVG($temp)', 'ts_9day', measured, 0)" }

/-- What a plan has for an identifier may refer to a calendar that there is no gate for. -/
theorem Run.not_calendars_of_queries :
    ¬ ∀ plan events o, Run plan events o →
      ∀ payload moment request statement, plan.request payload moment = .ok request →
        request.query = .ok statement →
          ∀ name, name ∈ referredCalendars statement ↔
            name ∈ o.gates.map fun gate => gate.calendar.calendarName := by
  intro h
  obtain ⟨o, run, hgates⟩ : ∃ o, Run nestedPlan [] o ∧
      (o.gates.map fun gate => gate.calendar.calendarName) = ["ts_1hour"] :=
    ⟨_, .start rfl, by decide⟩
  obtain ⟨request, statement, hmade, hbuilt⟩ : ∃ request statement,
      nestedPlan.request sensorPayload noon = .ok request ∧ request.query = .ok statement :=
    ⟨_, _, rfl, rfl⟩
  obtain ⟨htable, hid, htime, _, _⟩ := RollupPlan.request_eq_ok hmade
  have hnested : request.timeColumn =
      RollupRequest.aggregationOpening "AVG($temp)" "ts_9day" ++ "measured, 0)" := by
    rw [htime]
    decide
  have hplain : IsPlain request.table.toList ∧ IsPlain request.idColumn.toList := by
    rw [htable, hid]
    decide
  have hreferred := RollupRequest.referredCalendars_nested hbuilt hnested (by decide) (by decide)
    (by decide) hplain.1 hplain.2
  have hname := (h _ _ _ run _ _ _ _ hmade hbuilt "ts_9day").mp (by simp [hreferred])
  rw [hgates] at hname
  exact absurd hname (by decide)

end Orchestrator
end CalendarRollup
