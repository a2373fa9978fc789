import CalendarRollup.Proofs.Backend.Tables
import CalendarRollup.Proofs.Provision.Runs

/-! Calls that are made one after another cannot tell whether their provisioner remembers anything:
with or without a memory they have the same results and leave the same rows in the backend. -/
namespace CalendarRollup

/-- A provisioner, and the rows of the backend that it asks. -/
structure Backed where
  provisioner : Provisioner
  content : Entry → Prop

namespace Backed

/-- The backend executes the commands of a call one by one, until the call has none left. -/
inductive Served (index : Nat) : Backed → Option Command → List Command → Backed → Prop
  | last (s : Backed) : Served index s none [] s
  | next {s s' : Backed} {p : Provisioner} {content : Entry → Prop} {command : Command}
    {response : Response} {following : Option Command} {commands : List Command}
    (executes : Executes s.content command response content)
    (stepped : s.provisioner.step (.answer index (.ok response)) = some (p, following))
    (rest : Served index ⟨p, content⟩ following commands s') :
    Served index s (some command) (command :: commands) s'

/-- One call from its beginning to its end, with the commands that it issues and its result. -/
inductive Called (s : Backed) (spec : CalendarSpec) :
    List Command → Except Fault Provisioned → Backed → Prop
  | call {p p' : Provisioner} {s' : Backed} {command : Option Command} {commands : List Command}
    {result : Except Fault Provisioned} (called : s.provisioner.step (.call spec) = some (p, none))
    (started : p.step (.start s.provisioner.calls.length) = some (p', command))
    (served : Served s.provisioner.calls.length ⟨p', s.content⟩ command commands s')
    (ended : s'.provisioner.calls[s.provisioner.calls.length]? = some (spec, .done result)) :
    Called s spec commands result s'

/-- Calls one after another, where the provisioner may be replaced before each of them. -/
inductive Sequence (renew : Provisioner → Provisioner) :
    Backed → List CalendarSpec → List Command → List (Except Fault Provisioned) → Backed → Prop
  | nil (s : Backed) : Sequence renew s [] [] [] s
  | cons {s s' s'' : Backed} {spec : CalendarSpec} {specs : List CalendarSpec}
    {commands others : List Command} {result : Except Fault Provisioned}
    {results : List (Except Fault Provisioned)}
    (called : Called ⟨renew s.provisioner, s.content⟩ spec commands result s')
    (rest : Sequence renew s' specs others results s'') :
    Sequence renew s (spec :: specs) (commands ++ others) (result :: results) s''

/-- The same provisioner makes all calls of a sequence. -/
abbrev Kept : Backed → List CalendarSpec → List Command → List (Except Fault Provisioned) →
    Backed → Prop :=
  Sequence id

/-- Every call of a sequence is made by a new provisioner. -/
abbrev Renewed : Backed → List CalendarSpec → List Command → List (Except Fault Provisioned) →
    Backed → Prop :=
  Sequence fun _ => .new

/-- What a call comes to: nothing is asked where the calendar is remembered. -/
inductive Effect (s : Backed) (spec : CalendarSpec) :
    List Command → Except Fault Provisioned → (Entry → Prop) → Prop
  | remembered (known : spec ∈ s.provisioner.known) :
    Effect s spec [] (.ok ⟨.alreadyExists, .alreadyExists⟩) s.content
  | asked {pattern calendar : Creation} {between content : Entry → Prop}
    (unknown : spec ∉ s.provisioner.known)
    (first : Insertion s.content spec.patternEntry pattern between)
    (second : Insertion between spec.calendarEntry calendar content) :
    Effect s spec spec.creations (.ok ⟨pattern, calendar⟩) content

section Calls
variable {s s' : Backed} {spec : CalendarSpec} {call next : Ensure} {index : Nat}
  {commands : List Command} {result : Except Fault Provisioned} {content : Entry → Prop}

/-- Serving a call that waits on the insertion of a row. -/
theorem Served.insertion {statement : String} {entry : Entry}
    (served : Served index s (some (.execute statement)) commands s')
    (into : Entry.ofStatement? statement = some entry)
    (found : s.provisioner.calls[index]? = some (spec, call)) :
    ∃ response creation content next others, Creation.ofResponse? response = some creation ∧
      Insertion s.content entry creation content ∧ call.receive? spec (.ok response) = some next ∧
      commands = .execute statement :: others ∧
      Served index ⟨s.provisioner.advance index spec next, content⟩ (next.command? spec) others
        s' := by
  cases served with
  | next executes stepped rest =>
    obtain ⟨creation, hmeans, hinsertion⟩ := executes.insertion into
    cases Provisioner.step_eq_some_iff.mp stepped with
    | answer found' received =>
      cases found.symm.trans found'
      exact ⟨_, creation, _, _, _, hmeans, hinsertion, received, rfl, rest⟩

/-- A call that waits for its pattern has both of its rows inserted, and is remembered. -/
theorem Served.both
    (served : Served index s (some (BackendObject.pattern spec).creating) commands s')
    (found : s.provisioner.calls[index]? = some (spec, .awaitingPattern)) :
    ∃ pattern calendar between, Insertion s.content spec.patternEntry pattern between ∧
      Insertion between spec.calendarEntry calendar s'.content ∧
      commands = spec.creations ∧
      s'.provisioner.calls[index]? = some (spec, .done (.ok ⟨pattern, calendar⟩)) ∧
      ∀ other, other ∈ s'.provisioner.known ↔ other ∈ s.provisioner.known ∨ other = spec := by
  obtain ⟨_, pattern, between, _, _, hpattern, hfirst, received, rfl, hrest⟩ :=
    served.insertion (Entry.ofStatement?_pattern spec) found
  cases received.symm.trans (Ensure.receive?_pattern hpattern)
  have hwaits := Provisioner.getElem?_advance_self (.awaitingCalendar (.ok pattern)) found
  obtain ⟨_, calendar, content, _, _, hcalendar, hsecond, received, rfl, hlast⟩ :=
    hrest.insertion (Entry.ofStatement?_calendar spec) hwaits
  cases received.symm.trans (Ensure.receive?_calendar pattern hcalendar)
  cases hlast with
  | last =>
    refine ⟨pattern, calendar, between, hfirst, hsecond, rfl,
      Provisioner.getElem?_advance_self _ hwaits, fun other => ?_⟩
    simp [Provisioner.mem_known_advance, Ensure.succeeded]

/-- The provisioner once a call for a calendar has started. -/
def started (s : Backed) (spec : CalendarSpec) : Provisioner :=
  { s.provisioner with calls := s.provisioner.calls ++ [(spec, Ensure.unstarted)] }.advance
    s.provisioner.calls.length spec (.started (s.provisioner.known.contains spec))

theorem getElem?_started (s : Backed) (spec : CalendarSpec) :
    (s.started spec).calls[s.provisioner.calls.length]? =
      some (spec, .started (s.provisioner.known.contains spec)) :=
  Provisioner.getElem?_advance_self _ List.getElem?_concat_length

/-- Nothing is remembered by the start of a call that was not remembered already. -/
theorem mem_known_started (s : Backed) (spec other : CalendarSpec) :
    other ∈ (s.started spec).known ↔ other ∈ s.provisioner.known := by
  rw [started, Provisioner.mem_known_advance, Ensure.succeeded_started, List.contains_iff_mem]
  constructor
  · rintro (h | ⟨rfl, h⟩) <;> exact h
  · exact .inl

/-- A call is made by serving it from its start on. -/
theorem called_iff :
    Called s spec commands result s' ↔
      Served s.provisioner.calls.length ⟨s.started spec, s.content⟩
        ((Ensure.started (s.provisioner.known.contains spec)).command? spec) commands s' ∧
      s'.provisioner.calls[s.provisioner.calls.length]? = some (spec, .done result) := by
  have hnew : (s.provisioner.calls ++ [(spec, Ensure.unstarted)])[s.provisioner.calls.length]? =
      some (spec, .unstarted) := List.getElem?_concat_length
  constructor
  · intro h
    cases h with
    | call called started served ended =>
      cases Provisioner.step_eq_some_iff.mp called
      cases Provisioner.step_eq_some_iff.mp started with
      | start found =>
        cases hnew.symm.trans found
        exact ⟨served, ended⟩
  · rintro ⟨served, ended⟩
    exact .call rfl (Provisioner.step_eq_some_iff.mpr (.start hnew)) served ended

/-- A call has its effect, and its calendar is remembered afterwards. -/
theorem Called.effect (called : Called s spec commands result s') :
    Effect s spec commands result s'.content ∧
      ∀ other, other ∈ s'.provisioner.known ↔ other ∈ s.provisioner.known ∨ other = spec := by
  obtain ⟨hserved, hended⟩ := called_iff.mp called
  have hstarted := s.getElem?_started spec
  by_cases hknown : spec ∈ s.provisioner.known
  · rw [List.contains_iff_mem.mpr hknown] at hserved hstarted
    cases hserved with
    | last =>
      cases hstarted.symm.trans hended
      refine ⟨.remembered hknown, fun other => ?_⟩
      rw [mem_known_started]
      constructor
      · exact .inl
      · rintro (h | rfl)
        · exact h
        · exact hknown
  · rw [Bool.eq_false_iff.mpr (mt List.contains_iff_mem.mp hknown)] at hserved hstarted
    obtain ⟨pattern, calendar, between, hfirst, hsecond, rfl, hdone, hremembered⟩ :=
      hserved.both hstarted
    cases hdone.symm.trans hended
    refine ⟨.asked hknown hfirst hsecond, fun other => ?_⟩
    rw [hremembered, mem_known_started]

/-- The rows of every remembered calendar are there. -/
def Holds (s : Backed) : Prop :=
  ∀ spec ∈ s.provisioner.known, ∀ entry ∈ spec.entries, s.content entry

theorem Holds.new (content : Entry → Prop) : Holds ⟨.new, content⟩ := by
  intro spec known
  cases known

/-- Both rows of a calendar are there after its call, and none that was there has gone. -/
theorem Effect.mem_iff (effect : Effect s spec commands result content) (holds : s.Holds)
    (entry : Entry) : content entry ↔ entry ∈ spec.entries ∨ s.content entry := by
  cases effect with
  | remembered known =>
    constructor
    · exact .inr
    · rintro (h | h)
      · exact holds spec known entry h
      · exact h
  | asked unknown first second =>
    rw [second.mem_iff, first.mem_iff, CalendarSpec.mem_entries, or_left_comm, or_assoc]

theorem Called.holds (called : Called s spec commands result s') (holds : s.Holds) :
    s'.Holds := by
  obtain ⟨heffect, hknown⟩ := called.effect
  intro other remembered entry needed
  rw [heffect.mem_iff holds]
  rcases (hknown other).mp remembered with h | rfl
  · exact .inr (holds other h entry needed)
  · exact .inl needed

theorem Effect.of_known (effect : Effect s spec commands result content)
    (known : spec ∈ s.provisioner.known) :
    commands = [] ∧ result = .ok ⟨.alreadyExists, .alreadyExists⟩ ∧ content = s.content := by
  cases effect with
  | remembered _ => exact ⟨rfl, rfl, rfl⟩
  | asked unknown _ _ => exact absurd known unknown

theorem Effect.of_unknown (effect : Effect s spec commands result content)
    (unknown : spec ∉ s.provisioner.known) :
    ∃ pattern calendar between, Insertion s.content spec.patternEntry pattern between ∧
      Insertion between spec.calendarEntry calendar content ∧
      commands = spec.creations ∧
      result = .ok ⟨pattern, calendar⟩ := by
  cases effect with
  | remembered known => exact absurd known unknown
  | asked _ first second => exact ⟨_, _, _, first, second, rfl, rfl⟩

/-- A call that finds its calendar in the memory has the effect of one that does not. -/
theorem Effect.forget {p : Provisioner} {others : List Command} {result' : Except Fault Provisioned}
    {content' : Entry → Prop} (effect : Effect s spec commands result content) (holds : s.Holds)
    (other : Effect ⟨p, s.content⟩ spec others result' content') (unknown : spec ∉ p.known) :
    result = result' ∧ content = content' ∧ commands.Sublist others := by
  obtain ⟨pattern, calendar, between, hfirst, hsecond, rfl, rfl⟩ := other.of_unknown unknown
  by_cases hknown : spec ∈ s.provisioner.known
  · -- Both rows are there, so the backend says so twice and changes nothing.
    have hpattern := holds spec hknown spec.patternEntry (CalendarSpec.mem_entries.mpr (.inl rfl))
    have hcalendar := holds spec hknown spec.calendarEntry (CalendarSpec.mem_entries.mpr (.inr rfl))
    obtain ⟨rfl, rfl⟩ := hfirst.unique (.alreadyExists hpattern)
    obtain ⟨rfl, rfl⟩ := hsecond.unique (.alreadyExists hcalendar)
    obtain ⟨rfl, rfl, rfl⟩ := effect.of_known hknown
    exact ⟨rfl, rfl, List.nil_sublist _⟩
  · obtain ⟨_, _, _, hfirst', hsecond', rfl, rfl⟩ := effect.of_unknown hknown
    obtain ⟨rfl, rfl⟩ := hfirst.unique hfirst'
    obtain ⟨rfl, rfl⟩ := hsecond.unique hsecond'
    exact ⟨rfl, rfl, List.Sublist.refl _⟩

/-- A call that waits for its pattern can be served until it has ended. -/
theorem exists_served (found : s.provisioner.calls[index]? = some (spec, .awaitingPattern)) :
    ∃ commands result s', Served index s (some (BackendObject.pattern spec).creating) commands s' ∧
      s'.provisioner.calls[index]? = some (spec, .done result) := by
  obtain ⟨_, pattern, between, hfirst, hpattern⟩ :=
    Executes.exists_of_into s.content (Entry.ofStatement?_pattern spec)
  obtain ⟨_, calendar, content, hsecond, hcalendar⟩ :=
    Executes.exists_of_into between (Entry.ofStatement?_calendar spec)
  have hanswered := Provisioner.step_eq_some_iff.mpr
    (.answer found (Ensure.receive?_pattern hpattern))
  have hwaits := Provisioner.getElem?_advance_self (.awaitingCalendar (.ok pattern)) found
  have hended := Provisioner.step_eq_some_iff.mpr
    (.answer hwaits (Ensure.receive?_calendar pattern hcalendar))
  exact ⟨_, _, _, .next hfirst hanswered (.next hsecond hended (.last _)),
    Provisioner.getElem?_advance_self _ hwaits⟩

/-- Every call can be made, whatever is remembered and whichever rows are there. -/
theorem exists_called (s : Backed) (spec : CalendarSpec) :
    ∃ commands result s', Called s spec commands result s' := by
  simp only [called_iff]
  have hstarted := s.getElem?_started spec
  cases hknown : s.provisioner.known.contains spec with
  | true =>
    rw [hknown] at hstarted
    exact ⟨_, _, _, .last _, hstarted⟩
  | false =>
    rw [hknown] at hstarted
    exact exists_served (s := ⟨s.started spec, s.content⟩) hstarted

theorem exists_sequence (renew : Provisioner → Provisioner) (s : Backed)
    (specs : List CalendarSpec) : ∃ commands results s', Sequence renew s specs commands results s' := by
  induction specs generalizing s with
  | nil => exact ⟨[], [], s, .nil s⟩
  | cons spec specs ih =>
    obtain ⟨commands, result, s', hcalled⟩ := exists_called ⟨renew s.provisioner, s.content⟩ spec
    obtain ⟨others, results, s'', hrest⟩ := ih s'
    exact ⟨commands ++ others, result :: results, s'', .cons hcalled hrest⟩

/-- The rows after a sequence are those that were there before, and those of its calendars. -/
theorem Sequence.content_iff {specs : List CalendarSpec}
    {results : List (Except Fault Provisioned)} (kept : Kept s specs commands results s')
    (holds : s.Holds) (entry : Entry) :
    s'.content entry ↔ (∃ spec ∈ specs, entry ∈ spec.entries) ∨ s.content entry := by
  induction kept with
  | nil s => simp
  | @cons s s₁ s₂ spec specs _ _ _ _ called rest ih =>
    have hspecs : (∃ other ∈ spec :: specs, entry ∈ other.entries) ↔
        entry ∈ spec.entries ∨ ∃ other ∈ specs, entry ∈ other.entries := by simp
    rw [ih (called.holds holds), called.effect.1.mem_iff holds, hspecs, or_left_comm, or_assoc]

/-- Two sequences that begin with the same rows, the one with a memory and the other without. -/
theorem Sequence.forget {t t' : Backed} {specs : List CalendarSpec} {others : List Command}
    {results results' : List (Except Fault Provisioned)} (kept : Kept s specs commands results s')
    (holds : s.Holds) (renewed : Renewed t specs others results' t')
    (same : t.content = s.content) :
    results = results' ∧ s'.content = t'.content ∧ commands.Sublist others := by
  induction kept generalizing t others results' with
  | nil s =>
    cases renewed with
    | nil => exact ⟨rfl, same.symm, List.Sublist.refl _⟩
  | @cons s s₁ s₂ spec specs commands commands' result results called rest ih =>
    cases renewed with
    | @cons _ t₁ _ _ _ others others' result' results' called' rest' =>
      obtain ⟨heffect, _⟩ := called'.effect
      rw [same] at heffect
      obtain ⟨hresult, hcontent, hcommands⟩ :=
        called.effect.1.forget holds heffect List.not_mem_nil
      obtain ⟨hresults, hcontents, hothers⟩ := ih (called.holds holds) rest' hcontent.symm
      exact ⟨by rw [hresult, hresults], hcontents, hcommands.append hothers⟩

end Calls

/-- Calls one after another can all be made, by one provisioner that remembers as well as by a new
one for each of them. In whatever way the backend puts its answers, both have the same results and
leave the same rows, those of the calendars that were called for besides the ones that were there,
and the one that remembers issues a part of the commands, in their order. -/
theorem memory_transparent (content : Entry → Prop) (specs : List CalendarSpec) :
    (∃ commands results s, Kept ⟨.new, content⟩ specs commands results s) ∧
    (∃ commands results s, Renewed ⟨.new, content⟩ specs commands results s) ∧
    ∀ {commands others : List Command} {results results' : List (Except Fault Provisioned)}
      {s t : Backed}, Kept ⟨.new, content⟩ specs commands results s →
        Renewed ⟨.new, content⟩ specs others results' t →
        results = results' ∧ s.content = t.content ∧ commands.Sublist others ∧
        ∀ entry, s.content entry ↔ (∃ spec ∈ specs, entry ∈ spec.entries) ∨ content entry := by
  refine ⟨exists_sequence _ _ specs, exists_sequence _ _ specs, ?_⟩
  intro commands others results results' s t kept renewed
  obtain ⟨hresults, hcontent, hcommands⟩ := kept.forget (.new content) renewed rfl
  exact ⟨hresults, hcontent, hcommands, kept.content_iff (.new content)⟩

/-- A calendar whose own row is there without its pattern's is called for twice. -/
theorem memory_transparent_calledTwice :
    ∃ commands others s t,
      Kept ⟨.new, fun entry => entry = SamplingBucket.oneHour.calendar.calendarEntry⟩
        [SamplingBucket.oneHour.calendar, SamplingBucket.oneHour.calendar] commands
        [.ok ⟨.created, .alreadyExists⟩, .ok ⟨.alreadyExists, .alreadyExists⟩] s ∧
      Renewed ⟨.new, fun entry => entry = SamplingBucket.oneHour.calendar.calendarEntry⟩
        [SamplingBucket.oneHour.calendar, SamplingBucket.oneHour.calendar] others
        [.ok ⟨.created, .alreadyExists⟩, .ok ⟨.alreadyExists, .alreadyExists⟩] t ∧
      s.content = t.content ∧ commands.length = 2 ∧ others.length = 4 := by
  obtain ⟨⟨commands, results, s, hkept⟩, ⟨others, results', t, hrenewed⟩, hsame⟩ :=
    memory_transparent (fun entry => entry = SamplingBucket.oneHour.calendar.calendarEntry)
      [SamplingBucket.oneHour.calendar, SamplingBucket.oneHour.calendar]
  obtain ⟨rfl, hcontent, _, _⟩ := hsame hkept hrenewed
  have hlong : others.length = 4 := by
    cases hrenewed with
    | cons first rest =>
      cases rest with
      | cons second last =>
        cases last
        obtain ⟨_, _, _, _, _, rfl, _⟩ := first.effect.1.of_unknown List.not_mem_nil
        obtain ⟨_, _, _, _, _, rfl, _⟩ := second.effect.1.of_unknown List.not_mem_nil
        rfl
  have hshort : commands.length = 2 ∧
      results = [.ok ⟨.created, .alreadyExists⟩, .ok ⟨.alreadyExists, .alreadyExists⟩] := by
    cases hkept with
    | cons first rest =>
      cases rest with
      | cons second last =>
        cases last
        obtain ⟨heffect, hremembered⟩ := first.effect
        obtain ⟨_, _, _, hpattern, hcalendar, rfl, rfl⟩ := heffect.of_unknown List.not_mem_nil
        obtain ⟨rfl, rfl⟩ := hpattern.unique (.created (by simp))
        obtain ⟨rfl, _⟩ := hcalendar.unique (.alreadyExists (.inr rfl))
        obtain ⟨rfl, rfl, _⟩ := second.effect.1.of_known ((hremembered _).mpr (.inr rfl))
        exact ⟨rfl, rfl⟩
  obtain ⟨hshort, rfl⟩ := hshort
  exact ⟨commands, others, s, t, hkept, hrenewed, hcontent, hshort, hlong⟩

end Backed
end CalendarRollup
