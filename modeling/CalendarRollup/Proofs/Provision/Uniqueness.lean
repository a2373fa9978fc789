import CalendarRollup.Proofs.Provision.Sharing

/-! Provisioners that share a backend create every object once: the names that are unique there are
all that keeps them from creating it twice. -/
namespace CalendarRollup.World

/-- The backend has told a caller what became of a row. -/
def Tells (world : World) (caller : Caller) (entry : Entry) (creation : Creation) : Prop :=
  ∃ spec call outcomes, world.call? caller = some (spec, call) ∧
    call.Heard (world.reply? caller) outcomes ∧ (entry, creation) ∈ spec.entries.zip outcomes

/-- Of all calls for a calendar that have ended, one reports that it has created an object, and all
others that it exists. -/
def CreatedOnce (world : World) (spec : CalendarSpec) (part : Provisioned → Creation) : Prop :=
  ∃ creator created, world.call? creator = some (spec, .done (.ok created)) ∧
    part created = .created ∧
    ∀ other reported, other ≠ creator →
      world.call? other = some (spec, .done (.ok reported)) → part reported = .alreadyExists

/-- No caller but one has created a row that was not there initially. -/
structure Creators (initial content : Entry → Prop) (tells : Caller → Entry → Creation → Prop) :
    Prop where
  kept : ∀ {entry}, initial entry → content entry
  entered : ∀ {caller entry creation}, tells caller entry creation → content entry
  old : ∀ {caller entry}, initial entry → ¬ tells caller entry .created
  one : ∀ {entry}, content entry → ¬ initial entry →
    ∃ caller, ∀ other, tells other entry .created ↔ other = caller

structure Consistent (initial : Entry → Prop) (world : World) : Prop where
  standing : ∀ {caller spec call}, world.call? caller = some (spec, call) →
    ∃ outcomes, call.Heard (world.reply? caller) outcomes
  quiet : ∀ {caller}, world.call? caller = none → world.reply? caller = none
  known : ∀ {place spec}, spec ∈ (world.provisioners place).known →
    ∀ entry ∈ spec.entries, world.content entry
  creators : Creators initial world.content world.Tells

section Creators
variable {initial content content' : Entry → Prop} {tells tells' : Caller → Entry → Creation → Prop}
  {caller : Caller} {entry : Entry} {creation : Creation}

/-- Nothing is created where callers hear of rows that are there. -/
theorem Creators.hear (creators : Creators initial content tells)
    (keeps : ∀ other e c, tells other e c → tells' other e c)
    (news : ∀ other e c, tells' other e c →
      tells other e c ∨ (c = .alreadyExists ∧ content e)) :
    Creators initial content tells' := by
  have hcreated : ∀ other e, tells' other e .created ↔ tells other e .created := by
    intro other e
    constructor
    · intro h
      rcases news other e .created h with h | ⟨h, _⟩
      · exact h
      · cases h
    · exact keeps other e .created
  refine ⟨creators.kept, ?_, ?_, ?_⟩
  · intro other e c h
    rcases news other e c h with h | ⟨_, h⟩
    · exact creators.entered h
    · exact h
  · intro other e h
    rw [hcreated]
    exact creators.old h
  · intro e h hnew
    obtain ⟨creator, hcreator⟩ := creators.one h hnew
    refine ⟨creator, fun other => ?_⟩
    rw [hcreated]
    exact hcreator other

theorem Creators.insertion (creators : Creators initial content tells)
    (insertion : Insertion content entry creation content')
    (told : ∀ other e c, tells' other e c ↔
      tells other e c ∨ (other = caller ∧ e = entry ∧ c = creation)) :
    Creators initial content' tells' := by
  cases insertion with
  | alreadyExists present =>
    refine creators.hear (fun other e c h => (told other e c).mpr (.inl h)) fun other e c h => ?_
    rcases (told other e c).mp h with h | ⟨_, rfl, rfl⟩
    · exact .inl h
    · exact .inr ⟨rfl, present⟩
  | created absent =>
    refine ⟨fun h => .inr (creators.kept h), ?_, ?_, ?_⟩
    · intro other e c h
      rcases (told other e c).mp h with h | ⟨_, rfl, _⟩
      · exact .inr (creators.entered h)
      · exact .inl rfl
    · intro other e hold h
      rcases (told other e .created).mp h with h | ⟨_, rfl, _⟩
      · exact creators.old hold h
      · exact absent (creators.kept hold)
    · intro e hthere hnew
      by_cases hentry : e = entry
      · subst hentry
        refine ⟨caller, fun other => ?_⟩
        rw [told]
        constructor
        -- The name was absent until now, so that no caller can have heard of it before.
        · rintro (h | ⟨rfl, _⟩)
          · exact absurd (creators.entered h) absent
          · rfl
        · rintro rfl
          exact .inr ⟨rfl, rfl, rfl⟩
      · obtain ⟨creator, hcreator⟩ := creators.one (hthere.resolve_left hentry) hnew
        refine ⟨creator, fun other => ?_⟩
        rw [told, ← hcreator other]
        simp [hentry]

end Creators

section Steps
variable {initial : Entry → Prop} {world world' : World} {caller other : Caller}
  {spec : CalendarSpec} {call next : Ensure} {outcomes : List Creation} {entry : Entry}
  {creation : Creation}

theorem tells_iff (found : world.call? caller = some (spec, call))
    (heard : call.Heard (world.reply? caller) outcomes) :
    world.Tells caller entry creation ↔ (entry, creation) ∈ spec.entries.zip outcomes := by
  constructor
  · rintro ⟨_, _, others, hfound, hheard, hmem⟩
    cases found.symm.trans hfound
    rw [heard.unique hheard]
    exact hmem
  · intro hmem
    exact ⟨spec, call, outcomes, found, heard, hmem⟩

theorem Concerns.tells_iff (concerns : Concerns caller world world') (hne : other ≠ caller) :
    world'.Tells other entry creation ↔ world.Tells other entry creation := by
  unfold Tells
  rw [concerns.call? hne, concerns.reply? hne]

/-- Nothing is created where one caller hears of rows that are there. -/
theorem Creators.of_concerns (creators : Creators initial world.content world.Tells)
    (concerns : Concerns caller world world') (found : world'.call? caller = some (spec, call))
    (heard : call.Heard (world'.reply? caller) outcomes)
    (keeps : ∀ e c, world.Tells caller e c → (e, c) ∈ spec.entries.zip outcomes)
    (news : ∀ e c, (e, c) ∈ spec.entries.zip outcomes →
      world.Tells caller e c ∨ (c = .alreadyExists ∧ world.content e)) :
    Creators initial world.content world'.Tells := by
  refine creators.hear ?_ ?_
  · intro other e c h
    by_cases hne : other = caller
    · subst hne
      exact (tells_iff found heard).mpr (keeps e c h)
    · exact (concerns.tells_iff hne).mpr h
  · intro other e c h
    by_cases hne : other = caller
    · subst hne
      exact news e c ((tells_iff found heard).mp h)
    · exact .inl ((concerns.tells_iff hne).mp h)

/-- What is left to show after a step: that the memories and the content agree with what the
caller has heard. -/
theorem Consistent.of_concerns (consistent : Consistent initial world)
    (concerns : Concerns caller world world') (found : world'.call? caller = some (spec, call))
    (heard : call.Heard (world'.reply? caller) outcomes)
    (known : ∀ {place spec}, spec ∈ (world'.provisioners place).known →
      ∀ entry ∈ spec.entries, world'.content entry)
    (creators : Creators initial world'.content world'.Tells) : Consistent initial world' where
  standing := by
    intro other specₒ callₒ hfound
    by_cases hne : other = caller
    · subst hne
      cases found.symm.trans hfound
      exact ⟨outcomes, heard⟩
    · rw [concerns.call? hne] at hfound
      rw [concerns.reply? hne]
      exact consistent.standing hfound
  quiet := by
    intro other hnone
    by_cases hne : other = caller
    · subst hne
      rw [found] at hnone
      cases hnone
    · rw [concerns.call? hne] at hnone
      rw [concerns.reply? hne]
      exact consistent.quiet hnone
  known := known
  creators := creators

/-- A call that moves on has heard of rows that are there, and forgets none of them. -/
theorem Consistent.advance (consistent : Consistent initial world)
    (found : world.call? caller = some (spec, call)) (heard : next.Heard none outcomes)
    (keeps : ∀ e c, world.Tells caller e c → (e, c) ∈ spec.entries.zip outcomes)
    (news : ∀ e c, (e, c) ∈ spec.entries.zip outcomes →
      world.Tells caller e c ∨ (c = .alreadyExists ∧ world.content e)) :
    Consistent initial (world.advance caller spec next) := by
  have hfound := call?_advance_self next found
  have hheard : next.Heard ((world.advance caller spec next).reply? caller) outcomes := by
    rw [reply?_advance_self]
    exact heard
  have hcreators := consistent.creators.of_concerns concerns_advance hfound hheard keeps news
  refine consistent.of_concerns concerns_advance hfound hheard ?_ hcreators
  intro place remembered hknown e he
  rcases mem_known_advance hknown with hknown | ⟨rfl, hsucceeded⟩
  · exact consistent.known hknown e he
  · obtain ⟨c, hc⟩ := heard.of_succeeded hsucceeded he
    exact hcreators.entered ((tells_iff hfound hheard).mpr hc)

theorem Consistent.add (consistent : Consistent initial world) (place : Nat)
    (spec : CalendarSpec) : Consistent initial (world.add place spec) := by
  have hnone := world.call?_newest place
  have hfound : (world.add place spec).call? (world.newest place) = some (spec, .unstarted) :=
    call?_add_newest place
  have hheard : Ensure.unstarted.Heard ((world.add place spec).reply? (world.newest place)) [] := by
    change Ensure.unstarted.Heard (world.reply? (world.newest place)) []
    rw [consistent.quiet hnone]
    exact .unstarted
  refine consistent.of_concerns (concerns_add place) hfound hheard ?_ ?_
  · intro other remembered hknown
    rw [known_add] at hknown
    exact consistent.known hknown
  · refine consistent.creators.of_concerns (concerns_add place) hfound hheard ?_ ?_
    · rintro e c ⟨_, _, _, h, _⟩
      rw [hnone] at h
      cases h
    · intro e c h
      simp at h

/-- The backend executes the command of a caller, which is told what became of its row. -/
theorem Consistent.execute (consistent : Consistent initial world) {command : Command}
    {response : Response} {content : Entry → Prop}
    (found : world.call? caller = some (spec, call)) (waits : call.command? spec = some command)
    (unanswered : world.reply? caller = none)
    (executes : Executes world.content command response content) :
    Consistent initial (world.execute caller response content) := by
  obtain ⟨outcomes, hheard⟩ := consistent.standing found
  have hbefore : call.Heard none outcomes := by
    rw [← unanswered]
    exact hheard
  obtain ⟨statement, entry, rfl, hinto, hanswer⟩ := hbefore.execute waits
  obtain ⟨creation, hmeans, hinsertion⟩ := executes.insertion hinto
  obtain ⟨hafter, hzip⟩ := hanswer response creation hmeans
  have hfound : (world.execute caller response content).call? caller = some (spec, call) := found
  have hself : call.Heard ((world.execute caller response content).reply? caller)
      (outcomes ++ [creation]) := by
    rw [reply?_execute_self]
    exact hafter
  have htold : ∀ other e c, (world.execute caller response content).Tells other e c ↔
      world.Tells other e c ∨ (other = caller ∧ e = entry ∧ c = creation) := by
    intro other e c
    by_cases hne : other = caller
    · subst hne
      rw [tells_iff found hheard, tells_iff hfound hself, hzip]
      simp
    · rw [concerns_execute.tells_iff hne]
      simp [hne]
  have hcreators := consistent.creators.insertion hinsertion htold
  refine consistent.of_concerns concerns_execute hfound hself ?_ hcreators
  intro place remembered hknown e he
  have hthere := consistent.known hknown e he
  cases hinsertion with
  | created absent => exact .inr hthere
  | alreadyExists present => exact hthere

theorem Consistent.start {p : Provisioner} {command : Option Command}
    (consistent : Consistent initial world)
    (stepped : (world.provisioners caller.provisioner).step (.start caller.call) =
      some (p, command)) : Consistent initial (world.setProvisioner caller.provisioner p) := by
  cases Provisioner.step_eq_some_iff.mp stepped with
  | @start _ spec found =>
    obtain ⟨before, hbefore⟩ := consistent.standing found
    have hquiet : world.reply? caller = none := by
      generalize world.reply? caller = reply? at hbefore
      cases hbefore
      rfl
    have hunheard : ∀ e c, ¬ world.Tells caller e c := by
      intro e c h
      rw [hquiet] at hbefore
      cases hbefore
      have hnothing : Ensure.unstarted.Heard (world.reply? caller) [] := hquiet ▸ .unstarted
      have hmem := (tells_iff found hnothing).mp h
      simp at hmem
    rw [← advance_of_quiet hquiet]
    by_cases hknown : spec ∈ (world.provisioners caller.provisioner).known
    · rw [List.contains_iff_mem.mpr hknown]
      refine consistent.advance found (.done ⟨.alreadyExists, .alreadyExists⟩)
        (fun e c h => absurd h (hunheard e c)) fun e c h => ?_
      right
      have hthere := consistent.known hknown
      rcases List.mem_cons.mp h with h | h
      · cases h
        exact ⟨rfl, hthere _ (CalendarSpec.mem_entries.mpr (.inl rfl))⟩
      · cases List.mem_singleton.mp h
        exact ⟨rfl, hthere _ (CalendarSpec.mem_entries.mpr (.inr rfl))⟩
    · rw [List.contains_eq_mem, decide_eq_false hknown]
      exact consistent.advance found .awaitingPattern
        (fun e c h => absurd h (hunheard e c)) fun e c h => by simp at h

theorem Consistent.deliver {p : Provisioner} {command : Option Command} {response : Response}
    (consistent : Consistent initial world) (answered : world.reply? caller = some response)
    (stepped : (world.provisioners caller.provisioner).step (.answer caller.call (.ok response)) =
      some (p, command)) :
    Consistent initial ((world.setProvisioner caller.provisioner p).setReply caller none) := by
  cases Provisioner.step_eq_some_iff.mp stepped with
  | @answer _ spec call next _ found received =>
    obtain ⟨outcomes, hheard⟩ := consistent.standing found
    have hbefore : call.Heard (some response) outcomes := by
      rw [← answered]
      exact hheard
    refine consistent.advance found (hbefore.receive received) ?_ ?_
    · intro e c h
      exact (tells_iff found hheard).mp h
    · intro e c h
      exact .inl ((tells_iff found hheard).mpr h)

theorem Consistent.step (consistent : Consistent initial world) (step : Step world world') :
    Consistent initial world' := by
  cases step with
  | call place spec stepped =>
    cases Provisioner.step_eq_some_iff.mp stepped with
    | call => exact consistent.add place spec
  | start caller stepped => exact consistent.start stepped
  | execute caller found waits unanswered executes =>
    exact consistent.execute found waits unanswered executes
  | deliver caller answered stepped => exact consistent.deliver answered stepped

theorem Consistent.new (initial : Entry → Prop) : Consistent initial (new initial) := by
  have hnone : ∀ caller, (World.new initial).call? caller = none := fun _ => rfl
  have hsilent : ∀ caller e c, ¬ (World.new initial).Tells caller e c := by
    rintro caller e c ⟨_, _, _, h, _⟩
    rw [hnone] at h
    cases h
  refine ⟨?_, fun _ => rfl, ?_, ?_⟩
  · intro caller spec call h
    rw [hnone] at h
    cases h
  · intro place spec h
    cases h
  · exact ⟨id, fun h => absurd h (hsilent _ _ _), fun _ => hsilent _ _ _,
      fun h hnew => absurd h hnew⟩

theorem Run.consistent (run : Run initial world) : Consistent initial world := by
  induction run with
  | start => exact .new initial
  | step _ step ih => exact ih.step step

theorem Consistent.of_isDone (consistent : Consistent initial world)
    (found : world.call? caller = some (spec, call)) (done : call.isDone = true) :
    ∃ provisioned, call = .done (.ok provisioned) := by
  obtain ⟨outcomes, hheard⟩ := consistent.standing found
  generalize world.reply? caller = reply? at hheard
  cases hheard with
  | done provisioned => exact ⟨provisioned, rfl⟩
  | _ => cases done

theorem Consistent.tells_iff_of_done (consistent : Consistent initial world)
    {provisioned : Provisioned}
    (found : world.call? caller = some (spec, .done (.ok provisioned))) :
    world.Tells caller entry creation ↔
      (entry, creation) ∈ spec.entries.zip [provisioned.pattern, provisioned.calendar] := by
  obtain ⟨outcomes, hheard⟩ := consistent.standing found
  rw [tells_iff found hheard]
  generalize world.reply? caller = reply? at hheard
  cases hheard with
  | done provisioned => rfl

/-- One of the two rows of each calendar, which belongs to that calendar alone. -/
theorem Consistent.createdOnce_of_own (consistent : Consistent initial world)
    (complete : ∀ {caller spec call}, world.call? caller = some (spec, call) → call.isDone = true)
    {part : Provisioned → Creation} {entryOf : CalendarSpec → Entry}
    (own : ∀ a b provisioned creation,
      (entryOf a, creation) ∈ b.entries.zip [provisioned.pattern, provisioned.calendar] ↔
        a = b ∧ creation = part provisioned)
    (present : world.content (entryOf spec)) (absent : ¬ initial (entryOf spec)) :
    world.CreatedOnce spec part := by
  obtain ⟨creator, hcreator⟩ := consistent.creators.one present absent
  obtain ⟨owner, call, _, hfound, _⟩ := (hcreator creator).mpr rfl
  obtain ⟨created, rfl⟩ := consistent.of_isDone hfound (complete hfound)
  obtain ⟨rfl, hcreated⟩ := (own _ _ _ _).mp
    ((consistent.tells_iff_of_done hfound).mp ((hcreator creator).mpr rfl))
  refine ⟨creator, created, hfound, hcreated.symm, ?_⟩
  intro other reported hne hother
  cases hreported : part reported with
  | alreadyExists => rfl
  | created =>
    have hmem := (own spec spec reported .created).mpr ⟨rfl, hreported.symm⟩
    have htells := (consistent.tells_iff_of_done hother).mpr hmem
    exact absurd ((hcreator other).mp htells) hne

/-- Once all calls have ended, in whatever order their commands were executed, each has succeeded
and its objects exist. Of the calls for an object that was absent at first, exactly one has created
it. -/
theorem Run.created_once (run : Run initial world)
    (complete : ∀ caller spec call, world.call? caller = some (spec, call) → call.isDone = true) :
    ∀ caller spec call, world.call? caller = some (spec, call) →
      (∃ provisioned, call = .done (.ok provisioned)) ∧
      world.content spec.patternEntry ∧ world.content spec.calendarEntry ∧
      (¬ initial spec.patternEntry → world.CreatedOnce spec Provisioned.pattern) ∧
      (¬ initial spec.calendarEntry → world.CreatedOnce spec Provisioned.calendar) := by
  intro caller spec call found
  have hconsistent := run.consistent
  obtain ⟨provisioned, rfl⟩ := hconsistent.of_isDone found (complete _ _ _ found)
  have hpattern : world.content spec.patternEntry :=
    hconsistent.creators.entered ((hconsistent.tells_iff_of_done found).mpr
      (CalendarSpec.patternEntry_mem_zip.mpr ⟨rfl, rfl⟩))
  have hcalendar : world.content spec.calendarEntry :=
    hconsistent.creators.entered ((hconsistent.tells_iff_of_done found).mpr
      (CalendarSpec.calendarEntry_mem_zip.mpr ⟨rfl, rfl⟩))
  refine ⟨⟨provisioned, rfl⟩, hpattern, hcalendar, ?_, ?_⟩
  · exact hconsistent.createdOnce_of_own (complete _ _ _)
      (fun _ _ _ _ => CalendarSpec.patternEntry_mem_zip) hpattern
  · exact hconsistent.createdOnce_of_own (complete _ _ _)
      (fun _ _ _ _ => CalendarSpec.calendarEntry_mem_zip) hcalendar

end Steps

/-- Two provisioners are called for the same calendar. The second creates the pattern, the first the
calendar. -/
theorem Run.created_once_racing :
    ∃ world, Run (fun _ => False) world ∧
      world.CreatedOnce SamplingBucket.oneHour.calendar Provisioned.pattern ∧
      world.CreatedOnce SamplingBucket.oneHour.calendar Provisioned.calendar := by
  obtain ⟨world, run, hfound, hcomplete⟩ : ∃ world, Run (fun _ => False) world ∧
      (∃ call, world.call? ⟨0, 0⟩ = some (SamplingBucket.oneHour.calendar, call)) ∧
      ∀ caller spec call, world.call? caller = some (spec, call) → call.isDone = true := by
    refine ⟨_, ((Run.start : Run (fun _ => False) _)
      |>.step (.call 0 SamplingBucket.oneHour.calendar rfl)
      |>.step (.call 1 SamplingBucket.oneHour.calendar rfl)
      |>.step (.start ⟨0, 0⟩ rfl)
      |>.step (.start ⟨1, 0⟩ rfl)
      |>.step (.execute ⟨1, 0⟩ rfl rfl rfl (.of_absent (Entry.ofStatement?_pattern _) id))
      |>.step (.execute ⟨0, 0⟩ rfl rfl rfl (.of_present (Entry.ofStatement?_pattern _) (.inl rfl)))
      |>.step (.deliver ⟨0, 0⟩ rfl rfl)
      |>.step (.execute ⟨0, 0⟩ rfl rfl rfl (.of_absent (Entry.ofStatement?_calendar _)
        (by rintro (h | h) <;> cases h)))
      |>.step (.deliver ⟨1, 0⟩ rfl rfl)
      |>.step (.execute ⟨1, 0⟩ rfl rfl rfl (.of_present (Entry.ofStatement?_calendar _) (.inl rfl)))
      |>.step (.deliver ⟨1, 0⟩ rfl rfl)
      |>.step (.deliver ⟨0, 0⟩ rfl rfl)), ⟨_, rfl⟩, ?_⟩
    rintro ⟨place, index⟩ spec call h
    match place, index with
    | 0, 0 =>
      cases h
      rfl
    | 0, index + 1 => cases h
    | 1, 0 =>
      cases h
      rfl
    | 1, index + 1 => cases h
    | place + 2, index => cases h
  obtain ⟨call, hcall⟩ := hfound
  obtain ⟨_, _, _, hpattern, hcalendar⟩ := run.created_once hcomplete _ _ call hcall
  exact ⟨world, run, hpattern id, hcalendar id⟩

end CalendarRollup.World
