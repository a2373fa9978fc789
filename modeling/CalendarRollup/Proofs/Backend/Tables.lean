import CalendarRollup.Proofs.Calendar.Names
import CalendarRollup.Proofs.Provision.Messages

/-! A backend whose tables of patterns and calendars hold every name at most once, and what it
makes of the statements that create objects. -/
namespace CalendarRollup
open Text

/-- A row of one of the two tables, by its name. -/
inductive Entry where
  | pattern (name : String)
  | calendar (name : String)
  deriving DecidableEq, Repr

namespace CalendarSpec

def patternEntry (spec : CalendarSpec) : Entry := .pattern spec.patternName

def calendarEntry (spec : CalendarSpec) : Entry := .calendar spec.calendarName

/-- The rows that a calendar needs, in the order in which they are inserted. -/
def entries (spec : CalendarSpec) : List Entry := [spec.patternEntry, spec.calendarEntry]

theorem mem_entries {spec : CalendarSpec} {entry : Entry} :
    entry ∈ spec.entries ↔ entry = spec.patternEntry ∨ entry = spec.calendarEntry := by
  simp [entries]

/-- The names of two calendars never collide. -/
theorem patternEntry_inj {a b : CalendarSpec} : a.patternEntry = b.patternEntry ↔ a = b := by
  constructor
  · intro h
    exact calendarName_injective (Entry.pattern.inj h)
  · rintro rfl
    rfl

theorem calendarEntry_inj {a b : CalendarSpec} : a.calendarEntry = b.calendarEntry ↔ a = b := by
  constructor
  · intro h
    exact calendarName_injective (Entry.calendar.inj h)
  · rintro rfl
    rfl

@[simp] theorem patternEntry_ne_calendarEntry (a b : CalendarSpec) :
    a.patternEntry ≠ b.calendarEntry := by
  intro h
  cases h

/-- What is heard of a pattern's row is heard by the calls of its own calendar. -/
theorem patternEntry_mem_zip {a b : CalendarSpec} {pattern calendar creation : Creation} :
    (a.patternEntry, creation) ∈ b.entries.zip [pattern, calendar] ↔
      a = b ∧ creation = pattern := by
  simp [entries, patternEntry_inj]

theorem calendarEntry_mem_zip {a b : CalendarSpec} {pattern calendar creation : Creation} :
    (a.calendarEntry, creation) ∈ b.entries.zip [pattern, calendar] ↔
      a = b ∧ creation = calendar := by
  simp [entries, calendarEntry_inj, (patternEntry_ne_calendarEntry b a).symm]

end CalendarSpec

namespace Entry

def patternInsertion : String := "INSERT INTO CalendarPatterns"

def calendarInsertion : String := "INSERT INTO CalendarTable"

/-- The row that a statement inserts: the table stands in front, and the name is the first
literal. -/
def ofStatement? (statement : String) : Option Entry :=
  let name? := (literalContents statement).bind List.head?
  if patternInsertion.toList.isPrefixOf statement.toList then name?.map .pattern
  else if calendarInsertion.toList.isPrefixOf statement.toList then name?.map .calendar
  else none

theorem read_closing (found : List String) (content : List Char) :
    LiteralReader.read ⟨found, .inside content⟩ "');".toList =
      ⟨found ++ [String.ofList content], .outside⟩ := rfl

theorem literalContents_pattern (spec : CalendarSpec) :
    literalContents (BackendObject.pattern spec).createStatement =
      some [spec.patternName, spec.patternDefinition] := by
  have hopen : LiteralReader.read ⟨[], .outside⟩ "INSERT INTO CalendarPatterns VALUES ('".toList =
      ⟨[], .inside []⟩ := by simp [LiteralReader.read, LiteralReader.step]
  have hread := LiteralReader.read_pair [] hopen spec.isPlain_patternName
    spec.isPlain_patternDefinition read_closing
  unfold literalContents LiteralReader.start BackendObject.createStatement
  rw [hread]
  rfl

theorem literalContents_calendar (spec : CalendarSpec) :
    literalContents (BackendObject.calendar spec).createStatement =
      some [spec.calendarName, "startdate(" ++ CalendarSpec.anchor ++ "), pattstart(" ++
        CalendarSpec.anchor ++ "), pattname(" ++ spec.patternName ++ ")"] := by
  have hplain : IsPlain ("startdate(" ++ CalendarSpec.anchor ++ "), pattstart(" ++
      CalendarSpec.anchor ++ "), pattname(" ++ spec.patternName ++ ")").toList := by
    simp only [String.toList_append, isPlain_append]
    exact ⟨⟨by decide, spec.isPlain_patternName⟩, by decide⟩
  have hopen : LiteralReader.read ⟨[], .outside⟩
      "INSERT INTO CalendarTable(c_name, c_calendar) VALUES ('".toList = ⟨[], .inside []⟩ := by
    simp [LiteralReader.read, LiteralReader.step]
  have hread := LiteralReader.read_pair [] hopen spec.isPlain_calendarName hplain read_closing
  have hnext : "', 'startdate(" = "', '" ++ "startdate(" := by decide
  have hend : ")');" = ")" ++ "');" := by decide
  unfold literalContents LiteralReader.start BackendObject.createStatement
  rw [hnext, hend]
  simp only [String.append_assoc] at hread ⊢
  rw [hread]
  rfl

theorem patternInsertion_isPrefix (spec : CalendarSpec) :
    patternInsertion.toList <+: (BackendObject.pattern spec).createStatement.toList := by
  have hopen : "INSERT INTO CalendarPatterns VALUES ('" = patternInsertion ++ " VALUES ('" := by
    decide
  unfold BackendObject.createStatement
  rw [hopen]
  simp only [String.toList_append, List.append_assoc, List.prefix_append]

theorem calendarInsertion_isPrefix (spec : CalendarSpec) :
    calendarInsertion.toList <+: (BackendObject.calendar spec).createStatement.toList := by
  have hopen : "INSERT INTO CalendarTable(c_name, c_calendar) VALUES ('" =
      calendarInsertion ++ "(c_name, c_calendar) VALUES ('" := by
    decide
  unfold BackendObject.createStatement
  rw [hopen]
  simp only [String.toList_append, List.append_assoc, List.prefix_append]

/-- No statement inserts into both tables. -/
theorem not_patternInsertion_isPrefix {statement : List Char}
    (inserts : calendarInsertion.toList <+: statement) :
    ¬ patternInsertion.toList <+: statement := by
  intro hpattern
  have hboth : calendarInsertion.toList <+: patternInsertion.toList :=
    List.prefix_of_prefix_length_le inserts hpattern (by decide)
  exact absurd hboth (by decide)

@[simp] theorem ofStatement?_pattern (spec : CalendarSpec) :
    ofStatement? (BackendObject.pattern spec).createStatement = some spec.patternEntry := by
  have hpattern := List.isPrefixOf_iff_prefix.mpr (patternInsertion_isPrefix spec)
  unfold ofStatement?
  rw [if_pos hpattern, literalContents_pattern]
  rfl

@[simp] theorem ofStatement?_calendar (spec : CalendarSpec) :
    ofStatement? (BackendObject.calendar spec).createStatement = some spec.calendarEntry := by
  have hcalendar := calendarInsertion_isPrefix spec
  have hpattern := mt List.isPrefixOf_iff_prefix.mp (not_patternInsertion_isPrefix hcalendar)
  unfold ofStatement?
  rw [if_neg hpattern, if_pos (List.isPrefixOf_iff_prefix.mpr hcalendar), literalContents_calendar]
  rfl

end Entry

namespace CalendarSpec

/-- The commands that create the objects of a calendar. -/
def creations (spec : CalendarSpec) : List Command :=
  [(BackendObject.pattern spec).creating, (BackendObject.calendar spec).creating]

theorem eq_of_mem_entries {a b : CalendarSpec} {entry : Entry} (ha : entry ∈ a.entries)
    (hb : entry ∈ b.entries) : a = b := by
  rcases mem_entries.mp ha with rfl | rfl <;> rcases mem_entries.mp hb with h | h
  · exact patternEntry_inj.mp h
  · exact absurd h (patternEntry_ne_calendarEntry a b)
  · exact absurd h.symm (patternEntry_ne_calendarEntry b a)
  · exact calendarEntry_inj.mp h

theorem entry_of_mem_creations {spec : CalendarSpec} {statement : String}
    (h : .execute statement ∈ spec.creations) :
    ∃ entry ∈ spec.entries, Entry.ofStatement? statement = some entry := by
  simp only [creations, List.mem_cons, List.not_mem_nil, or_false] at h
  rcases h with h | h
  · cases h
    exact ⟨spec.patternEntry, mem_entries.mpr (.inl rfl), Entry.ofStatement?_pattern spec⟩
  · cases h
    exact ⟨spec.calendarEntry, mem_entries.mpr (.inr rfl), Entry.ofStatement?_calendar spec⟩

theorem exists_of_mem_creations {spec : CalendarSpec} {command : Command}
    (h : command ∈ spec.creations) : ∃ statement, command = .execute statement := by
  simp only [creations, List.mem_cons, List.not_mem_nil, or_false] at h
  rcases h with rfl | rfl <;> exact ⟨_, rfl⟩

/-- A command creates the objects of one calendar only. -/
theorem eq_of_mem_creations {a b : CalendarSpec} {command : Command} (ha : command ∈ a.creations)
    (hb : command ∈ b.creations) : a = b := by
  obtain ⟨statement, rfl⟩ := exists_of_mem_creations ha
  obtain ⟨entry, hentry, hinto⟩ := entry_of_mem_creations ha
  obtain ⟨other, hother, hinto'⟩ := entry_of_mem_creations hb
  cases hinto.symm.trans hinto'
  exact eq_of_mem_entries hentry hother

end CalendarSpec

namespace Response

/-- The body says that the object is there already. -/
def SaysExisting (response : Response) : Prop :=
  ∃ marker ∈ Creation.existsMarkers, marker.toList <:+: response.body.toList

theorem mentionsExisting_iff (response : Response) :
    Creation.mentionsExisting response.body = true ↔ response.SaysExisting := by
  unfold Creation.mentionsExisting SaysExisting
  rw [List.any_eq_true]
  constructor
  · rintro ⟨marker, hmarker, h⟩
    exact ⟨marker, hmarker, occursIn_iff.mp h⟩
  · rintro ⟨marker, hmarker, h⟩
    exact ⟨marker, hmarker, occursIn_iff.mpr h⟩

end Response

/-- How a backend whose names are unique answers a statement that inserts a row: it adds the row
where the name is absent, and says that the name exists where it is present. -/
inductive Executes (content : Entry → Prop) : Command → Response → (Entry → Prop) → Prop
  | inserts {statement : String} {entry : Entry} {response : Response}
    (into : Entry.ofStatement? statement = some entry) (absent : ¬ content entry)
    (success : 200 ≤ response.status.toNat ∧ response.status.toNat ≤ 299)
    (unmarked : ¬ response.SaysExisting) :
    Executes content (.execute statement) response fun other => other = entry ∨ content other
  | keeps {statement : String} {entry : Entry} {response : Response}
    (into : Entry.ofStatement? statement = some entry) (present : content entry)
    (success : 200 ≤ response.status.toNat ∧ response.status.toNat ≤ 299)
    (marked : response.SaysExisting) :
    Executes content (.execute statement) response content

/-- Such a backend can answer every statement that inserts a row. -/
theorem Executes.of_absent {content : Entry → Prop} {statement : String} {entry : Entry}
    (into : Entry.ofStatement? statement = some entry) (absent : ¬ content entry) :
    Executes content (.execute statement) ⟨201, ""⟩ fun other => other = entry ∨ content other := by
  refine .inserts into absent (by decide) ?_
  rw [← Response.mentionsExisting_iff]
  decide

theorem Executes.of_present {content : Entry → Prop} {statement : String} {entry : Entry}
    (into : Entry.ofStatement? statement = some entry) (present : content entry) :
    Executes content (.execute statement) ⟨200, "already exists"⟩ content := by
  refine .keeps into present (by decide) ?_
  rw [← Response.mentionsExisting_iff]
  decide

/-- Every statement that inserts a row is executed, and its answer means something. -/
theorem Executes.exists_of_into (content : Entry → Prop) {statement : String}
    {entry : Entry} (into : Entry.ofStatement? statement = some entry) :
    ∃ response creation after, Executes content (.execute statement) response after ∧
      Creation.ofResponse? response = some creation := by
  by_cases hpresent : content entry
  · exact ⟨_, .alreadyExists, _, .of_present into hpresent, by decide⟩
  · exact ⟨_, .created, _, .of_absent into hpresent, by decide⟩

/-- What becomes of the content when a row is to be inserted, and what the caller learns. -/
inductive Insertion (content : Entry → Prop) (entry : Entry) : Creation → (Entry → Prop) → Prop
  | created (absent : ¬ content entry) :
    Insertion content entry .created fun other => other = entry ∨ content other
  | alreadyExists (present : content entry) : Insertion content entry .alreadyExists content

section Insertions
variable {content : Entry → Prop} {entry : Entry}

/-- The content determines what becomes of it, and what the caller learns. -/
theorem Insertion.unique {a b : Creation} {left right : Entry → Prop}
    (first : Insertion content entry a left) (second : Insertion content entry b right) :
    a = b ∧ left = right := by
  cases first with
  | created absent =>
    cases second with
    | created => exact ⟨rfl, rfl⟩
    | alreadyExists present => exact absurd present absent
  | alreadyExists present =>
    cases second with
    | created absent => exact absurd present absent
    | alreadyExists => exact ⟨rfl, rfl⟩

/-- A row is there after its insertion, and so are those that were there before. -/
theorem Insertion.mem_iff {creation : Creation} {after : Entry → Prop}
    (insertion : Insertion content entry creation after) (other : Entry) :
    after other ↔ other = entry ∨ content other := by
  cases insertion with
  | created absent => exact Iff.rfl
  | alreadyExists present =>
    constructor
    · exact .inr
    · rintro (rfl | h)
      · exact present
      · exact h

end Insertions

theorem Executes.insertion {content content' : Entry → Prop} {statement : String} {entry : Entry}
    {response : Response} (executes : Executes content (.execute statement) response content')
    (into : Entry.ofStatement? statement = some entry) :
    ∃ creation, Creation.ofResponse? response = some creation ∧
      Insertion content entry creation content' := by
  unfold Creation.ofResponse?
  cases executes with
  | inserts into' absent success unmarked =>
    cases into.symm.trans into'
    rw [response.isSuccess_iff.mpr success,
      Bool.eq_false_iff.mpr (mt response.mentionsExisting_iff.mp unmarked)]
    exact ⟨.created, rfl, .created absent⟩
  | keeps into' present success marked =>
    cases into.symm.trans into'
    rw [response.isSuccess_iff.mpr success, response.mentionsExisting_iff.mpr marked]
    exact ⟨.alreadyExists, rfl, .alreadyExists present⟩

end CalendarRollup
