import CalendarRollup.Proofs.Backend.Tables

/-! Calendars are told from their names, from the definitions of their patterns and from the
statements that create them: what is written can be read back, so that no two calendars share
any of it. -/
namespace CalendarRollup
open Text Text.Reader

/-- How many units of a pattern are on, and how many are off behind them. -/
structure DutyCycle where
  on : Nat
  off : Nat
  unit : TimeUnit
  deriving DecidableEq, Repr

namespace DutyCycle

def read? (definition : String) : Option DutyCycle := do
  let cs ← expect "\x7b" definition.toList
  let (on, cs) := Numeral.ahead cs
  let cs ← expect " on, " cs
  let (off, cs) := Numeral.ahead cs
  let cs ← expect " off\x7d, " cs
  let unit ← (TimeUnit.parse (String.ofList cs)).toOption
  some { on, off, unit }

end DutyCycle

namespace CalendarSpec

/-- The calendar whose range is the whole cycle. -/
def ofDefinition? (definition : String) : Option CalendarSpec := do
  let cycle ← DutyCycle.read? definition
  (make (cycle.on + cycle.off : Nat) cycle.unit).toOption

theorem dutyCycle_patternDefinition (spec : CalendarSpec) :
    DutyCycle.read? spec.patternDefinition = some ⟨1, spec.range - 1, spec.unit⟩ := by
  have hdefinition : spec.patternDefinition.toList = "\x7b".toList ++ (Numeral.ofNat 1 ++
      (" on, ".toList ++ (Numeral.ofNat (spec.range - 1) ++
        (" off\x7d, ".toList ++ spec.unit.name.toList)))) := by
    have hone : Numeral.ofNat 1 = ['1'] := by decide
    simp [patternDefinition, Numeral.text, hone]
  have hon (cs : List Char) : (" on, ".toList ++ cs).takeWhile Char.isDigit = [] := by simp
  have hoff (cs : List Char) : (" off\x7d, ".toList ++ cs).takeWhile Char.isDigit = [] := by simp
  rw [DutyCycle.read?, hdefinition, expect_append]
  simp only [Option.bind_eq_bind, Option.bind_some, Numeral.ahead_append _ (hon _), expect_append,
    Numeral.ahead_append _ (hoff _), String.ofList_toList, TimeUnit.parse_name, Except.toOption]

theorem ofDefinition?_patternDefinition (spec : CalendarSpec) :
    ofDefinition? spec.patternDefinition = some spec := by
  have hcycle : 1 + (spec.range - 1) = spec.range := Nat.add_sub_of_le spec.range_pos
  rw [ofDefinition?, dutyCycle_patternDefinition]
  simp only [Option.bind_eq_bind, Option.bind_some, hcycle, make_range, Except.toOption]

theorem patternDefinition_injective {a b : CalendarSpec}
    (h : a.patternDefinition = b.patternDefinition) : a = b := by
  have hread := congrArg ofDefinition? h
  rw [ofDefinition?_patternDefinition, ofDefinition?_patternDefinition] at hread
  exact Option.some.inj hread

end CalendarSpec

/-- A parameter of a calendar, as it is written: its name, and its value in parentheses. -/
structure CalendarParameter where
  name : String
  value : String
  deriving DecidableEq, Repr

namespace CalendarParameter

def text (parameter : CalendarParameter) : String := parameter.name ++ "(" ++ parameter.value ++ ")"

def read (cs : Chars) : Option (CalendarParameter × Chars) := do
  let (name, cs) := run (· != '(') cs
  let cs ← expect "(" cs
  let (value, cs) := run (· != ')') cs
  let cs ← expect ")" cs
  some ({ name, value }, cs)

theorem read_text {name value : String} (hname : '(' ∉ name.toList) (hvalue : ')' ∉ value.toList)
    (rest : Chars) :
    read ((text ⟨name, value⟩).toList ++ rest) = some (⟨name, value⟩, rest) := by
  have htext : (text ⟨name, value⟩).toList ++ rest =
      name.toList ++ ("(".toList ++ (value.toList ++ (")".toList ++ rest))) := by
    simp [text]
  have hopen (cs : Chars) :
      run (· != '(') (name.toList ++ ("(".toList ++ cs)) = (name, "(".toList ++ cs) :=
    run_append (fun _ hc => bne_iff_ne.mpr (ne_of_mem_of_not_mem hc hname)) rfl rfl cs
  have hclose (cs : Chars) :
      run (· != ')') (value.toList ++ (")".toList ++ cs)) = (value, ")".toList ++ cs) :=
    run_append (fun _ hc => bne_iff_ne.mpr (ne_of_mem_of_not_mem hc hvalue)) rfl rfl cs
  rw [htext, read]
  simp only [hopen, Option.bind_eq_bind, expect_append, Option.bind_some, hclose]

end CalendarParameter

/-- The name of the pattern that a statement inserts. -/
def insertedPattern? (statement : String) : Option String :=
  match Entry.ofStatement? statement with
  | some (.pattern name) => some name
  | _ => none

/-- The name of the pattern that a calendar refers to in the statement that inserts it, among the
parameters in the second literal. -/
def referredPattern? (statement : String) : Option String := do
  let [_, parameters] ← literalContents statement | none
  let (parameters, rest) ← separated ", " CalendarParameter.read parameters.toList
  if rest.isEmpty then (parameters.find? (·.name == "pattname")).map (·.value) else none

namespace CalendarSpec

/-- What the backend is told of a calendar: where it starts, and which pattern it follows. -/
def parameters (spec : CalendarSpec) : List CalendarParameter :=
  [⟨"startdate", anchor⟩, ⟨"pattstart", anchor⟩, ⟨"pattname", spec.patternName⟩]

theorem read_parameters (spec : CalendarSpec) :
    separated ", " CalendarParameter.read
      (", ".intercalate (spec.parameters.map CalendarParameter.text)).toList =
        some (spec.parameters, []) := by
  have hreads : ∀ parameter ∈ spec.parameters, ∀ rest,
      CalendarParameter.read (parameter.text.toList ++ rest) = some (parameter, rest) := by
    intro parameter hparameter rest
    have hpattern : ')' ∉ spec.patternName.toList :=
      fun hc => absurd (spec.isName_calendarName _ hc) (by decide)
    simp only [parameters, List.mem_cons, List.not_mem_nil, or_false] at hparameter
    rcases hparameter with rfl | rfl | rfl
    · exact CalendarParameter.read_text (by decide) (by decide) rest
    · exact CalendarParameter.read_text (by decide) (by decide) rest
    · exact CalendarParameter.read_text (by decide) hpattern rest
  have hsome : spec.parameters ≠ [] := by simp [parameters]
  let follows (_ : Chars) : Prop := True
  have hmore (cs : Chars) : follows (", ".toList ++ cs) := trivial
  have hlast : follows [] := trivial
  have hends : expect ", " [] = none := rfl
  have hread := separated_intercalate hsome (fun parameter h rest _ => hreads parameter h rest)
    hmore hlast hends (by decide)
  simpa using hread

theorem referredPattern?_calendar (spec : CalendarSpec) :
    referredPattern? (BackendObject.calendar spec).createStatement = some spec.patternName := by
  have hparameters : "startdate(" ++ anchor ++ "), pattstart(" ++ anchor ++ "), pattname(" ++
      spec.patternName ++ ")" =
          ", ".intercalate (spec.parameters.map CalendarParameter.text) := by
    apply String.toList_inj.mp
    simp [parameters, CalendarParameter.text]
  rw [referredPattern?, Entry.literalContents_calendar, hparameters]
  simp only [Option.bind_eq_bind, Option.bind_some, spec.read_parameters]
  rfl

theorem insertedPattern?_pattern (spec : CalendarSpec) :
    insertedPattern? (BackendObject.pattern spec).createStatement = some spec.patternName := by
  rw [insertedPattern?, Entry.ofStatement?_pattern]
  rfl

/-- A calendar can be read back from its name: behind the prefix, the digits are its range and the
rest is its unit. It can be read back from the definition of its pattern, where the units that are
on and those that are off make up the range. So no two calendars share a name or a definition. The
pattern that the statement of a calendar refers to is the one that the other statement inserts, and
no command creates an object of two calendars. -/
theorem readBack_names (spec : CalendarSpec) :
    ofName? spec.calendarName = some spec ∧
    (∀ other : CalendarSpec, spec.calendarName = other.calendarName ↔ spec = other) ∧
    ofDefinition? spec.patternDefinition = some spec ∧
    (∃ cycle, DutyCycle.read? spec.patternDefinition = some cycle ∧
      cycle.on + cycle.off = spec.range ∧ cycle.unit = spec.unit) ∧
    (∀ other : CalendarSpec, spec.patternDefinition = other.patternDefinition ↔ spec = other) ∧
    (∃ name, insertedPattern? (BackendObject.pattern spec).createStatement = some name ∧
      referredPattern? (BackendObject.calendar spec).createStatement = some name) ∧
    ∀ other : CalendarSpec, spec ≠ other →
      (BackendObject.pattern spec).createStatement ≠
        (BackendObject.pattern other).createStatement ∧
      (BackendObject.calendar spec).createStatement ≠
        (BackendObject.calendar other).createStatement ∧
      ∀ command ∈ spec.creations, command ∉ other.creations := by
  refine ⟨spec.ofName?_calendarName, fun other => ⟨calendarName_injective, congrArg _⟩,
    spec.ofDefinition?_patternDefinition,
    ⟨_, spec.dutyCycle_patternDefinition, Nat.add_sub_of_le spec.range_pos, rfl⟩,
    fun other => ⟨patternDefinition_injective, congrArg _⟩,
    ⟨_, spec.insertedPattern?_pattern, spec.referredPattern?_calendar⟩, ?_⟩
  intro other hne
  refine ⟨fun h => hne ?_, fun h => hne ?_,
    fun command hspec hother => hne (eq_of_mem_creations hspec hother)⟩
  · have hentry := congrArg Entry.ofStatement? h
    rw [Entry.ofStatement?_pattern, Entry.ofStatement?_pattern] at hentry
    exact patternEntry_inj.mp (Option.some.inj hentry)
  · have hentry := congrArg Entry.ofStatement? h
    rw [Entry.ofStatement?_calendar, Entry.ofStatement?_calendar] at hentry
    exact calendarEntry_inj.mp (Option.some.inj hentry)

/-- Fifteen minutes and fifteen months, the units whose words begin alike. -/
theorem readBack_names_fifteen :
    ofName? "ts_15min" = some ⟨15, .minute, by decide, by decide⟩ ∧
    ofDefinition? "\x7b1 on, 14 off\x7d, month" = some ⟨15, .month, by decide, by decide⟩ ∧
    ∀ command ∈ creations ⟨15, .minute, by decide, by decide⟩,
      command ∉ creations ⟨15, .month, by decide, by decide⟩ := by
  obtain ⟨hname, _, _, _, _, _, hcreations⟩ :=
    readBack_names ⟨15, .minute, by decide, by decide⟩
  obtain ⟨_, _, hdefinition, _⟩ := readBack_names ⟨15, .month, by decide, by decide⟩
  exact ⟨hname, hdefinition, (hcreations _ (by decide)).2.2⟩

end CalendarSpec
end CalendarRollup
