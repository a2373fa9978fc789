import CalendarRollup.Proofs.Calendar.Names
import CalendarRollup.Proofs.Rollup.Requests

/-! The literals of a query: a reader of the text finds the contents that were put in, whatever
characters the ids and the fields of the rules hold. -/
namespace CalendarRollup
open Text

/-- A function of a field, or of a column. -/
structure Call where
  function : AggregateFunction
  argument : String
  deriving DecidableEq, Repr

namespace Call

def text (call : Call) : String := call.function.name ++ "($" ++ call.argument ++ ")"

/-- Calls in a row, with commas between them. -/
def listText (calls : List Call) : String := ",".intercalate (calls.map text)

end Call

namespace AggregateFunction

@[simp] theorem isPlain_name (function : AggregateFunction) : IsPlain function.name.toList := by
  cases function <;> decide

end AggregateFunction

theorem Call.isPlain_listText {calls : List Call}
    (h : ∀ call ∈ calls, IsPlain call.argument.toList) : IsPlain (listText calls).toList := by
  have hcomma : IsPlain ",".toList := by decide
  rw [listText, String.toList_intercalate]
  apply isPlain_intercalate hcomma
  simpa [text] using h

namespace Rule

theorem mem_of_mem_innerPath {path : List Char} {c : Char} (h : c ∈ innerPath path) :
    c ∈ path := by
  unfold innerPath at h
  split at h
  next => exact h
  next first rest heq =>
    have hdrop : c ∈ path.dropWhile (· != '.') := by simp [heq, h]
    exact (List.dropWhile_sublist _).mem hdrop

theorem isPlain_columnStem {path : List Char} (h : IsPlain path) : IsPlain (columnStem path) := by
  intro hmem
  simp only [columnStem, List.mem_map] at hmem
  obtain ⟨c, hc, hq⟩ := hmem
  split at hq
  · cases hq
  · subst hq
    exact h (mem_of_mem_innerPath hc)

theorem toList_column (rule : Rule) :
    rule.column.toList =
      columnStem rule.field.toList ++ '_' :: rule.function.name.toList := by
  have hunderscore : "_".toList = ['_'] := rfl
  simp only [column, String.toList_append, String.toList_ofList, hunderscore, List.append_assoc,
    List.singleton_append]

theorem isPlain_column {rule : Rule} (h : IsPlain rule.field.toList) :
    IsPlain rule.column.toList := by
  have hunderscore : IsPlain "_".toList := by decide
  unfold column
  rw [String.toList_append, String.toList_append, String.toList_ofList, isPlain_append,
    isPlain_append]
  exact ⟨⟨isPlain_columnStem h, hunderscore⟩, rule.function.isPlain_name⟩

end Rule

namespace Instant

theorem isPlain_yearChars (year : Int) : IsPlain (Date.yearChars year) := by
  unfold Date.yearChars
  split
  · simp
  · split <;> simp

@[simp] theorem isPlain_datetime (t : Instant) : IsPlain t.datetime.toList := by
  simp [datetime, datetimeChars, secondChars, Date.chars, ClockTime.chars, isPlain_yearChars]

@[simp] theorem isPlain_sqlType : IsPlain sqlType.toList := by decide

end Instant

namespace RollupRequest

/-- Calls of a function for each rule's raw field. -/
def fieldCalls (rules : List Rule) (function : Rule → AggregateFunction) : List Call :=
  rules.map fun rule => ⟨function rule, rule.field⟩

/-- Calls of the rules' functions for their columns. -/
def aggregatedCalls (rules : List Rule) : List Call :=
  rules.map fun rule => ⟨rule.function, rule.column⟩

section Calls
variable {rules : List Rule}

theorem listText_fieldCalls (rules : List Rule) (function : Rule → AggregateFunction) :
    Call.listText (fieldCalls rules function) =
      ",".intercalate (rules.map fun rule => rule.rawCall (function rule)) := by
  unfold Call.listText fieldCalls
  rw [List.map_map]
  rfl

theorem ruleCalls_eq (rules : List Rule) :
    ruleCalls rules = Call.listText (fieldCalls rules Rule.function) :=
  (listText_fieldCalls rules _).symm

theorem averageCalls_eq (rules : List Rule) :
    averageCalls rules = Call.listText (fieldCalls rules fun _ => .avg) :=
  (listText_fieldCalls rules _).symm

theorem columnCalls_eq (rules : List Rule) :
    columnCalls rules = Call.listText (aggregatedCalls rules) := by
  unfold Call.listText aggregatedCalls columnCalls
  rw [List.map_map]
  rfl

theorem isPlain_fieldCalls (h : ∀ rule ∈ rules, IsPlain rule.field.toList)
    (function : Rule → AggregateFunction) :
    IsPlain (Call.listText (fieldCalls rules function)).toList := by
  apply Call.isPlain_listText
  simpa [fieldCalls] using h

theorem isPlain_aggregatedCalls (h : ∀ rule ∈ rules, IsPlain rule.field.toList) :
    IsPlain (Call.listText (aggregatedCalls rules)).toList := by
  apply Call.isPlain_listText
  simpa [aggregatedCalls] using fun rule hrule => Rule.isPlain_column (h rule hrule)

end Calls

theorem isPlain_schema {rules : List Rule} (h : ∀ rule ∈ rules, IsPlain rule.field.toList) :
    IsPlain (", ".intercalate (columns rules)).toList := by
  rw [String.toList_intercalate]
  apply isPlain_intercalate (by decide)
  intro part hpart
  simp only [columns, List.map_cons, List.map_map, List.mem_cons, List.mem_map] at hpart
  rcases hpart with rfl | ⟨rule, hrule, rfl⟩
  · decide
  · rw [Function.comp_apply, String.toList_append, isPlain_append]
    exact ⟨Rule.isPlain_column (h rule hrule), by decide⟩

theorem isPlain_seriesType {schema : String} (h : IsPlain schema.toList) :
    IsPlain (seriesType schema).toList := by
  have hopen : IsPlain "timeseries(row(".toList := by decide
  have hclose : IsPlain "))".toList := by decide
  unfold seriesType
  rw [String.toList_append, String.toList_append, isPlain_append, isPlain_append]
  exact ⟨⟨hopen, h⟩, hclose⟩

/-- The contents of the literals of a query's aggregations: the lists and calendars from the
outermost on, then the bounds of the window. A list has a call for every rule, in their order. -/
def aggregationLiterals (request : RollupRequest) : List String :=
  let bounds := [request.window.start.datetime, request.window.finish.datetime]
  match request.mode with
  | .discrete =>
    Call.listText (fieldCalls request.rules Rule.function) :: request.calendar.calendarName :: bounds
  | .continuous =>
    Call.listText (aggregatedCalls request.rules) :: request.calendar.calendarName ::
      Call.listText (fieldCalls request.rules fun _ => .avg) ::
        request.calendar.samplingBucket.calendarName :: bounds

/-- The contents of all literals of a query, of which the ids are the last. -/
def literals (request : RollupRequest) : List String :=
  request.aggregationLiterals ++ request.ids.values

end RollupRequest

namespace Text.LiteralReader

/-- A literal, and plain text behind it that ends it. -/
theorem read_literal_append (found : List String) (s : String) {plain : List Char}
    (hne : plain ≠ []) (hplain : IsPlain plain) (cs : List Char) :
    read ⟨found, .outside⟩ ((literal s).toList ++ (plain ++ cs)) =
      read ⟨found ++ [s], .outside⟩ cs := by
  obtain ⟨c, rest, rfl⟩ := List.exists_cons_of_ne_nil hne
  rw [read_append, read_literal, read_append, read_behindQuote _ _ hplain, String.ofList_toList]

/-- A list of literals, and plain text behind it that ends the last. -/
theorem read_literals_append (found values : List String) {plain : List Char}
    (hne : plain ≠ []) (hplain : IsPlain plain) :
    read ⟨found, .outside⟩ ((", ".intercalate (values.map literal)).toList ++ plain) =
      ⟨found ++ values, .outside⟩ := by
  induction values generalizing found with
  | nil => simpa using read_outside found hplain
  | cons value rest ih =>
    cases rest with
    | nil =>
      have hread := read_literal_append found value hne hplain []
      simpa using hread
    | cons next rest =>
      have hcomma : IsPlain ", ".toList := by decide
      have hread := read_literal_append found value (by simp) hcomma
        ((", ".intercalate ((next :: rest).map literal)).toList ++ plain)
      rw [ih, List.append_assoc, List.singleton_append] at hread
      simpa only [List.map_cons, String.intercalate_cons_cons, String.toList_append,
        List.append_assoc] using hread

theorem read_instant (found : List String) (t : Instant) :
    read ⟨found, .outside⟩ t.literal.toList = ⟨found ++ [t.datetime], .outside⟩ := by
  have hopen : read ⟨found, .outside⟩ "'".toList = ⟨found, .inside []⟩ := by
    simp [read, step]
  have hclose (content : List Char) : read ⟨found, .inside content⟩ "'::".toList =
      ⟨found ++ [String.ofList content], .outside⟩ := by simp [read, step]
  simp only [Instant.literal, String.toList_append, read_append, hopen,
    read_inside _ _ t.isPlain_datetime, hclose, read_outside _ Instant.isPlain_sqlType,
    List.nil_append, String.ofList_toList]

/-- The list and the calendar that an aggregation begins with. -/
theorem read_arguments (found : List String) {calls calendarName : String}
    (hcalls : IsPlain calls.toList) (hcalendar : IsPlain calendarName.toList) :
    read ⟨found, .outside⟩ ("AggregateBy('" ++ calls ++ "', '" ++ calendarName ++ "', ").toList =
      ⟨found ++ [calls, calendarName], .outside⟩ := by
  refine read_pair found ?_ hcalls hcalendar fun found content => ?_
  · simp [read, step]
  · simp [read, step]

end Text.LiteralReader

namespace RollupRequest

theorem read_rawAggregation (request : RollupRequest) (found : List String)
    {schema calls calendarName : String} (hschema : IsPlain schema.toList)
    (hcalls : IsPlain calls.toList) (hcalendar : IsPlain calendarName.toList)
    (htime : IsPlain request.timeColumn.toList) :
    LiteralReader.read ⟨found, .outside⟩
        (request.rawAggregation schema calls calendarName).toList =
      ⟨found ++ [calls, calendarName, request.window.start.datetime,
        request.window.finish.datetime], .outside⟩ := by
  have harguments := LiteralReader.read_arguments found hcalls hcalendar
  have hcomma : IsPlain ", ".toList := by decide
  have hend : IsPlain ")::".toList := by decide
  unfold rawAggregation
  simp only [String.toList_append, LiteralReader.read_append] at harguments ⊢
  rw [harguments]
  simp only [LiteralReader.read_outside _ hcomma, LiteralReader.read_outside _ htime,
    LiteralReader.read_outside _ (Numeral.isPlain_text rawFlags), LiteralReader.read_instant,
    LiteralReader.read_outside _ hend, LiteralReader.read_outside _ (isPlain_seriesType hschema),
    List.append_assoc, List.cons_append, List.nil_append]

/-- An aggregation of a series adds its own list and calendar before those of the series. -/
theorem read_seriesAggregation (found inner : List String)
    {schema calls calendarName series : String} (hschema : IsPlain schema.toList)
    (hcalls : IsPlain calls.toList) (hcalendar : IsPlain calendarName.toList)
    (hseries : ∀ found, LiteralReader.read ⟨found, .outside⟩ series.toList =
      ⟨found ++ inner, .outside⟩) :
    LiteralReader.read ⟨found, .outside⟩
        (seriesAggregation schema calls calendarName series).toList =
      ⟨found ++ calls :: calendarName :: inner, .outside⟩ := by
  have harguments := LiteralReader.read_arguments found hcalls hcalendar
  have hcomma : IsPlain ", ".toList := by decide
  have hend : IsPlain ")::".toList := by decide
  unfold seriesAggregation
  simp only [String.toList_append, LiteralReader.read_append] at harguments ⊢
  rw [harguments]
  simp only [hseries, LiteralReader.read_outside _ hcomma,
    LiteralReader.read_outside _ (Numeral.isPlain_text aggregatedFlags),
    LiteralReader.read_outside _ hend, LiteralReader.read_outside _ (isPlain_seriesType hschema),
    List.append_assoc, List.cons_append, List.nil_append]

theorem read_aggregation (request : RollupRequest) (found : List String)
    (hrules : ∀ rule ∈ request.rules, IsPlain rule.field.toList)
    (htime : IsPlain request.timeColumn.toList) :
    LiteralReader.read ⟨found, .outside⟩
        (request.selectedText (", ".intercalate (columns request.rules))).toList =
      ⟨found ++ request.aggregationLiterals, .outside⟩ := by
  have hschema := isPlain_schema hrules
  have hcalls := isPlain_fieldCalls hrules
  have hcolumns := isPlain_aggregatedCalls hrules
  have hcalendar := request.calendar.isPlain_calendarName
  unfold selectedText aggregationLiterals
  rw [ruleCalls_eq, columnCalls_eq, averageCalls_eq]
  cases request.mode with
  | discrete => exact request.read_rawAggregation found hschema (hcalls _) hcalendar htime
  | continuous =>
    exact read_seriesAggregation found _ hschema hcolumns hcalendar fun found =>
      request.read_rawAggregation found hschema (hcalls _)
        request.calendar.samplingBucket.calendar.isPlain_calendarName htime

/-- The condition on the ids, and plain text behind it. -/
theorem read_predicate_append {ids : IdFilter} {column predicate : String}
    (hpredicate : ids.predicate column = .ok predicate) (hcolumn : IsPlain column.toList)
    (found : List String) {plain : List Char} (hne : plain ≠ []) (hplain : IsPlain plain) :
    LiteralReader.read ⟨found, .outside⟩ (predicate.toList ++ plain) =
      ⟨found ++ ids.values, .outside⟩ := by
  have hequals : IsPlain " = ".toList := by decide
  have hin : IsPlain " IN (".toList := by decide
  have hclose : IsPlain (")".toList ++ plain) := isPlain_append.mpr ⟨by decide, hplain⟩
  unfold IdFilter.predicate at hpredicate
  split at hpredicate
  next => cases hpredicate
  next value hvalues =>
    cases hpredicate
    have hread := LiteralReader.read_literals_append found ids.values hne hplain
    rw [hvalues, List.map_singleton, String.intercalate_singleton] at hread
    simp only [String.toList_append, List.append_assoc]
    rw [LiteralReader.read_append, LiteralReader.read_outside _ hcolumn,
      LiteralReader.read_append, LiteralReader.read_outside _ hequals, hread, hvalues]
  next values _ _ =>
    cases hpredicate
    simp only [String.toList_append, List.append_assoc]
    rw [LiteralReader.read_append, LiteralReader.read_outside _ hcolumn,
      LiteralReader.read_append, LiteralReader.read_outside _ hin]
    exact LiteralReader.read_literals_append found ids.values (by simp) hclose

/-- The literals of a query hold exactly what was put in: no id and no field ends its literal
early, runs into another one or is altered. -/
theorem literalContents_query {request : RollupRequest} {statement : String}
    (accepted : request.query = .ok statement) (table : IsPlain request.table.toList)
    (idColumn : IsPlain request.idColumn.toList) (timeColumn : IsPlain request.timeColumn.toList) :
    literalContents statement = some request.literals := by
  obtain ⟨hcheck, predicate, hpredicate, rfl⟩ := (query_eq_ok_iff request statement).mp accepted
  obtain ⟨_, _, hrules⟩ := (checkRules_eq_ok_iff request.rules).mp hcheck
  have hselect : IsPlain "SELECT t.* FROM TABLE(TRANSPOSE((SELECT ".toList := by decide
  have hfrom : IsPlain " FROM ".toList := by decide
  have hwhere : IsPlain " WHERE ".toList := by decide
  have hend : IsPlain "))) AS tab(t);".toList := by decide
  unfold literalContents LiteralReader.start
  simp only [String.toList_append, List.append_assoc]
  rw [LiteralReader.read_append, LiteralReader.read_outside _ hselect,
    LiteralReader.read_append, read_aggregation request [] hrules timeColumn,
    LiteralReader.read_append, LiteralReader.read_outside _ hfrom,
    LiteralReader.read_append, LiteralReader.read_outside _ table,
    LiteralReader.read_append, LiteralReader.read_outside _ hwhere,
    read_predicate_append hpredicate idColumn _ (by simp) hend]
  rfl

/-- Averages over averages, for ids that are made of quotes and pieces of the query language. -/
def awkwardRequest : RollupRequest where
  table := "readings"
  idColumn := "sensor"
  ids := .many ["'", "''o'brien'", "') OR ('1' = '1", ""]
  timeColumn := "measured"
  rules := [⟨"d.temp)\"; --", .max⟩, ⟨"hum", .sum⟩]
  mode := .continuous
  calendar := SamplingBucket.oneHour.calendar
  window := ⟨⟨1704067200, 0, by decide⟩, ⟨1704088800, 250000000, by decide⟩, by decide⟩

/-- Averages are aggregated under their columns; at once, the fields are aggregated by the rules'
own functions. -/
theorem literalContents_query_awkwardRequest :
    (∃ statement, awkwardRequest.query = .ok statement ∧
      literalContents statement = some
        ["MAX($temp)\"; --_MAX),SUM($hum_SUM)", "ts_1hour", "AVG($d.temp)\"; --),AVG($hum)",
          "ts_1min", "2024-01-01 00:00:00.00000", "2024-01-01 06:00:00.25000", "'",
          "''o'brien'", "') OR ('1' = '1", ""]) ∧
    ∃ statement, RollupRequest.query { awkwardRequest with mode := .discrete } = .ok statement ∧
      literalContents statement = some
        ["MAX($d.temp)\"; --),SUM($hum)", "ts_1hour", "2024-01-01 00:00:00.00000",
          "2024-01-01 06:00:00.25000", "'", "''o'brien'", "') OR ('1' = '1", ""] := by
  have hcontinuous : awkwardRequest.query = .ok _ := rfl
  have hdiscrete : RollupRequest.query { awkwardRequest with mode := .discrete } = .ok _ := rfl
  refine ⟨⟨_, hcontinuous, ?_⟩, ⟨_, hdiscrete, ?_⟩⟩
  · rw [literalContents_query hcontinuous (by decide) (by decide) (by decide)]
    decide
  · rw [literalContents_query hdiscrete (by decide) (by decide) (by decide)]
    decide

end RollupRequest
end CalendarRollup
