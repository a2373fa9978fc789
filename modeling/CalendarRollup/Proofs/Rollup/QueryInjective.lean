import CalendarRollup.Proofs.Instant.Datetimes
import CalendarRollup.Proofs.Rollup.QueryReader

/-! What a query tells of the request that it was compiled from: all of it, where fields and
identifiers are names, but for what is finer than the places of its datetimes. -/
namespace CalendarRollup
open Text Text.Reader

namespace Rule

theorem isName_column {rule : Rule} (h : IsName rule.field.toList) :
    IsName rule.column.toList := by
  have hstem : IsName (columnStem rule.field.toList) := by
    intro c hc
    obtain ⟨d, hd, rfl⟩ := List.mem_map.mp hc
    split
    next => decide
    next => exact h d (mem_of_mem_innerPath hd)
  have hunderscore : IsName "_".toList := by decide
  unfold column
  simp only [String.toList_append, String.toList_ofList, isName_append]
  exact ⟨⟨hstem, hunderscore⟩, QueryReading.isName_functionName rule.function⟩

end Rule

namespace RollupRequest

/-- What a query says of the aggregation of the raw rows. -/
def rawReading (request : RollupRequest) (function : Rule → AggregateFunction)
    (calendar : CalendarSpec) : RawReading where
  calls := fieldCalls request.rules function
  calendarName := calendar.calendarName
  timeColumn := request.timeColumn
  start := request.window.start.datetime
  finish := request.window.finish.datetime
  columns := request.rules.map Rule.column

/-- What the text of a query says: of a continuous signal, that averages over the finer buckets are
aggregated under their columns. -/
def reading (request : RollupRequest) : QueryReading where
  outer :=
    match request.mode with
    | .discrete => none
    | .continuous => some {
        calls := aggregatedCalls request.rules
        calendarName := request.calendar.calendarName
        columns := request.rules.map Rule.column }
  raw :=
    match request.mode with
    | .discrete => request.rawReading Rule.function request.calendar
    | .continuous =>
      request.rawReading (fun _ => .avg) request.calendar.samplingBucket.calendar
  table := request.table
  idColumn := request.idColumn
  ids := request.ids.values

/-- Identifiers and fields that are names. -/
structure IsNamed (request : RollupRequest) : Prop where
  table : IsName request.table.toList
  idColumn : IsName request.idColumn.toList
  timeColumn : IsName request.timeColumn.toList
  fields : ∀ rule ∈ request.rules, IsName rule.field.toList

section Reading
variable {request : RollupRequest} {statement : String}

theorem schema_eq (rules : List Rule) :
    ", ".intercalate (columns rules) = QueryReading.schemaText (rules.map Rule.column) := by
  unfold QueryReading.schemaText columns
  rw [List.map_map]
  rfl

theorem toList_rawAggregation (request : RollupRequest) (schema calls calendarName : String) :
    ∃ cs, (request.rawAggregation schema calls calendarName).toList =
      "AggregateBy('".toList ++ cs := by
  unfold rawAggregation
  simp only [String.toList_append, List.append_assoc]
  exact ⟨_, rfl⟩

theorem isName_of_mem_columns (named : request.IsNamed) :
    ∀ s ∈ request.rules.map Rule.column, IsName s.toList := by
  intro s hs
  obtain ⟨rule, hrule, rfl⟩ := List.mem_map.mp hs
  exact Rule.isName_column (named.fields rule hrule)

theorem readRaw_rawAggregation (named : request.IsNamed) (hne : request.rules ≠ [])
    (function : Rule → AggregateFunction) (calendar : CalendarSpec) (rest : Chars) :
    QueryReading.readRaw ((request.rawAggregation
      (QueryReading.schemaText (request.rules.map Rule.column))
      (Call.listText (fieldCalls request.rules function))
      calendar.calendarName).toList ++ rest) =
        some (request.rawReading function calendar, rest) := by
  have hfields : ∀ call ∈ fieldCalls request.rules function, IsName call.argument.toList := by
    intro call hcall
    obtain ⟨rule, hrule, rfl⟩ := List.mem_map.mp hcall
    exact named.fields rule hrule
  exact QueryReading.readRaw_text request (by simpa [fieldCalls] using hne) hfields
    calendar.isName_calendarName named.timeColumn (isName_of_mem_columns named) rest

theorem readAggregation_aggregation (named : request.IsNamed) (hne : request.rules ≠ [])
    (rest : Chars) :
    QueryReading.readAggregation
      ((request.selectedText (", ".intercalate (columns request.rules))).toList ++ rest) =
        some ((request.reading.outer, request.reading.raw), rest) := by
  unfold selectedText reading QueryReading.readAggregation SamplingBucket.calendarName
  rw [schema_eq]
  cases request.mode with
  | discrete =>
    simp only [ruleCalls_eq, readRaw_rawAggregation named hne]
  | continuous =>
    have hcolumns : ∀ call ∈ aggregatedCalls request.rules, IsName call.argument.toList := by
      intro call hcall
      obtain ⟨rule, hrule, rfl⟩ := List.mem_map.mp hcall
      exact Rule.isName_column (named.fields rule hrule)
    have haggregated : aggregatedCalls request.rules ≠ [] := by simpa [aggregatedCalls] using hne
    have hname := request.calendar.isName_calendarName
    have hraw := readRaw_rawAggregation named hne (fun _ => .avg)
      request.calendar.samplingBucket.calendar
    obtain ⟨_, hseries⟩ := request.toList_rawAggregation
      (QueryReading.schemaText (request.rules.map Rule.column))
      (Call.listText (fieldCalls request.rules fun _ => .avg))
      request.calendar.samplingBucket.calendar.calendarName
    simp only [averageCalls_eq, columnCalls_eq,
      QueryReading.readRaw_eq_none haggregated hcolumns hname hseries,
      QueryReading.readNested_text haggregated hcolumns hname (isName_of_mem_columns named) hraw,
      Option.map_some]

/-- What is read from a query is what it was compiled from. -/
theorem read?_query (accepted : request.query = .ok statement) (named : request.IsNamed) :
    QueryReading.read? statement = some request.reading := by
  obtain ⟨hcheck, predicate, hpredicate, rfl⟩ := (query_eq_ok_iff request statement).mp accepted
  obtain ⟨hne, _, _⟩ := (checkRules_eq_ok_iff request.rules).mp hcheck
  obtain ⟨hids, rfl⟩ := predicate_eq_ok hpredicate
  obtain ⟨cs, hidsText⟩ := QueryReading.toList_idsText request.ids.values
  have hwhere : " WHERE ".toList = [' ', 'W', 'H', 'E', 'R', 'E', ' '] := rfl
  have hend : Unquoted "))) AS tab(t);".toList := fun h => by cases h
  have hlast : expect "))) AS tab(t);" "))) AS tab(t);".toList = some [] := by
    simpa only [List.append_nil] using expect_append "))) AS tab(t);" []
  unfold QueryReading.read? name
  simp only [String.toList_append, List.append_assoc, expect_append, Option.bind_eq_bind,
    Option.bind_some]
  rw [readAggregation_aggregation named hne]
  simp only [expect_append, Option.bind_some]
  rw [run_append named.table hwhere rfl]
  simp only [expect_append, Option.bind_some]
  rw [run_append named.idColumn hidsText rfl]
  simp only
  rw [QueryReading.readIds_text hids hend, Option.bind_some, hlast]
  rfl

end Reading
end RollupRequest

/-- The rules that a query applies: where there is an outer aggregation, its functions, and the
fields of the inner one. -/
def QueryReading.rules (reading : QueryReading) : List Rule :=
  match reading.outer with
  | none => reading.raw.calls.map fun call => ⟨call.argument, call.function⟩
  | some outer =>
    List.zipWith (fun inner call => ⟨inner.argument, call.function⟩) reading.raw.calls outer.calls

/-- The calendar of the result's rows. -/
def QueryReading.calendarName (reading : QueryReading) : String :=
  match reading.outer with
  | none => reading.raw.calendarName
  | some outer => outer.calendarName

namespace RollupRequest

theorem rules_reading (request : RollupRequest) : request.reading.rules = request.rules := by
  unfold QueryReading.rules reading
  cases request.mode with
  | discrete => simp [rawReading, fieldCalls, Function.comp_def]
  | continuous =>
    simp [rawReading, fieldCalls, aggregatedCalls, List.zipWith_map, List.zipWith_self]

theorem calendarName_reading (request : RollupRequest) :
    request.reading.calendarName = request.calendar.calendarName := by
  unfold QueryReading.calendarName reading
  cases request.mode <;> rfl

theorem window_reading (request : RollupRequest) :
    request.reading.raw.start = request.window.start.datetime ∧
      request.reading.raw.finish = request.window.finish.datetime := by
  unfold reading
  cases request.mode <;> exact ⟨rfl, rfl⟩

theorem isSome_outer_reading (request : RollupRequest) :
    request.reading.outer.isSome = true ↔ request.mode = .continuous := by
  unfold reading
  cases request.mode <;> simp

theorem ids_eq_of_values {a b : IdFilter} (h : a.values = b.values) :
    a = b ∨ ∃ id, (a = .single id ∧ b = .many [id]) ∨ (a = .many [id] ∧ b = .single id) := by
  cases a with
  | single x =>
    cases b with
    | single y => exact .inl (congrArg _ (List.singleton_inj.mp h))
    | many ys => exact .inr ⟨x, .inl ⟨rfl, congrArg _ h.symm⟩⟩
  | many xs =>
    cases b with
    | single y => exact .inr ⟨y, .inr ⟨congrArg _ h, rfl⟩⟩
    | many ys => exact .inl (congrArg _ h)

/-- Averages for one id, within a window of whole hours. -/
def plainRequest : RollupRequest where
  table := "readings"
  idColumn := "sensor"
  ids := .single "a"
  timeColumn := "measured"
  rules := [⟨"d.temp", .max⟩, ⟨"hum", .sum⟩]
  mode := .continuous
  calendar := SamplingBucket.oneHour.calendar
  window := ⟨⟨1709251200, 0, by decide⟩, ⟨1709258400, 0, by decide⟩, by decide⟩

/-- The id in a list, and a window that begins some microseconds later. -/
def laterRequest : RollupRequest :=
  { plainRequest with
    ids := .many ["a"]
    window := ⟨⟨1709251200, 9999, by decide⟩, ⟨1709258400, 0, by decide⟩, by decide⟩ }

end RollupRequest
end CalendarRollup
