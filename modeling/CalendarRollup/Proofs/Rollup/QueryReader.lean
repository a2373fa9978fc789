import CalendarRollup.Proofs.Rollup.QueryLiterals
import CalendarRollup.Proofs.Text.Readers

/-! A reader of queries, and what it reads of the texts that queries are put together from. -/
namespace CalendarRollup
open Text Text.Reader

/-- What an aggregation of the raw rows says. -/
structure RawReading where
  calls : List Call
  calendarName : String
  timeColumn : String
  start : String
  finish : String
  columns : List String
  deriving DecidableEq, Repr

/-- What an aggregation of an aggregated series says about itself. -/
structure OuterReading where
  calls : List Call
  calendarName : String
  columns : List String
  deriving DecidableEq, Repr

/-- What a query says. -/
structure QueryReading where
  outer : Option OuterReading
  raw : RawReading
  table : String
  idColumn : String
  ids : List String
  deriving DecidableEq, Repr

namespace QueryReading

def readCall (cs : Chars) : Option (Call × Chars) := do
  let (word, cs) := name cs
  let function ← AggregateFunction.all.find? fun function => function.name == word
  let cs ← expect "($" cs
  let (argument, cs) := name cs
  let cs ← expect ")" cs
  some (⟨function, argument⟩, cs)

/-- The calls and the calendar that an aggregation begins with. -/
def readOpening (cs : Chars) : Option ((List Call × String) × Chars) := do
  let cs ← expect "AggregateBy('" cs
  let (calls, cs) ← separated "," readCall cs
  let cs ← expect "', '" cs
  let (calendarName, cs) := name cs
  let cs ← expect "', " cs
  some ((calls, calendarName), cs)

def readDatetime (cs : Chars) : Option (String × Chars) := do
  let cs ← expect "'" cs
  let (s, cs) := run (· != '\'') cs
  let cs ← expect "'::" cs
  let cs ← expect Instant.sqlType cs
  some (s, cs)

def readColumn (cs : Chars) : Option (String × Chars) := do
  let (s, cs) := name cs
  let cs ← expect " float" cs
  some (s, cs)

/-- The columns of a series, behind its timestamp. -/
def readColumns (cs : Chars) : Option (List String × Chars) := do
  let cs ← expect "timeseries(row(" cs
  let cs ← expect "timestamp " cs
  let cs ← expect Instant.sqlType cs
  let (columns, cs) := repeated (after ", " readColumn) cs.length cs
  let cs ← expect "))" cs
  some (columns, cs)

def readRaw (cs : Chars) : Option (RawReading × Chars) := do
  let ((calls, calendarName), cs) ← readOpening cs
  let (timeColumn, cs) := name cs
  let cs ← expect ", " cs
  let cs ← expect (Numeral.text RollupRequest.rawFlags) cs
  let cs ← expect ", " cs
  let (start, cs) ← readDatetime cs
  let cs ← expect ", " cs
  let (finish, cs) ← readDatetime cs
  let cs ← expect ")::" cs
  let (columns, cs) ← readColumns cs
  some (⟨calls, calendarName, timeColumn, start, finish, columns⟩, cs)

def readNested (cs : Chars) : Option ((OuterReading × RawReading) × Chars) := do
  let ((calls, calendarName), cs) ← readOpening cs
  let (raw, cs) ← readRaw cs
  let cs ← expect ", " cs
  let cs ← expect (Numeral.text RollupRequest.aggregatedFlags) cs
  let cs ← expect ")::" cs
  let (columns, cs) ← readColumns cs
  some ((⟨calls, calendarName, columns⟩, raw), cs)

def readAggregation (cs : Chars) : Option ((Option OuterReading × RawReading) × Chars) :=
  match readRaw cs with
  | some (raw, cs) => some ((none, raw), cs)
  | none => (readNested cs).map fun ((outer, raw), cs) => ((some outer, raw), cs)

/-- One id is equated, more are listed. -/
def readIds (cs : Chars) : Option (List String × Chars) :=
  match expect " = " cs with
  | some cs => (quoted cs).map fun (id, cs) => ([id], cs)
  | none => do
    let cs ← expect " IN (" cs
    let (ids, cs) ← separated ", " quoted cs
    let cs ← expect ")" cs
    some (ids, cs)

/-- Reads a query. -/
def read? (statement : String) : Option QueryReading := do
  let cs ← expect "SELECT t.* FROM TABLE(TRANSPOSE((SELECT " statement.toList
  let ((outer, raw), cs) ← readAggregation cs
  let cs ← expect " FROM " cs
  let (table, cs) := name cs
  let cs ← expect " WHERE " cs
  let (idColumn, cs) := name cs
  let (ids, cs) ← readIds cs
  let cs ← expect "))) AS tab(t);" cs
  if cs.isEmpty then some { outer, raw, table, idColumn, ids } else none

end QueryReading

namespace QueryReading

def schemaText (columns : List String) : String :=
  ", ".intercalate (("timestamp " ++ Instant.sqlType) :: columns.map (· ++ " float"))

/-- The condition on the ids, behind its column. -/
def idsText : List String → String
  | [id] => " = " ++ literal id
  | ids => " IN (" ++ ", ".intercalate (ids.map literal) ++ ")"

section Texts
variable {calls : List Call} {calendarName : String} {columns : List String} {rest : Chars}

theorem isName_functionName (function : AggregateFunction) : IsName function.name.toList := by
  cases function <;> decide

theorem find?_name (function : AggregateFunction) :
    (AggregateFunction.all.find? fun other => other.name == function.name) = some function := by
  cases function <;> decide

theorem readCall_text {call : Call} (h : IsName call.argument.toList) (rest : Chars) :
    readCall (call.text.toList ++ rest) = some (call, rest) := by
  have hopen : "($".toList = ['(', '$'] := rfl
  have hclose : ")".toList = [')'] := rfl
  simp only [Call.text, String.toList_append, List.append_assoc, readCall, name,
    run_append (isName_functionName _) hopen rfl, run_append h hclose rfl, find?_name,
    expect_append, Option.bind_eq_bind, Option.bind_some]

theorem readOpening_text (hne : calls ≠ [])
    (hcalls : ∀ call ∈ calls, IsName call.argument.toList) (hname : IsName calendarName.toList) :
    readOpening ("AggregateBy('".toList ++ ((Call.listText calls).toList ++
      ("', '".toList ++ (calendarName.toList ++ ("', ".toList ++ rest))))) =
        some ((calls, calendarName), rest) := by
  have hend : "', ".toList = ['\'', ',', ' '] := rfl
  have hlist (rest : Chars) : separated "," readCall
      ((Call.listText calls).toList ++ ("', '".toList ++ rest)) =
        some (calls, "', '".toList ++ rest) :=
    separated_intercalate hne (fun call h rest (_ : True) => readCall_text (hcalls call h) rest)
      (fun _ => trivial) trivial (expect_eq_none rfl rfl (by decide)) (by decide)
  simp only [readOpening, expect_append, hlist, name, run_append hname hend rfl,
    Option.bind_eq_bind, Option.bind_some]

theorem readDatetime_literal (t : Instant) (rest : Chars) :
    readDatetime (t.literal.toList ++ rest) = some (t.datetime, rest) := by
  have hend : "'::".toList = ['\'', ':', ':'] := rfl
  have hplain : ∀ c ∈ t.datetime.toList, (c != '\'') = true := by
    intro c hc
    have hne : c ≠ '\'' := fun h => t.isPlain_datetime (h ▸ hc)
    simpa using hne
  simp only [Instant.literal, String.toList_append, List.append_assoc, readDatetime, expect_append,
    run_append hplain hend rfl, Option.bind_eq_bind, Option.bind_some]

theorem readColumn_text {s : String} (h : IsName s.toList) (rest : Chars) :
    readColumn ((s ++ " float").toList ++ rest) = some (s, rest) := by
  have hend : " float".toList = [' ', 'f', 'l', 'o', 'a', 't'] := rfl
  simp only [String.toList_append, List.append_assoc, readColumn, name, run_append h hend rfl,
    expect_append, Option.bind_eq_bind, Option.bind_some]

theorem readColumns_text (h : ∀ s ∈ columns, IsName s.toList) (rest : Chars) :
    readColumns ((RollupRequest.seriesType (schemaText columns)).toList ++ rest) =
      some (columns, rest) := by
  have hrepeated (fuel : Nat) (enough : columns.length ≤ fuel) :
      repeated (after ", " readColumn) fuel
        ((columns.map (· ++ " float")).flatMap (fun s => ", ".toList ++ s.toList) ++
          ("))".toList ++ rest)) = (columns, "))".toList ++ rest) := by
    rw [List.flatMap_map]
    exact repeated_flatMap (fun s hs rest (_ : True) => readColumn_text (h s hs) rest)
      (fun _ => trivial) trivial (expect_eq_none rfl rfl (by decide)) fuel enough
  have henough : columns.length ≤
      ((columns.map (· ++ " float")).flatMap (fun s => ", ".toList ++ s.toList) ++
        ("))".toList ++ rest)).length := by
    have hle := length_le_flatMap (columns.map (· ++ " float"))
      (fun s (hs : ", ".toList ++ s.toList = []) => by simp at hs)
    rw [List.length_map] at hle
    rw [List.length_append]
    omega
  unfold RollupRequest.seriesType schemaText
  simp only [String.toList_append, toList_intercalate_cons, List.append_assoc, readColumns,
    expect_append, Option.bind_eq_bind, Option.bind_some] at hrepeated henough ⊢
  rw [hrepeated _ henough]
  simp only [expect_append, Option.bind_some]

theorem readRaw_text (request : RollupRequest) (hne : calls ≠ [])
    (hcalls : ∀ call ∈ calls, IsName call.argument.toList) (hname : IsName calendarName.toList)
    (htime : IsName request.timeColumn.toList) (hcolumns : ∀ s ∈ columns, IsName s.toList)
    (rest : Chars) :
    readRaw ((request.rawAggregation (schemaText columns) (Call.listText calls) calendarName).toList ++
      rest) = some (⟨calls, calendarName, request.timeColumn, request.window.start.datetime,
        request.window.finish.datetime, columns⟩, rest) := by
  have hend : ", ".toList = [',', ' '] := rfl
  unfold RollupRequest.rawAggregation
  simp only [String.toList_append, List.append_assoc, readRaw, readOpening_text hne hcalls hname,
    name, run_append htime hend rfl, expect_append, readDatetime_literal,
    readColumns_text hcolumns, Option.bind_eq_bind, Option.bind_some]

theorem readNested_text {series : String} {inner : RawReading} (hne : calls ≠ [])
    (hcalls : ∀ call ∈ calls, IsName call.argument.toList) (hname : IsName calendarName.toList)
    (hcolumns : ∀ s ∈ columns, IsName s.toList)
    (hseries : ∀ rest, readRaw (series.toList ++ rest) = some (inner, rest)) (rest : Chars) :
    readNested ((RollupRequest.seriesAggregation (schemaText columns) (Call.listText calls) calendarName
      series).toList ++ rest) = some ((⟨calls, calendarName, columns⟩, inner), rest) := by
  unfold RollupRequest.seriesAggregation
  simp only [String.toList_append, List.append_assoc, readNested,
    readOpening_text hne hcalls hname, hseries, expect_append, readColumns_text hcolumns,
    Option.bind_eq_bind, Option.bind_some]

/-- Where a series stands in place of a column, there is no aggregation of raw rows. -/
theorem readRaw_eq_none {series : String} {cs : Chars} (hne : calls ≠ [])
    (hcalls : ∀ call ∈ calls, IsName call.argument.toList) (hname : IsName calendarName.toList)
    (hseries : series.toList = "AggregateBy('".toList ++ cs) (schema : String) (rest : Chars) :
    readRaw ((RollupRequest.seriesAggregation schema (Call.listText calls) calendarName
      series).toList ++ rest) = none := by
  have hsplit : "AggregateBy('".toList = "AggregateBy".toList ++ "('".toList := rfl
  have hend : "('".toList = ['(', '\''] := rfl
  have hword : IsName "AggregateBy".toList := by decide
  have hcomma : ", ".toList = [',', ' '] := rfl
  unfold RollupRequest.seriesAggregation
  simp only [String.toList_append, List.append_assoc, hseries, readRaw,
    readOpening_text hne hcalls hname, Option.bind_eq_bind, Option.bind_some]
  simp only [hsplit, List.append_assoc, name, run_append hword hend rfl,
    expect_eq_none hcomma hend (by decide), Option.bind_none]

theorem readIds_text {ids : List String} (hne : ids ≠ []) (hrest : Unquoted rest) :
    readIds ((idsText ids).toList ++ rest) = some (ids, rest) := by
  unfold idsText
  split
  next id =>
    simp only [String.toList_append, List.append_assoc, readIds, expect_append,
      quoted_literal id hrest, Option.map_some]
  next =>
    have hnone (cs : Chars) : expect " = " (" IN (".toList ++ cs) = none := rfl
    have hclose : ∀ cs, Unquoted (")".toList ++ cs) := fun _ h => by cases h
    have hlist : separated ", " quoted
        ((", ".intercalate (ids.map literal)).toList ++ (")".toList ++ rest)) =
          some (ids, ")".toList ++ rest) :=
      separated_intercalate hne (fun id _ rest h => quoted_literal id h)
        (fun _ h => by cases h) (hclose _) (expect_eq_none rfl rfl (by decide)) (by decide)
    simp only [String.toList_append, List.append_assoc, readIds, hnone, expect_append, hlist,
      Option.bind_eq_bind, Option.bind_some]

theorem toList_idsText (ids : List String) : ∃ cs, (idsText ids).toList = ' ' :: cs := by
  unfold idsText
  split
  next id => exact ⟨_, by simp [String.toList_append]; rfl⟩
  next => exact ⟨_, by simp [String.toList_append]; rfl⟩

end Texts
end QueryReading

namespace RollupRequest

theorem predicate_eq_ok {ids : IdFilter} {column predicate : String}
    (ok : ids.predicate column = .ok predicate) :
    ids.values ≠ [] ∧ predicate = column ++ QueryReading.idsText ids.values := by
  unfold IdFilter.predicate at ok
  unfold QueryReading.idsText
  split at ok
  next => cases ok
  next value hvalues =>
    cases ok
    rw [hvalues]
    exact ⟨by simp, String.append_assoc ..⟩
  next values hempty hsingle =>
    cases ok
    refine ⟨hempty, ?_⟩
    split
    next id hid => exact absurd hid (hsingle id)
    next => simp only [String.append_assoc]

end RollupRequest
end CalendarRollup
