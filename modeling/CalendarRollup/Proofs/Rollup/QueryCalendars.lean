import CalendarRollup.Proofs.Rollup.QueryReader
import CalendarRollup.Proofs.Text.Pieces

/-! The calendars that the aggregations of a query name, whatever is written in its literals. -/
namespace CalendarRollup
open Text Text.Reader

namespace Text.Piece

def aggregateWord : String := "AggregateBy("

/-- The literal is the first argument of an aggregation. -/
def opens (piece : Piece) : Bool := aggregateWord.toList.isSuffixOf piece.lead.toList

/-- The second arguments of the aggregations. -/
def calendars : List Piece → List String
  | calls :: calendar :: rest =>
    if calls.opens && calendar.lead == ", " then
      calendar.content :: calendars (calendar :: rest)
    else calendars (calendar :: rest)
  | _ => []

end Text.Piece

/-- The calendars that a text of the query language refers to: each aggregation stands outside of
all literals, and names its calendar in the literal after its list of calls. -/
def referredCalendars (statement : String) : List String :=
  Piece.calendars (Piece.readAll statement.toList)

example : referredCalendars "AggregateBy('AVG($t)', 'ts_1day', x) = 'AggregateBy('" =
    ["ts_1day"] := by decide +kernel

example : referredCalendars "x = 'AggregateBy(''AVG($t)'', ''ts_1day'', y)'" = [] := by
  decide +kernel

namespace Text.Piece

theorem opens_append (lead content : String) : opens ⟨lead ++ aggregateWord, content⟩ = true := by
  rw [opens, List.isSuffixOf_iff_suffix, String.toList_append]
  exact List.suffix_append _ _

/-- Nothing opens an aggregation that ends otherwise. -/
theorem opens_eq_false {ending : String} (lead content : String)
    (short : ending.toList.length ≤ aggregateWord.toList.length)
    (other : ¬ ending.toList <:+ aggregateWord.toList) :
    opens ⟨lead ++ ending, content⟩ = false := by
  rw [opens, Bool.eq_false_iff, ne_eq, List.isSuffixOf_iff_suffix, String.toList_append]
  intro hword
  exact other (List.suffix_of_suffix_length_le (List.suffix_append _ _) hword short)

theorem opens_comma (content : String) : opens ⟨", ", content⟩ = false := by
  change aggregateWord.toList.isSuffixOf ", ".toList = false
  decide

theorem calendars_cons_of_opens {calls : Piece} (opens : calls.opens = true) (name : String)
    (rest : List Piece) :
    calendars (calls :: ⟨", ", name⟩ :: rest) = name :: calendars rest := by
  cases rest with
  | nil => simp [calendars, opens]
  | cons next rest => simp [calendars, opens, opens_comma]

theorem calendars_cons_of_not {piece : Piece} (other : piece.opens = false) (rest : List Piece) :
    calendars (piece :: rest) = calendars rest := by
  cases rest with
  | nil => rfl
  | cons next rest => simp [calendars, other]

theorem calendars_of_not {pieces : List Piece} (other : ∀ piece ∈ pieces, piece.opens = false) :
    calendars pieces = [] := by
  induction pieces with
  | nil => rfl
  | cons piece pieces ih =>
    rw [calendars_cons_of_not (other piece List.mem_cons_self)]
    exact ih fun next hnext => other next (List.mem_cons_of_mem _ hnext)

end Text.Piece

theorem SamplingBucket.isPlain_calendarName (bucket : SamplingBucket) :
    IsPlain bucket.calendarName.toList :=
  bucket.calendar.isPlain_calendarName

/-- The text of a query around the identifiers, which are put in as they are. -/
structure QueryFrame where
  before : String
  between : String
  within : String
  after : String

def QueryFrame.fill (frame : QueryFrame) (timeColumn table idColumn : String) : String :=
  frame.before ++ timeColumn ++ frame.between ++ table ++ frame.within ++ idColumn ++ frame.after

namespace RollupRequest

def select : String := "SELECT t.* FROM TABLE(TRANSPOSE((SELECT "

def schema (request : RollupRequest) : String := ", ".intercalate (columns request.rules)

def aggregationOpening (calls calendarName : String) : String :=
  "AggregateBy('" ++ calls ++ "', '" ++ calendarName ++ "', "

/-- A query up to the column of the raw series. -/
def opening (request : RollupRequest) : String :=
  match request.mode with
  | .discrete =>
    select ++ aggregationOpening (ruleCalls request.rules) request.calendar.calendarName
  | .continuous =>
    select ++ aggregationOpening (columnCalls request.rules) request.calendar.calendarName ++
      aggregationOpening (averageCalls request.rules) request.calendar.samplingBucket.calendarName

/-- The types of the series, and the flags of the outer aggregation where there is one. -/
def ending (request : RollupRequest) : String :=
  match request.mode with
  | .discrete => ")::" ++ seriesType request.schema
  | .continuous =>
    ")::" ++ seriesType request.schema ++ ", " ++ Numeral.text aggregatedFlags ++ ")::" ++
      seriesType request.schema

def frame (request : RollupRequest) : QueryFrame where
  before := request.opening
  between := ", " ++ Numeral.text rawFlags ++ ", " ++ request.window.start.literal ++ ", " ++
    request.window.finish.literal ++ request.ending ++ " FROM "
  within := " WHERE "
  after := QueryReading.idsText request.ids.values ++ "))) AS tab(t);"

theorem query_eq_fill {request : RollupRequest} {statement : String}
    (accepted : request.query = .ok statement) :
    statement = request.frame.fill request.timeColumn request.table request.idColumn := by
  obtain ⟨_, predicate, hpredicate, rfl⟩ := (query_eq_ok_iff request statement).mp accepted
  obtain ⟨_, rfl⟩ := predicate_eq_ok hpredicate
  unfold selectedText QueryFrame.fill frame opening ending
  rw [← String.toList_inj]
  cases request.mode with
  | discrete =>
    dsimp only [rawAggregation, aggregationOpening, select, schema]
    simp only [String.toList_append, List.append_assoc]
  | continuous =>
    dsimp only [rawAggregation, seriesAggregation, aggregationOpening, select, schema]
    simp only [String.toList_append, List.append_assoc]

/-- The calendars of the aggregations, from the outermost on. -/
def calendarNames (request : RollupRequest) : List String :=
  match request.mode with
  | .discrete => [request.calendar.calendarName]
  | .continuous => [request.calendar.calendarName, request.calendar.samplingBucket.calendarName]

section Pieces
variable (request : RollupRequest) (timeColumn table idColumn : String)

def aggregationPieces (lead calls calendarName : String) : List Piece :=
  [⟨lead ++ Piece.aggregateWord, calls⟩, ⟨", ", calendarName⟩]

def openingPieces : List Piece :=
  match request.mode with
  | .discrete => aggregationPieces select (ruleCalls request.rules) request.calendar.calendarName
  | .continuous =>
    aggregationPieces select (columnCalls request.rules) request.calendar.calendarName ++
      aggregationPieces ", " (averageCalls request.rules)
        request.calendar.samplingBucket.calendarName

def windowPieces : List Piece :=
  [⟨", " ++ timeColumn ++ ", " ++ Numeral.text rawFlags ++ ", ", request.window.start.datetime⟩,
    ⟨"::" ++ Instant.sqlType ++ ", ", request.window.finish.datetime⟩]

def idPieces (lead : String) : List String → List Piece
  | [] => []
  | [id] => [⟨lead ++ " = ", id⟩]
  | id :: ids => ⟨lead ++ " IN (", id⟩ :: ids.map (⟨", ", ·⟩)

/-- What stands between the window and the condition on the ids. -/
def idLead : String :=
  "::" ++ Instant.sqlType ++ request.ending ++ " FROM " ++ table ++ " WHERE " ++ idColumn

def pieces : List Piece :=
  request.openingPieces ++ (request.windowPieces timeColumn ++
    idPieces (request.idLead table idColumn) request.ids.values)

def idTail : List String → String
  | [_] => "))) AS tab(t);"
  | _ => ")" ++ "))) AS tab(t);"

end Pieces

theorem toList_aggregationOpening (lead : String) {calls calendarName : String}
    (hcalls : IsPlain calls.toList) (hcalendar : IsPlain calendarName.toList) :
    (lead ++ aggregationOpening calls calendarName).toList =
      (aggregationPieces lead calls calendarName).flatMap (fun piece => piece.text.toList) ++
        ", ".toList := by
  have hopen : "AggregateBy('".toList = Piece.aggregateWord.toList ++ "'".toList := rfl
  have hbetween : "', '".toList = "'".toList ++ (", ".toList ++ "'".toList) := rfl
  have hend : "', ".toList = "'".toList ++ ", ".toList := rfl
  unfold aggregationOpening
  simp only [aggregationPieces, Piece.text, literal_of_isPlain hcalls, literal_of_isPlain hcalendar,
    String.toList_append, List.flatMap_cons, List.flatMap_nil, List.append_nil, List.append_assoc,
    hopen, hbetween, hend]

theorem toList_opening {request : RollupRequest}
    (rules : ∀ rule ∈ request.rules, IsPlain rule.field.toList) :
    request.opening.toList =
      request.openingPieces.flatMap (fun piece => piece.text.toList) ++ ", ".toList := by
  have hcalls := isPlain_fieldCalls rules
  have hcolumns := isPlain_aggregatedCalls rules
  have hcalendar := request.calendar.isPlain_calendarName
  unfold opening openingPieces
  rw [ruleCalls_eq, columnCalls_eq, averageCalls_eq]
  cases request.mode with
  | discrete => exact toList_aggregationOpening select (hcalls _) hcalendar
  | continuous =>
    dsimp only
    rw [String.toList_append, toList_aggregationOpening select hcolumns hcalendar,
      List.append_assoc, ← String.toList_append,
      toList_aggregationOpening ", " (hcalls _)
        request.calendar.samplingBucket.isPlain_calendarName,
      List.flatMap_append, List.append_assoc]

/-- A datetime as a piece, with its type behind it. -/
theorem toList_instantLiteral (t : Instant) :
    t.literal.toList = (literal t.datetime).toList ++ ("::".toList ++ Instant.sqlType.toList) := by
  have hend : "'::".toList = "'".toList ++ "::".toList := rfl
  simp only [Instant.literal, literal_of_isPlain t.isPlain_datetime, String.toList_append, hend,
    List.append_assoc]

theorem toList_ids {ids : List String} (hne : ids ≠ []) (lead : String) :
    (lead ++ QueryReading.idsText ids ++ "))) AS tab(t);").toList =
      (idPieces lead ids).flatMap (fun piece => piece.text.toList) ++ (idTail ids).toList := by
  match ids, hne with
  | [id], _ =>
    simp only [QueryReading.idsText, idPieces, idTail, Piece.text, String.toList_append,
      List.flatMap_cons, List.flatMap_nil, List.append_assoc, List.nil_append]
  | id :: next :: ids, _ =>
    simp only [QueryReading.idsText, idPieces, idTail, Piece.text, String.toList_append,
      List.flatMap_cons, List.flatMap_map, List.map_cons, toList_intercalate_cons,
      List.append_assoc]

/-- The text of a query is that of its pieces. -/
theorem toList_fill {request : RollupRequest}
    (rules : ∀ rule ∈ request.rules, IsPlain rule.field.toList) (ids : request.ids.values ≠ [])
    (timeColumn table idColumn : String) :
    (request.frame.fill timeColumn table idColumn).toList =
      (request.pieces timeColumn table idColumn).flatMap (fun piece => piece.text.toList) ++
        (idTail request.ids.values).toList := by
  have hids := toList_ids ids (request.idLead table idColumn)
  simp only [pieces, windowPieces, List.flatMap_append, List.flatMap_cons, List.flatMap_nil,
    List.append_assoc]
  rw [← hids]
  simp only [QueryFrame.fill, frame, String.toList_append, toList_opening rules,
    toList_instantLiteral, Piece.text, idLead, List.append_assoc, List.nil_append]

theorem isPlain_ending {request : RollupRequest}
    (rules : ∀ rule ∈ request.rules, IsPlain rule.field.toList) :
    IsPlain request.ending.toList := by
  have hseries := isPlain_seriesType (isPlain_schema rules)
  unfold ending
  cases request.mode with
  | discrete => simpa [schema] using hseries
  | continuous => simpa [schema] using hseries

section Pieces
variable {request : RollupRequest} {timeColumn table idColumn : String} {piece : Piece}

theorem isApart_aggregationPieces {lead calls calendarName : String} (plain : IsPlain lead.toList)
    (h : piece ∈ aggregationPieces lead calls calendarName) : piece.IsApart := by
  simp only [aggregationPieces, List.mem_cons, List.not_mem_nil, or_false] at h
  rcases h with rfl | rfl
  · simpa [Piece.IsApart, Piece.aggregateWord] using plain
  · simp [Piece.IsApart]

theorem isApart_idPieces {lead : String} {ids : List String} (plain : IsPlain lead.toList)
    (h : piece ∈ idPieces lead ids) : piece.IsApart := by
  match ids with
  | [] => cases h
  | [id] =>
    cases List.mem_singleton.mp h
    simpa [Piece.IsApart] using plain
  | id :: next :: ids =>
    simp only [idPieces, List.mem_cons, List.mem_map] at h
    rcases h with rfl | ⟨other, _, rfl⟩
    · simpa [Piece.IsApart] using plain
    · simp [Piece.IsApart]

theorem isApart_pieces (rules : ∀ rule ∈ request.rules, IsPlain rule.field.toList)
    (htime : IsPlain timeColumn.toList) (htable : IsPlain table.toList)
    (hid : IsPlain idColumn.toList) (h : piece ∈ request.pieces timeColumn table idColumn) :
    piece.IsApart := by
  simp only [pieces, windowPieces, List.mem_append, List.mem_cons, List.not_mem_nil,
    or_false] at h
  rcases h with h | (rfl | rfl) | h
  · unfold openingPieces at h
    have hselect : IsPlain select.toList := by decide
    have hcomma : IsPlain ", ".toList := by decide
    cases hmode : request.mode with
    | discrete =>
      rw [hmode] at h
      exact isApart_aggregationPieces hselect h
    | continuous =>
      rw [hmode] at h
      rcases List.mem_append.mp h with h | h
      · exact isApart_aggregationPieces hselect h
      · exact isApart_aggregationPieces hcomma h
  · simpa [Piece.IsApart] using htime
  · simp [Piece.IsApart]
  · refine isApart_idPieces ?_ h
    simpa [idLead] using ⟨isPlain_ending rules, htable, hid⟩

theorem opens_of_mem_idPieces {lead : String} {ids : List String} (h : piece ∈ idPieces lead ids) :
    piece.opens = false := by
  match ids with
  | [] => cases h
  | [id] =>
    cases List.mem_singleton.mp h
    exact Piece.opens_eq_false _ _ (by decide) (by decide)
  | id :: next :: ids =>
    simp only [idPieces, List.mem_cons, List.mem_map] at h
    rcases h with rfl | ⟨other, _, rfl⟩
    · exact Piece.opens_eq_false _ _ (by decide) (by decide)
    · exact Piece.opens_comma other

/-- Neither the window nor the ids stand behind the word of an aggregation, whatever the
identifiers are. -/
theorem opens_of_mem_rest {lead : String}
    (h : piece ∈ request.windowPieces timeColumn ++ idPieces lead request.ids.values) :
    piece.opens = false := by
  simp only [windowPieces, List.mem_append, List.mem_cons, List.not_mem_nil, or_false] at h
  rcases h with (rfl | rfl) | h
  · exact Piece.opens_eq_false _ _ (by decide) (by decide)
  · exact Piece.opens_eq_false _ _ (by decide) (by decide)
  · exact opens_of_mem_idPieces h

theorem calendars_aggregationPieces (lead calls calendarName : String) (rest : List Piece) :
    Piece.calendars (aggregationPieces lead calls calendarName ++ rest) =
      calendarName :: Piece.calendars rest :=
  Piece.calendars_cons_of_opens (Piece.opens_append lead calls) calendarName rest

theorem calendars_openingPieces (request : RollupRequest) (rest : List Piece) :
    Piece.calendars (request.openingPieces ++ rest) =
      request.calendarNames ++ Piece.calendars rest := by
  unfold openingPieces calendarNames
  cases request.mode with
  | discrete => exact calendars_aggregationPieces _ _ _ rest
  | continuous =>
    dsimp only
    rw [List.append_assoc, calendars_aggregationPieces, calendars_aggregationPieces]
    rfl

theorem calendars_rest : Piece.calendars (request.windowPieces timeColumn ++
    idPieces (request.idLead table idColumn) request.ids.values) = [] :=
  Piece.calendars_of_not fun _ h => opens_of_mem_rest h

theorem isPlain_idTail (ids : List String) : IsPlain (idTail ids).toList := by
  unfold idTail
  split <;> decide

/-- A query refers to the calendars of its request, whatever its fields and ids hold, where the
identifiers have no quotes. -/
theorem referredCalendars_query {statement : String} (accepted : request.query = .ok statement)
    (htime : IsPlain request.timeColumn.toList) (htable : IsPlain request.table.toList)
    (hid : IsPlain request.idColumn.toList) :
    referredCalendars statement = request.calendarNames := by
  obtain ⟨hcheck, _, hpredicate, _⟩ := (query_eq_ok_iff request statement).mp accepted
  obtain ⟨_, _, hrules⟩ := (checkRules_eq_ok_iff request.rules).mp hcheck
  obtain ⟨hids, _⟩ := predicate_eq_ok hpredicate
  rw [referredCalendars, query_eq_fill accepted, toList_fill hrules hids,
    Piece.readAll_flatMap (fun _ h => isApart_pieces hrules htime htable hid h)
      (isPlain_idTail _), pieces, calendars_openingPieces, calendars_rest, List.append_nil]

/-- The pieces of a query where an aggregation stands in front of the column of times. -/
def nestedPieces (request : RollupRequest) (calls name column : String) : List Piece :=
  request.openingPieces ++ (aggregationPieces ", " calls name ++ (request.windowPieces column ++
    idPieces (request.idLead request.table request.idColumn) request.ids.values))

section Nested
variable {calls name column : String}

theorem flatMap_nestedPieces (nested : request.timeColumn = aggregationOpening calls name ++ column)
    (hcalls : IsPlain calls.toList) (hname : IsPlain name.toList) :
    (request.pieces request.timeColumn request.table request.idColumn).flatMap
        (fun piece => piece.text.toList) =
      (request.nestedPieces calls name column).flatMap fun piece => piece.text.toList := by
  have hopening := toList_aggregationOpening ", " hcalls hname
  rw [String.toList_append] at hopening
  simp only [nested, nestedPieces, pieces, windowPieces, Piece.text, List.flatMap_append,
    List.flatMap_cons, String.toList_append, List.append_assoc] at hopening ⊢
  rw [← List.append_assoc ", ".toList, hopening]
  simp only [List.append_assoc]

theorem isApart_nestedPieces (rules : ∀ rule ∈ request.rules, IsPlain rule.field.toList)
    (hcolumn : IsPlain column.toList) (htable : IsPlain request.table.toList)
    (hid : IsPlain request.idColumn.toList) (h : piece ∈ request.nestedPieces calls name column) :
    piece.IsApart := by
  have hcomma : IsPlain ", ".toList := by decide
  rcases List.mem_append.mp h with h | h
  · exact isApart_pieces rules hcolumn htable hid (List.mem_append_left _ h)
  rcases List.mem_append.mp h with h | h
  · exact isApart_aggregationPieces hcomma h
  · exact isApart_pieces rules hcolumn htable hid (List.mem_append_right _ h)

/-- An aggregation in front of the column of times is an aggregation of the query. -/
theorem referredCalendars_nested {statement : String} (accepted : request.query = .ok statement)
    (nested : request.timeColumn = aggregationOpening calls name ++ column)
    (hcalls : IsPlain calls.toList) (hname : IsPlain name.toList) (hcolumn : IsPlain column.toList)
    (htable : IsPlain request.table.toList) (hid : IsPlain request.idColumn.toList) :
    referredCalendars statement = request.calendarNames ++ [name] := by
  obtain ⟨hcheck, _, hpredicate, _⟩ := (query_eq_ok_iff request statement).mp accepted
  obtain ⟨_, _, hrules⟩ := (checkRules_eq_ok_iff request.rules).mp hcheck
  obtain ⟨hids, _⟩ := predicate_eq_ok hpredicate
  rw [referredCalendars, query_eq_fill accepted, toList_fill hrules hids,
    flatMap_nestedPieces nested hcalls hname,
    Piece.readAll_flatMap (fun _ h => isApart_nestedPieces hrules hcolumn htable hid h)
      (isPlain_idTail _), nestedPieces, calendars_openingPieces, calendars_aggregationPieces,
    calendars_rest]

end Nested
end Pieces
end RollupRequest
end CalendarRollup
