import CalendarRollup.Proofs.Rollup.QueryCalendars
import CalendarRollup.Proofs.Rollup.QueryInjective
import CalendarRollup.Proofs.Text.Nesting

/-! The structure of queries outside of their literals. The names of the columns stand there too, so
it depends on the fields of the rules. -/
namespace CalendarRollup
open Text Text.Reader

def aggregateCall : List Char := Piece.aggregateWord.toList

/-- The parentheses are balanced, and there is one aggregation, or there are two of which one is
within the parentheses of the other. -/
def HasShape (mode : AggregationMode) (cs : List Char) : Prop :=
  IsBalanced cs ∧
    match mode with
    | .discrete => occurrences aggregateCall cs = 1
    | .continuous => occurrences aggregateCall cs = 2 ∧ ∃ before between after,
        cs = before ++ aggregateCall ++ between ++ aggregateCall ++ after ∧ StaysAbove 0 between

/-- What a text adds to the one before it: parentheses, how far these go down on the way, and
aggregations. -/
structure Tally (cs : List Char) (sum least : Int) (calls : Nat) : Prop where
  net_eq : net cs = sum
  low_eq : low cs = least
  occurrences_eq : occurrences aggregateCall cs = calls

/-- No aggregation's word goes from one text into the other. -/
def Apart (cs ds : List Char) : Prop :=
  (∀ c ∈ cs.getLast?, c ∉ aggregateCall) ∨ ∀ d ∈ ds.head?, d ∉ aggregateCall

theorem Apart.of_last {cs ds : List Char} {c : Char} (last : cs.getLast? = some c)
    (other : c ∉ aggregateCall) : Apart cs ds := by
  refine .inl fun d hd => ?_
  cases last.symm.trans hd
  exact other

theorem Apart.of_head {cs ds : List Char} {c : Char} (head : ds.head? = some c)
    (other : c ∉ aggregateCall) : Apart cs ds := by
  refine .inr fun d hd => ?_
  cases head.symm.trans hd
  exact other

namespace Tally
variable {cs ds : List Char} {sum sum' least least' : Int} {calls calls' : Nat}

theorem append (first : Tally cs sum least calls) (second : Tally ds sum' least' calls')
    (apart : Apart cs ds) : Tally (cs ++ ds) (sum + sum') (min least (sum + least'))
      (calls + calls') where
  net_eq := by rw [net_append, first.net_eq, second.net_eq]
  low_eq := by rw [low_append, first.low_eq, first.net_eq, second.low_eq]
  occurrences_eq := by
    rw [occurrences_append apart, first.occurrences_eq, second.occurrences_eq]

theorem of_isFlat (flat : IsFlat cs) : Tally cs 0 0 0 where
  net_eq := (net_low_of_isFlat flat).1
  low_eq := (net_low_of_isFlat flat).2
  occurrences_eq := occurrences_eq_zero (by decide) flat.1

theorem of_isName (h : IsName cs) : Tally cs 0 0 0 := by
  refine of_isFlat ⟨fun hopen => ?_, fun hclose => ?_⟩
  · exact absurd (h _ hopen) (by decide)
  · exact absurd (h _ hclose) (by decide)

end Tally

namespace RollupRequest

/-- The fields of the rules as far as they are in the names of columns. -/
def columnStems (rules : List Rule) : List Char :=
  rules.flatMap fun rule => Rule.columnStem rule.field.toList

/-- How many parentheses are open where the first column is named that a rule has. -/
def openAround : AggregationMode → Int
  | .discrete => 5
  | .continuous => 6

def aggregations : AggregationMode → Nat
  | .discrete => 1
  | .continuous => 2

section Outline
variable (mode : AggregationMode) (rules : List Rule)

def aggregationText (lead : String) : List Char :=
  lead.toList ++ (aggregateCall ++ "'', ''".toList)

/-- A query up to the column of the raw series. -/
def callText : List Char :=
  match mode with
  | .discrete => aggregationText select ++ ", ".toList
  | .continuous => aggregationText select ++ (aggregationText ", " ++ ", ".toList)

/-- What stands before the first column that is named after a rule. -/
def rowOpening : String := ")::timeseries(row(timestamp " ++ Instant.sqlType

def windowText : List Char :=
  (", " ++ Numeral.text rawFlags ++ ", ''::").toList ++ (Instant.sqlType.toList ++
    (", ''::".toList ++ (Instant.sqlType.toList ++ rowOpening.toList)))

def columnText : List Char :=
  rules.flatMap fun rule => ", ".toList ++ (rule.column ++ " float").toList

/-- From the columns of the inner series to those of the outer one. -/
def betweenText : List Char :=
  (")), " ++ Numeral.text aggregatedFlags).toList ++ rowOpening.toList

def columnsText : List Char :=
  match mode with
  | .discrete => columnText rules
  | .continuous => columnText rules ++ (betweenText ++ columnText rules)

/-- What follows the id column. Each id in a list but the first is behind a comma. -/
def idsText : List String → List Char
  | [_] => " = ''".toList ++ "))) AS tab(t);".toList
  | ids => " IN (''".toList ++ (ids.tail.flatMap (fun _ => ", ''".toList) ++
      ")))) AS tab(t);".toList)

/-- A query without the contents of its literals. -/
def outline (request : RollupRequest) : List Char :=
  callText request.mode ++ (request.timeColumn.toList ++ (windowText ++
    (columnsText request.mode request.rules ++ (")) FROM ".toList ++ (request.table.toList ++
      (" WHERE ".toList ++ (request.idColumn.toList ++ idsText request.ids.values)))))))

end Outline

section Accepted
variable {request : RollupRequest} {statement : String}

theorem flatMap_idPieces {ids : List String} (hne : ids ≠ []) (lead : String) :
    (idPieces lead ids).flatMap Piece.emptied ++ (idTail ids).toList =
      lead.toList ++ idsText ids := by
  have hsingle : " = ''".toList = " = ".toList ++ "''".toList := rfl
  have hlist : " IN (''".toList = " IN (".toList ++ "''".toList := rfl
  have hcomma : ", ''".toList = ", ".toList ++ "''".toList := rfl
  have hclose : ")))) AS tab(t);".toList = ")".toList ++ "))) AS tab(t);".toList := rfl
  match ids, hne with
  | [id], _ =>
    simp only [idPieces, idTail, idsText, Piece.emptied, List.flatMap_cons, List.flatMap_nil,
      String.toList_append, List.append_assoc, List.nil_append, hsingle]
  | id :: next :: ids, _ =>
    simp only [idPieces, idTail, idsText, Piece.emptied, List.flatMap_cons, List.flatMap_map,
      List.map_cons, List.tail_cons, String.toList_append, List.append_assoc, hlist, hcomma, hclose]

theorem toList_schema (rules : List Rule) :
    (", ".intercalate (columns rules)).toList =
      ("timestamp " ++ Instant.sqlType).toList ++ columnText rules := by
  rw [columns, toList_intercalate_cons, List.flatMap_map]
  rfl

theorem toList_ending (request : RollupRequest) :
    request.ending.toList =
      rowOpening.toList ++ (columnsText request.mode request.rules ++ "))".toList) := by
  unfold ending columnsText betweenText rowOpening schema seriesType
  cases request.mode with
  | discrete =>
    simp only [String.toList_append, toList_schema, List.append_assoc]
    rfl
  | continuous =>
    simp only [String.toList_append, toList_schema, List.append_assoc]
    rfl

theorem flatMap_aggregationPieces (lead calls calendarName : String) :
    (aggregationPieces lead calls calendarName).flatMap Piece.emptied = aggregationText lead := by
  have hgaps : "'', ''".toList = "''".toList ++ (", ".toList ++ "''".toList) := rfl
  simp only [aggregationPieces, Piece.emptied, aggregationText, aggregateCall, List.flatMap_cons,
    List.flatMap_nil, List.append_nil, String.toList_append, List.append_assoc, hgaps]

theorem flatMap_openingPieces (request : RollupRequest) (rest : List Char) :
    request.openingPieces.flatMap Piece.emptied ++ (", ".toList ++ rest) =
      callText request.mode ++ rest := by
  unfold openingPieces callText
  cases request.mode with
  | discrete => simp only [flatMap_aggregationPieces, List.append_assoc]
  | continuous =>
    simp only [List.flatMap_append, flatMap_aggregationPieces, List.append_assoc]

theorem withoutContents_query (accepted : request.query = .ok statement)
    (htime : IsPlain request.timeColumn.toList) (htable : IsPlain request.table.toList)
    (hid : IsPlain request.idColumn.toList) :
    withoutContents statement.toList = request.outline := by
  obtain ⟨hcheck, _, hpredicate, _⟩ := (query_eq_ok_iff request statement).mp accepted
  obtain ⟨_, _, hrules⟩ := (checkRules_eq_ok_iff request.rules).mp hcheck
  obtain ⟨hids, _⟩ := predicate_eq_ok hpredicate
  rw [query_eq_fill accepted, toList_fill hrules hids,
    withoutContents_flatMap (fun _ h => isApart_pieces hrules htime htable hid h)
      (isPlain_idTail _)]
  have hclosing : ")) FROM ".toList = "))".toList ++ " FROM ".toList := rfl
  have hgap : ", ''::".toList = ", ".toList ++ ("''".toList ++ "::".toList) := rfl
  rw [pieces, List.flatMap_append, List.flatMap_append, List.append_assoc, List.append_assoc,
    flatMap_idPieces hids (request.idLead request.table request.idColumn)]
  simp only [windowPieces, List.flatMap_cons, List.flatMap_nil, Piece.emptied, idLead,
    String.toList_append, List.append_assoc, flatMap_openingPieces, toList_ending, outline,
    windowText, List.nil_append, hclosing, hgap]

end Accepted

section Tallies
variable {rules : List Rule}

/-- How often the word of an aggregation stands in the names of columns. -/
def stemCalls : List Rule → Nat
  | [] => 0
  | rule :: rules =>
    occurrences aggregateCall (Rule.columnStem rule.field.toList) + stemCalls rules

theorem stemCalls_eq_zero_iff : stemCalls rules = 0 ↔
    ∀ rule ∈ rules, ¬ aggregateCall <:+: Rule.columnStem rule.field.toList := by
  have hsome : aggregateCall ≠ [] := by decide
  induction rules with
  | nil => simp [stemCalls]
  | cons rule rules ih =>
    rw [stemCalls, Nat.add_eq_zero_iff, occurrences_eq_zero_iff hsome, List.forall_mem_cons]
    exact and_congr_right fun _ => ih

theorem tally_aggregationText {lead : String} {sum least : Int}
    (h : Tally lead.toList sum least 0) (apart : Apart lead.toList (aggregateCall ++ "'', ''".toList)) :
    Tally (aggregationText lead) (sum + 1) (min least (sum + 0)) 1 := by
  have hcall : Tally aggregateCall 1 0 1 := ⟨by decide, by decide, by decide⟩
  have hgaps : Tally "'', ''".toList 0 0 0 := .of_isFlat (by decide)
  exact h.append (hcall.append hgaps (.of_head rfl (by decide))) apart

/-- The calls open all parentheses but one of those that are open around the columns. -/
theorem tally_callText (mode : AggregationMode) :
    Tally (callText mode) (openAround mode - 1) 0 (aggregations mode) := by
  have hselect : Tally select.toList 3 0 0 :=
    ⟨by decide +kernel, by decide +kernel, by decide +kernel⟩
  have hcomma : Tally ", ".toList 0 0 0 := .of_isFlat (by decide)
  have houter := tally_aggregationText hselect (.of_last rfl (by decide))
  cases mode with
  | discrete => exact houter.append hcomma (.of_head rfl (by decide))
  | continuous =>
    have hinner := tally_aggregationText hcomma (.of_last rfl (by decide))
    exact houter.append (hinner.append hcomma (.of_head rfl (by decide)))
      (.of_head rfl (by decide))

theorem tally_sqlType : Tally Instant.sqlType.toList 0 0 0 :=
  ⟨by decide +kernel, by decide +kernel, by decide +kernel⟩

theorem tally_rowOpening : Tally rowOpening.toList 1 (-1) 0 := by
  have hrow : Tally ")::timeseries(row(timestamp ".toList 1 (-1) 0 :=
    ⟨by decide +kernel, by decide +kernel, by decide +kernel⟩
  have hsplit : rowOpening.toList =
      ")::timeseries(row(timestamp ".toList ++ Instant.sqlType.toList := by
    unfold rowOpening
    exact String.toList_append
  have hall := hrow.append tally_sqlType (.of_last rfl (by decide))
  rw [hsplit]
  exact hall

theorem tally_windowText : Tally windowText 1 (-1) 0 := by
  have hflags : Tally (", " ++ Numeral.text rawFlags ++ ", ''::").toList 0 0 0 :=
    .of_isFlat (by decide +kernel)
  have hgap : Tally ", ''::".toList 0 0 0 := .of_isFlat (by decide)
  exact hflags.append (tally_sqlType.append (hgap.append (tally_sqlType.append tally_rowOpening
    (.of_last rfl (by decide))) (.of_last rfl (by decide))) (.of_last rfl (by decide)))
    (.of_last rfl (by decide))

theorem tally_betweenText : Tally betweenText (-1) (-3) 0 := by
  have hflags : Tally (")), " ++ Numeral.text aggregatedFlags).toList (-2) (-2) 0 :=
    ⟨by decide +kernel, by decide +kernel, by decide +kernel⟩
  exact hflags.append tally_rowOpening (.of_last rfl (by decide))

theorem apart_columnText (rules : List Rule) (cs : List Char) : Apart cs (columnText rules) := by
  cases rules with
  | nil => exact .inr fun _ hd => by cases hd
  | cons rule rules => exact .of_head rfl (by decide)

/-- Of the names of columns only what is left of the fields can have parentheses. -/
theorem tally_columnText (rules : List Rule) : Tally (columnText rules)
    (net (columnStems rules)) (low (columnStems rules)) (stemCalls rules) := by
  induction rules with
  | nil => exact ⟨rfl, rfl, rfl⟩
  | cons rule rules ih =>
    have hstem : Tally (Rule.columnStem rule.field.toList) _ _ _ := ⟨rfl, rfl, rfl⟩
    have hname : Tally ('_' :: rule.function.name.toList ++ " float".toList) 0 0 0 := by
      cases rule.function <;> exact .of_isFlat (by decide)
    have hcomma : Tally ", ".toList 0 0 0 := .of_isFlat (by decide)
    have hentry := (hcomma.append (hstem.append hname (.of_head rfl (by decide)))
      (.of_last rfl (by decide))).append ih (apart_columnText rules _)
    have hsplit : columnText (rule :: rules) = (", ".toList ++ (Rule.columnStem rule.field.toList ++
        ('_' :: rule.function.name.toList ++ " float".toList))) ++ columnText rules := by
      simp only [columnText, List.flatMap_cons, String.toList_append, Rule.toList_column,
        List.append_assoc]
    rw [hsplit]
    have hlow := low_nonpos (Rule.columnStem rule.field.toList)
    have hnet := low_le_net (Rule.columnStem rule.field.toList)
    refine ⟨hentry.net_eq.trans ?_, hentry.low_eq.trans ?_, hentry.occurrences_eq.trans ?_⟩
    · simp only [columnStems, List.flatMap_cons, net_append]
      omega
    · simp only [columnStems, List.flatMap_cons, low_append]
      omega
    · simp only [stemCalls]
      omega

/-- The series of a continuous signal have the columns twice, one parenthesis less deep the second
time. -/
theorem tally_columnsText (rules : List Rule) : Tally (columnsText .continuous rules)
    (2 * net (columnStems rules) - 1)
    (min (low (columnStems rules)) (net (columnStems rules) - 1 +
      min (-2) (low (columnStems rules)))) (2 * stemCalls rules) := by
  have hcolumns := tally_columnText rules
  have hseries := hcolumns.append (tally_betweenText.append hcolumns (apart_columnText rules _))
    (.of_head rfl (by decide))
  refine ⟨hseries.net_eq.trans ?_, hseries.low_eq.trans ?_, hseries.occurrences_eq.trans ?_⟩
  all_goals omega

theorem apart_idsText (cs : List Char) (ids : List String) : Apart cs (idsText ids) := by
  unfold idsText
  split
  next => exact .of_head rfl (by decide)
  next => exact .of_head rfl (by decide)

theorem tally_idsText (ids : List String) : Tally (idsText ids) (-3) (-3) 0 := by
  unfold idsText
  split
  next =>
    have hsingle : Tally " = ''".toList 0 0 0 := .of_isFlat (by decide)
    have hclosing : Tally "))) AS tab(t);".toList (-3) (-3) 0 :=
      ⟨by decide, by decide, by decide⟩
    exact hsingle.append hclosing (.of_head rfl (by decide))
  next =>
    have hopening : Tally " IN (''".toList 1 0 0 := ⟨by decide, by decide, by decide⟩
    have hothers : IsFlat (ids.tail.flatMap fun _ => ", ''".toList) := by
      have hflat : IsFlat ", ''".toList := by decide
      simp only [IsFlat, List.mem_flatMap, not_exists, not_and]
      exact ⟨fun _ _ => hflat.1, fun _ _ => hflat.2⟩
    have hclosing : Tally ")))) AS tab(t);".toList (-4) (-4) 0 :=
      ⟨by decide, by decide, by decide⟩
    exact hopening.append ((Tally.of_isFlat hothers).append hclosing
      (.of_head rfl (by decide))) (.of_last rfl (by decide))

/-- What follows the columns closes all that can be open around them. -/
theorem tally_outline {request : RollupRequest} {sum least : Int} {calls : Nat}
    (htime : IsName request.timeColumn.toList) (htable : IsName request.table.toList)
    (hid : IsName request.idColumn.toList)
    (columns : Tally (columnsText request.mode request.rules) sum least calls) :
    Tally request.outline (openAround request.mode + sum - 5)
      (min (openAround request.mode + least) (min 0 (openAround request.mode + sum - 5)))
      (aggregations request.mode + calls) := by
  have hclosing : Tally ")) FROM ".toList (-2) (-2) 0 := ⟨by decide, by decide, by decide⟩
  have hwhere : Tally " WHERE ".toList 0 0 0 := .of_isFlat (by decide)
  have hrest := hclosing.append ((Tally.of_isName htable).append (hwhere.append
    ((Tally.of_isName hid).append (tally_idsText request.ids.values) (apart_idsText ..))
      (.of_last rfl (by decide))) (.of_head rfl (by decide))) (.of_last rfl (by decide))
  have hcalls : Apart (callText request.mode) (request.timeColumn.toList ++ (windowText ++
      (columnsText request.mode request.rules ++ (")) FROM ".toList ++ (request.table.toList ++
        (" WHERE ".toList ++ (request.idColumn.toList ++ idsText request.ids.values))))))) := by
    cases request.mode
    all_goals exact .of_last rfl (by decide)
  have hopen : 2 ≤ openAround request.mode := by cases request.mode <;> decide
  have hall := (tally_callText request.mode).append ((Tally.of_isName htime).append
    (tally_windowText.append (columns.append hrest (.of_head rfl (by decide)))
      (.of_last rfl (by decide))) (.of_head rfl (by decide))) hcalls
  refine ⟨hall.net_eq.trans ?_, hall.low_eq.trans ?_, hall.occurrences_eq.trans ?_⟩
  all_goals omega

/-- The second aggregation of a continuous query stands among the arguments of the first. -/
theorem nested_outline {request : RollupRequest} (continuous : request.mode = .continuous) :
    ∃ before between after, request.outline =
      before ++ aggregateCall ++ between ++ aggregateCall ++ after ∧ StaysAbove 0 between := by
  have hsplit : ∃ after, request.outline = select.toList ++ (aggregateCall ++
      ("'', ''".toList ++ (", ".toList ++ (aggregateCall ++ after)))) := by
    simp only [outline, continuous, callText, aggregationText, List.append_assoc]
    exact ⟨_, rfl⟩
  obtain ⟨after, hsplit⟩ := hsplit
  refine ⟨select.toList, "'', ''".toList ++ ", ".toList, after, ?_, staysAbove_iff.mpr (by decide)⟩
  simp only [hsplit, List.append_assoc]

/-- The structure of a query stands and falls with what is left of the fields. -/
theorem hasShape_outline_iff {request : RollupRequest} (htime : IsName request.timeColumn.toList)
    (htable : IsName request.table.toList) (hid : IsName request.idColumn.toList) :
    HasShape request.mode request.outline ↔
      (∀ rule ∈ request.rules, ¬ aggregateCall <:+: Rule.columnStem rule.field.toList) ∧
      net (columnStems request.rules) = 0 ∧ StaysAbove (-5) (columnStems request.rules) := by
  have houtline := @tally_outline request
  unfold HasShape
  rw [← stemCalls_eq_zero_iff, staysAbove_iff, isBalanced_iff]
  cases hmode : request.mode with
  | discrete =>
    have hcolumns := tally_columnText request.rules
    rw [hmode] at houtline
    obtain ⟨hnet, hlow, hcalls⟩ := houtline htime htable hid hcolumns
    simp only [hnet, hlow, hcalls, openAround, aggregations]
    omega
  | continuous =>
    have hcolumns := tally_columnsText request.rules
    rw [hmode] at houtline
    obtain ⟨hnet, hlow, hcalls⟩ := houtline htime htable hid hcolumns
    simp only [hnet, hlow, hcalls, openAround, aggregations, nested_outline hmode, and_true]
    omega

end Tallies

/-- Where the identifiers are names, the text outside of the literals has its structure just where
what is left of the fields has no aggregation in it and closes all parentheses that it opens, and of
those around the columns no more than five. It does where the names of columns have no parentheses.
The ids do not matter. -/
theorem hasShape_iff {request : RollupRequest} {statement : String}
    (accepted : request.query = .ok statement) (htime : IsName request.timeColumn.toList)
    (htable : IsName request.table.toList) (hid : IsName request.idColumn.toList) :
    (HasShape request.mode (withoutContents statement.toList) ↔
      (∀ rule ∈ request.rules, ¬ aggregateCall <:+: Rule.columnStem rule.field.toList) ∧
      net (columnStems request.rules) = 0 ∧ StaysAbove (-5) (columnStems request.rules)) ∧
    ((∀ rule ∈ request.rules, IsFlat (Rule.columnStem rule.field.toList)) →
      HasShape request.mode (withoutContents statement.toList)) := by
  have hshape := hasShape_outline_iff htime htable hid
  rw [withoutContents_query accepted (isPlain_of_isName htime) (isPlain_of_isName htable)
    (isPlain_of_isName hid)]
  refine ⟨hshape, fun flat => hshape.mpr ?_⟩
  have hstems : IsFlat (columnStems request.rules) := by
    simp only [columnStems, IsFlat, List.mem_flatMap, not_exists, not_and]
    exact ⟨fun rule hrule => (flat rule hrule).1, fun rule hrule => (flat rule hrule).2⟩
  obtain ⟨hnet, hlow⟩ := net_low_of_isFlat hstems
  refine ⟨fun rule hrule hword => ?_, hnet, staysAbove_iff.mpr (by omega)⟩
  exact (flat rule hrule).1 (List.IsInfix.subset hword (by decide))

/-- The average of a field that closes a parenthesis and goes on without a quote. -/
def closingRequest : RollupRequest :=
  { plainRequest with rules := [⟨"d.temp) FROM secrets --", .avg⟩], mode := .discrete }

theorem not_hasShape : ¬ ∀ (request : RollupRequest) (statement : String),
    request.query = .ok statement → IsName request.timeColumn.toList →
      IsName request.table.toList → IsName request.idColumn.toList →
        HasShape request.mode (withoutContents statement.toList) := by
  intro h
  have hquery : closingRequest.query = .ok _ := rfl
  have htime : IsName closingRequest.timeColumn.toList := by decide
  have htable : IsName closingRequest.table.toList := by decide
  have hid : IsName closingRequest.idColumn.toList := by decide
  have hshape := h closingRequest _ hquery htime htable hid
  rw [withoutContents_query hquery (isPlain_of_isName htime) (isPlain_of_isName htable)
    (isPlain_of_isName hid), hasShape_outline_iff htime htable hid] at hshape
  exact absurd hshape.2.1 (by decide)

theorem hasShape_iff_closingRequest :
    (∃ statement, plainRequest.query = .ok statement ∧
      HasShape .continuous (withoutContents statement.toList)) ∧
    ∃ statement, closingRequest.query = .ok statement ∧
      ¬ HasShape .discrete (withoutContents statement.toList) := by
  have hplain : plainRequest.query = .ok _ := rfl
  have hclosing : closingRequest.query = .ok _ := rfl
  have hkept := hasShape_iff hplain (by decide) (by decide) (by decide)
  have hlost := hasShape_iff hclosing (by decide) (by decide) (by decide)
  refine ⟨⟨_, hplain, hkept.2 (by decide)⟩, _, hclosing, fun hshape => ?_⟩
  exact absurd (hlost.1.mp hshape).2.1 (by decide)

end RollupRequest
end CalendarRollup
