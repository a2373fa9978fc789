import Mathlib.Data.List.Nodup
import CalendarRollup.Proofs.Rollup.QueryInjective
import CalendarRollup.Proofs.Rollup.Rows

/-! The columns of a rollup: which rules have one column, and what becomes of their values and of
the references to it. -/
namespace CalendarRollup
open Text

theorem AggregateFunction.name_injective {a b : AggregateFunction} (h : a.name = b.name) :
    a = b := by
  have hfind := QueryReading.find?_name a
  rw [h, QueryReading.find?_name b] at hfind
  exact (Option.some_inj.mp hfind).symm

namespace Rule

/-- Two rules have one function, and one name is left of their fields: what stands in front of the
first points does not count, and underscores count as points. -/
def SharesColumn (a b : Rule) : Prop :=
  a.function = b.function ∧ columnStem a.field.toList = columnStem b.field.toList

instance (a b : Rule) : Decidable (a.SharesColumn b) := inferInstanceAs (Decidable (_ ∧ _))

/-- The first point of a path is its last character. -/
def EndsAtFirstPoint (path : List Char) : Prop := path.dropWhile (· != '.') = ['.']

instance (path : List Char) : Decidable (EndsAtFirstPoint path) :=
  inferInstanceAs (Decidable (_ = _))

section Column
variable {a b : Rule}

theorem underscore_not_mem_name (function : AggregateFunction) : '_' ∉ function.name.toList := by
  cases function <;> decide

/-- The name behind the last underscore of a text. -/
theorem takeWhile_reverse {stem name : List Char} (plain : '_' ∉ name) :
    (stem ++ '_' :: name).reverse.takeWhile (· != '_') = name.reverse := by
  have hname : ∀ c ∈ name.reverse, (c != '_') = true := by
    intro c hc
    have hne : c ≠ '_' := fun heq => plain (heq ▸ List.mem_reverse.mp hc)
    simpa using hne
  rw [List.reverse_append, List.reverse_cons, List.append_assoc,
    List.takeWhile_append_of_pos hname]
  simp

/-- The function is told by what follows the last underscore of the column. -/
theorem column_eq_iff : a.column = b.column ↔ a.SharesColumn b := by
  constructor
  · intro h
    have hchars := congrArg String.toList h
    rw [toList_column, toList_column] at hchars
    have hbehind := congrArg (fun cs : List Char => cs.reverse.takeWhile (· != '_')) hchars
    simp only [takeWhile_reverse (underscore_not_mem_name _), List.reverse_inj] at hbehind
    have hfunction := AggregateFunction.name_injective (String.toList_injective hbehind)
    rw [hbehind] at hchars
    exact ⟨hfunction, List.append_cancel_right hchars⟩
  · rintro ⟨hfunction, hstem⟩
    rw [column, hfunction, hstem, column]

theorem column_ne_timestamp (rule : Rule) : rule.column ≠ "timestamp" := by
  intro h
  have hchars := congrArg String.toList h
  rw [toList_column] at hchars
  have hmem : '_' ∈ "timestamp".toList := hchars ▸ by simp
  exact absurd hmem (by decide)

/-- Nothing is left of a path just where it ends with its first point. -/
theorem columnStem_eq_nil_iff {path : List Char} (some : path ≠ []) :
    columnStem path = [] ↔ EndsAtFirstPoint path := by
  unfold columnStem innerPath EndsAtFirstPoint
  rw [List.map_eq_nil_iff]
  have hhead := List.head?_dropWhile_not (· != '.') path
  split
  next hdrop => simp [hdrop, some]
  next c rest hdrop =>
    rw [hdrop] at hhead
    have hpoint : c = '.' := by simpa using hhead
    simp [hdrop, hpoint]

end Column
end Rule

namespace RollupRequest
open RollupResult

/-- The names of the columns of a row. -/
def columnNames (rules : List Rule) : List String := "timestamp" :: rules.map Rule.column

/-- No two rules share a column. -/
def SeparateColumns (rules : List Rule) : Prop := rules.Pairwise fun a b => ¬ a.SharesColumn b

instance (rules : List Rule) : Decidable (SeparateColumns rules) :=
  inferInstanceAs (Decidable (rules.Pairwise _))

section Columns
variable {rules : List Rule}

theorem nodup_columns_iff : (rules.map Rule.column).Nodup ↔ SeparateColumns rules := by
  unfold List.Nodup SeparateColumns
  rw [List.pairwise_map]
  simp only [ne_eq, Rule.column_eq_iff]

theorem timestamp_not_mem_columns (rules : List Rule) : "timestamp" ∉ rules.map Rule.column := by
  intro hmem
  obtain ⟨rule, _, hrule⟩ := List.mem_map.mp hmem
  exact rule.column_ne_timestamp hrule

theorem nodup_columnNames_iff : (columnNames rules).Nodup ↔ SeparateColumns rules := by
  rw [columnNames, List.nodup_cons, nodup_columns_iff]
  exact and_iff_right (timestamp_not_mem_columns rules)

/-- A row as it is written, with a date and a value for every rule. -/
def writtenMembers (rules : List Rule) (stamp : Json) (values : List Json) : Json.Members :=
  ("timestamp", stamp) :: (rules.map Rule.column).zip values

theorem keys_writtenMembers {values : List Json} (full : values.length = rules.length)
    (stamp : Json) : (writtenMembers rules stamp values).keys = columnNames rules := by
  have hzip : ((rules.map Rule.column).zip values).map Prod.fst = rules.map Rule.column :=
    List.map_fst_zip (by rw [List.length_map]; exact Nat.le_of_eq full.symm)
  simp only [Json.Members.keys, writtenMembers, List.map_cons, hzip, columnNames]

/-- A row keeps the values of all rules just where no two rules share a column. -/
theorem reshapeRow_writtenMembers_iff {date : Json} {t : Instant} {values : List Json}
    (dates : dateInstant? date = some t) (full : values.length = rules.length) :
    reshapeRow (.object (Json.Members.ofPairs
        (writtenMembers rules (.object [("$date", date)]) values))) =
      .ok (writtenMembers rules (.text t.toSecond) values) ↔ SeparateColumns rules := by
  rw [← nodup_columnNames_iff]
  constructor
  · intro h
    obtain ⟨members, other, wraps, hrow⟩ := reshapeRow_eq_ok_iff.mp h
    rw [← keys_writtenMembers full (.text t.toSecond), hrow]
    cases wraps
    exact Json.Members.nodup_keys_insert (Json.Members.nodup_keys_ofPairs _)
  · intro h
    rw [← keys_writtenMembers full (.object [("$date", date)])] at h
    rw [Json.Members.ofPairs_of_nodup h]
    refine reshapeRow_eq_ok_iff.mpr ⟨_, t, .row rfl rfl (dateInstant?_eq_some_iff.mp dates), ?_⟩
    simp [writtenMembers, Json.Members.insert]

/-- Each reference names one column just where no two rules share one. -/
theorem count_argument_iff :
    (∀ call ∈ aggregatedCalls rules, (rules.map Rule.column).count call.argument = 1) ↔
      SeparateColumns rules := by
  rw [← nodup_columns_iff, List.nodup_iff_count_eq_one]
  simp [aggregatedCalls]

end Columns

/-- The row schema of every accepted request has the timestamp and the columns of the rules, in
order, and none of these is named `timestamp`. Something is left of every field, unless it ends with
its first point. The columns are distinct, a row keeps the values of all rules, and each reference
of an outer aggregation names one column of the inner series, just where no two rules of one
function have fields of which the same is left. -/
theorem columns_distinct_iff {request : RollupRequest} {statement : String}
    (accepted : request.query = .ok statement) :
    request.rowSchema = .ok (QueryReading.schemaText (request.rules.map Rule.column)) ∧
    "timestamp" ∉ request.rules.map Rule.column ∧
    (∀ rule ∈ request.rules, Rule.columnStem rule.field.toList ≠ [] ∨
      Rule.EndsAtFirstPoint rule.field.toList) ∧
    ((columnNames request.rules).Nodup ↔ SeparateColumns request.rules) ∧
    (∀ date t values, dateInstant? date = some t → values.length = request.rules.length →
      (reshapeRow (.object (Json.Members.ofPairs
          (writtenMembers request.rules (.object [("$date", date)]) values))) =
        .ok (writtenMembers request.rules (.text t.toSecond) values) ↔
          SeparateColumns request.rules)) ∧
    ((∀ call ∈ aggregatedCalls request.rules,
      (request.rules.map Rule.column).count call.argument = 1) ↔ SeparateColumns request.rules) ∧
    (request.IsNamed → request.mode = .continuous →
      ∃ reading outer, QueryReading.read? statement = some reading ∧ reading.outer = some outer ∧
        outer.calls = aggregatedCalls request.rules ∧
        reading.raw.columns = request.rules.map Rule.column) := by
  obtain ⟨hcheck, _⟩ := (query_eq_ok_iff request statement).mp accepted
  obtain ⟨_, hblank, _⟩ := (checkRules_eq_ok_iff request.rules).mp hcheck
  refine ⟨?_, timestamp_not_mem_columns _, ?_, nodup_columnNames_iff, ?_, count_argument_iff, ?_⟩
  · rw [rowSchema, hcheck, ← schema_eq]
    rfl
  · intro rule hrule
    have hsome : rule.field.toList ≠ [] := fun hempty => by
      have hblankRule := hblank rule hrule
      simp [isAllBlank, hempty] at hblankRule
    rw [← Rule.columnStem_eq_nil_iff hsome]
    exact (Decidable.em _).symm
  · exact fun date t values dates full => reshapeRow_writtenMembers_iff dates full
  · intro named continuous
    have hread := read?_query accepted named
    unfold reading at hread
    rw [continuous] at hread
    exact ⟨_, _, hread, rfl, rfl, rfl⟩

/-- The maxima of two fields that have one name, each under another. -/
def twinRequest : RollupRequest :=
  { plainRequest with rules := [⟨"a.x", .max⟩, ⟨"b.x", .max⟩] }

theorem not_columns_distinct : ¬ ∀ (request : RollupRequest) (statement : String),
    request.query = .ok statement → (columnNames request.rules).Nodup ∧
      ∀ rule ∈ request.rules, Rule.columnStem rule.field.toList ≠ [] := by
  intro h
  have hquery : twinRequest.query = .ok _ := rfl
  have hnames : ¬ (columnNames twinRequest.rules).Nodup := by decide
  exact hnames (h twinRequest _ hquery).1

/-- One request's row keeps both of its values, the other's loses the first of two maxima. -/
theorem columns_distinct_iff_twinRequest :
    (columnNames plainRequest.rules).Nodup ∧ ¬ (columnNames twinRequest.rules).Nodup ∧
      reshapeRow (.object (Json.Members.ofPairs (writtenMembers twinRequest.rules
        (.object [("$date", .text "2024-01-01T00:00:00Z")]) [.ofNat 1, .ofNat 2]))) ≠
          .ok (writtenMembers twinRequest.rules (.text "2024-01-01 00:00:00")
            [.ofNat 1, .ofNat 2]) := by
  have hplain : plainRequest.query = .ok _ := rfl
  have htwin : twinRequest.query = .ok _ := rfl
  obtain ⟨_, _, _, hdistinct, _⟩ := columns_distinct_iff hplain
  obtain ⟨_, _, _, hshared, hrows, _⟩ := columns_distinct_iff htwin
  have hseparate : SeparateColumns plainRequest.rules := by decide
  have htogether : ¬ SeparateColumns twinRequest.rules := by decide
  have hdates : dateInstant? (.text "2024-01-01T00:00:00Z") = some _ := rfl
  exact ⟨hdistinct.mpr hseparate, mt hshared.mp htogether,
    mt (hrows _ _ [.ofNat 1, .ofNat 2] hdates rfl).mp htogether⟩

end RollupRequest
end CalendarRollup
