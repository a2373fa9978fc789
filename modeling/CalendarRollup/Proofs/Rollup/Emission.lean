import CalendarRollup.Proofs.Json.Rendering
import CalendarRollup.Proofs.Rollup.LongerLookbacks
import CalendarRollup.Proofs.Rollup.Rows

/-! What can be read from the text of a rollup. -/
namespace CalendarRollup

namespace IdFilter

theorem distinct_toJson (ids : IdFilter) : ids.toJson.Distinct := by
  cases ids with
  | single value => exact .text value
  | many values =>
    refine .array fun item hitem => ?_
    obtain ⟨value, _, rfl⟩ := List.mem_map.mp hitem
    exact .text value

/-- A text is one id, and an array of texts is a list of ids. -/
theorem toJson_injective {ids other : IdFilter} (same : ids.toJson = other.toJson) :
    ids = other := by
  cases ids with
  | single value =>
    cases other with
    | single => exact congrArg _ (Json.text.inj same)
    | many => cases same
  | many values =>
    cases other with
    | single => cases same
    | many others =>
      have hvalues := Json.array.inj same
      exact congrArg _ (List.map_injective_iff.mpr (fun _ _ h => Json.text.inj h) hvalues)

end IdFilter

namespace RollupResult
variable {body idColumn : String} {ids : IdFilter} {result : RollupResult}

theorem distinct_of_reshapeRow {value : Json} {row : Json.Members} (distinct : value.Distinct)
    (ok : reshapeRow value = .ok row) : (Json.object row).Distinct := by
  obtain ⟨members, t, wraps, rfl⟩ := reshapeRow_eq_ok_iff.mp ok
  cases wraps
  cases distinct with
  | object keys within =>
    refine .object (Json.Members.nodup_keys_insert keys) fun member hmember => ?_
    rcases Json.Members.mem_insert hmember with h | rfl
    · exact within member h
    · exact .text _

theorem distinct_of_reshaped {values : List Json} {rows : List Json.Members}
    (reshaped : List.Forall₂ (fun value row => value.Distinct ∧ reshapeRow value = .ok row)
      values rows) : ∀ row ∈ rows, (Json.object row).Distinct := by
  induction reshaped with
  | nil => exact List.forall_mem_nil _
  | cons first _ ih => exact List.forall_mem_cons.mpr ⟨distinct_of_reshapeRow first.1 first.2, ih⟩

theorem distinct_rows (ok : ofBody body idColumn ids = .ok result) :
    Json.Distinct (.array (result.rows.map .object)) := by
  obtain ⟨values, array, rows, hrows, rfl⟩ := ofBody_eq_ok_iff.mp ok
  have hdistinct : ∀ value ∈ values, value.Distinct := by
    cases array.distinct with
    | array within => exact within
  have hboth := (List.forall₂_and_left ..).mpr ⟨hdistinct, reshapeRows_eq_ok_iff.mp hrows⟩
  exact .array (List.forall_mem_map.mpr (distinct_of_reshaped hboth))

theorem fields_of_ok (ok : ofBody body idColumn ids = .ok result) :
    result.idColumn = idColumn ∧ result.ids = ids := by
  obtain ⟨_, _, _, _, rfl⟩ := ofBody_eq_ok_iff.mp ok
  exact ⟨rfl, rfl⟩

/-- The members of a rollup as they are read: the later of two with one key stays. -/
theorem expresses_iff (ok : ofBody body idColumn ids = .ok result) (v : Json) :
    Json.Expresses result.toJson.render v ↔
      v = .object (if idColumn = "d" then [("d", .array (result.rows.map .object))]
        else [(idColumn, ids.toJson), ("d", .array (result.rows.map .object))]) := by
  obtain ⟨hcolumn, hids⟩ := fields_of_ok ok
  have hexpresses : Json.Expresses result.toJson.render _ :=
    Json.expresses_object (List.forall_mem_cons.mpr ⟨result.ids.distinct_toJson,
      List.forall_mem_singleton.mpr (distinct_rows ok)⟩)
  have hmembers (x y : Json) : Json.Members.ofPairs [(idColumn, x), ("d", y)] =
      if idColumn = "d" then [("d", y)] else [(idColumn, x), ("d", y)] := by
    by_cases h : idColumn = "d" <;> simp [Json.Members.ofPairs, Json.Members.insert, h]
  rw [hcolumn, hids, hmembers] at hexpresses
  exact ⟨fun h => h.unique hexpresses, fun h => h ▸ hexpresses⟩

theorem toJson_injective {other : RollupResult} (same : result.toJson = other.toJson) :
    result = other := by
  cases result
  cases other
  simp only [toJson, Json.object.injEq, List.cons.injEq, Prod.mk.injEq, Json.array.injEq, true_and,
    and_true] at same
  obtain ⟨⟨rfl, hids⟩, hrows⟩ := same
  cases IdFilter.toJson_injective hids
  cases List.map_injective_iff.mpr (fun _ _ h => Json.object.inj h) hrows
  rfl

/-- A rollup is recovered from its text where the ids' key is not that of the rows. -/
theorem eq_of_render (ok : ofBody body idColumn ids = .ok result) (apart : idColumn ≠ "d")
    {otherBody otherColumn : String} {otherIds : IdFilter} {other : RollupResult}
    (otherOk : ofBody otherBody otherColumn otherIds = .ok other)
    (same : other.toJson.render = result.toJson.render) : other = result := by
  have hread := (expresses_iff ok _).mp (same ▸ (expresses_iff otherOk _).mpr rfl)
  obtain ⟨rfl, rfl⟩ := fields_of_ok ok
  obtain ⟨rfl, rfl⟩ := fields_of_ok otherOk
  rw [if_neg apart] at hread
  split at hread
  next => exact absurd (congrArg List.length (Json.object.inj hread)) (by simp)
  next => exact toJson_injective hread

/-- What can be read from the text of a rollup: the ids as they were given and all rows, unless
the ids have the key of the rows. -/
theorem text_of_ofBody (ok : ofBody body idColumn ids = .ok result) :
    (idColumn ≠ "d" ↔ ∀ v, Json.Expresses result.toJson.render v ↔
      v = .object [(idColumn, ids.toJson), ("d", .array (result.rows.map .object))]) ∧
    (idColumn = "d" → ∀ v, Json.Expresses result.toJson.render v ↔
      v = .object [("d", .array (result.rows.map .object))]) ∧
    (∀ id, ids.toJson = .text id ↔ ids = .single id) ∧
    (∀ list, ids.toJson = .array (list.map .text) ↔ ids = .many list) ∧
    (idColumn ≠ "d" → ∀ otherBody otherColumn otherIds other,
      ofBody otherBody otherColumn otherIds = .ok other →
      other.toJson.render = result.toJson.render → other = result) := by
  refine ⟨⟨fun apart v => ?_, ?_⟩, fun same v => ?_, fun id => ?_, fun list => ?_, ?_⟩
  · rw [expresses_iff ok, if_neg apart]
  · rintro hread rfl
    have hmembers := (expresses_iff ok _).mp ((hread _).mpr rfl)
    exact absurd (congrArg List.length (Json.object.inj hmembers)) (by simp)
  · rw [expresses_iff ok, if_pos same]
  · exact ⟨fun h => IdFilter.toJson_injective h, fun h => h ▸ rfl⟩
  · exact ⟨fun h => IdFilter.toJson_injective h, fun h => h ▸ rfl⟩
  · exact fun apart _ _ _ _ otherOk same => eq_of_render ok apart otherOk same

/-- A row with a float. -/
def floatBody : String := "[\x7b\"timestamp\":\x7b\"$date\":0\x7d,\"x\":1.50\x7d]"

theorem text_of_ofBody_float : ∃ result,
    ofBody floatBody "sensor" (.many ["a", "b"]) = .ok result ∧
    result.toJson.render = "\x7b\"sensor\":[\"a\",\"b\"],\"d\":[" ++
      "\x7b\"timestamp\":\"1970-01-01 00:00:00\",\"x\":1.5\x7d]\x7d" ∧
    ∀ v, Json.Expresses result.toJson.render v ↔ v = .object [
      ("sensor", .array [.text "a", .text "b"]), ("d", .array (result.rows.map .object))] := by
  have hrendered : (ofBody floatBody "sensor" (.many ["a", "b"])).toOption.map (·.toJson.render) =
      some ("\x7b\"sensor\":[\"a\",\"b\"],\"d\":[" ++
        "\x7b\"timestamp\":\"1970-01-01 00:00:00\",\"x\":1.5\x7d]\x7d") := by decide +kernel
  cases hbody : ofBody floatBody "sensor" (.many ["a", "b"]) with
  | error fault =>
    rw [hbody] at hrendered
    cases hrendered
  | ok result =>
    rw [hbody] at hrendered
    exact ⟨result, rfl, Option.some_inj.mp hrendered, (text_of_ofBody hbody).1.mp (by decide)⟩

/-- Ids in the column of the rows. -/
def overlaidConfig : Config :=
  { monthlyConfig with plan := { monthlyConfig.plan with idColumn := "d" } }

/-- A valid configuration may name the column of the ids like the rows: the ids are written, and
lost on reading. -/
theorem not_text_of_ofBody : overlaidConfig.validate = .ok () ∧
    ∃ result, ofBody "[]" overlaidConfig.plan.idColumn (.single "a") = .ok result ∧
      result.toJson.render = "\x7b\"d\":\"a\",\"d\":[]\x7d" ∧
      (∀ v, Json.Expresses result.toJson.render v ↔ v = .object [("d", .array [])]) ∧
      ¬ ∃ members, Json.Expresses result.toJson.render (.object members) ∧
        members.length = 2 ∧
        Json.Members.get? members overlaidConfig.plan.idColumn = some (.text "a") ∧
        Json.Members.get? members "d" = some (.array (result.rows.map .object)) := by
  have hnone : Json.IsTextOf (.array []) "[]" :=
    (Json.Grammar.Spells.emptyArray Json.Grammar.isGap_nil).element
  have hbody : ofBody "[]" "d" (.single "a") = .ok ⟨"d", .single "a", []⟩ := by
    rw [ofBody_of_array hnone]
    rfl
  have hread := expresses_iff hbody
  refine ⟨rfl, _, hbody, by decide +kernel, hread, ?_⟩
  rintro ⟨members, hmembers, hlength, _⟩
  cases (hread _).mp hmembers
  cases hlength

end RollupResult
end CalendarRollup
