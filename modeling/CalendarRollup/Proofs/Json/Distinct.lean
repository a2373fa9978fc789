import CalendarRollup.Proofs.Json.Grammar

/-! Objects whose keys are distinct: all that a text spells, at every depth. -/
namespace CalendarRollup.Json

namespace Members
variable {members : Members} {key : String} {value : Json}

theorem map_of_not_mem (absent : key ∉ members.keys) :
    members.map (fun member => (member.1, if member.1 = key then value else member.2)) =
      members := by
  calc members.map (fun member => (member.1, if member.1 = key then value else member.2))
    _ = members.map id := List.map_congr_left fun member hmember => by
        have hother : member.1 ≠ key := by
          rintro rfl
          exact absent (List.mem_map_of_mem hmember)
        simp [hother]
    _ = members := List.map_id _

/-- Among distinct keys, a new value for one of them is a change at its place. -/
theorem insert_eq_map (nodup : members.keys.Nodup) (there : key ∈ members.keys) :
    members.insert key value =
      members.map fun member => (member.1, if member.1 = key then value else member.2) := by
  induction members with
  | nil => cases there
  | cons member rest ih =>
    obtain ⟨k, v⟩ := member
    obtain ⟨hnew, hrest⟩ := List.nodup_cons.mp (nodup : (k :: keys rest).Nodup)
    by_cases hk : k = key
    · subst hk
      simp [insert, map_of_not_mem hnew]
    · have hthere := (List.mem_cons.mp there).resolve_left fun h => hk h.symm
      simp [insert, hk, ih hrest hthere]

theorem nodup_keys_filter (keep : String × Json → Bool) (nodup : members.keys.Nodup) :
    (Members.keys (members.filter keep)).Nodup :=
  nodup.sublist (List.filter_sublist.map Prod.fst)

theorem insert_of_not_mem (absent : key ∉ members.keys) :
    members.insert key value = members ++ [(key, value)] := by
  induction members with
  | nil => rfl
  | cons member rest ih =>
    obtain ⟨k, v⟩ := member
    obtain ⟨hk, hrest⟩ := not_or.mp (mt List.mem_cons.mpr absent)
    simp [insert, Ne.symm hk, ih hrest]

theorem get?_insert_self (members : Members) (key : String) (value : Json) :
    (members.insert key value).get? key = some value := by
  induction members with
  | nil => simp [insert, get?]
  | cons member rest ih =>
    obtain ⟨k, v⟩ := member
    simp only [get?] at ih
    by_cases hk : k = key
    · simp [insert, hk, get?]
    · simp [insert, hk, get?, ih]

/-- Members with distinct keys are those of an object as they are written. -/
theorem ofPairs_of_nodup (nodup : members.keys.Nodup) : ofPairs members = members := by
  suffices hfold : ∀ before : Members, (keys (before ++ members)).Nodup →
      members.foldl (fun found p => Members.insert found p.1 p.2) before = before ++ members from
    hfold [] nodup
  induction members with
  | nil => simp
  | cons member rest ih =>
    obtain ⟨k, v⟩ := member
    intro before hnodup
    have hnew : k ∉ keys before := by
      intro hk
      have hsplit : keys (before ++ (k, v) :: rest) = keys before ++ k :: keys rest := by
        simp [keys]
      rw [hsplit] at hnodup
      exact (List.nodup_append.mp hnodup).2.2 k hk k List.mem_cons_self rfl
    rw [List.foldl_cons, insert_of_not_mem hnew, ih (List.nodup_cons.mp nodup).2,
      List.append_assoc, List.singleton_append]
    simpa using hnodup

theorem mem_insert {member : String × Json} (h : member ∈ members.insert key value) :
    member ∈ members ∨ member = (key, value) := by
  induction members with
  | nil => exact .inr (List.mem_singleton.mp h)
  | cons first rest ih =>
    obtain ⟨k, v⟩ := first
    simp only [insert] at h
    split at h
    next hk =>
      rcases List.mem_cons.mp h with rfl | h
      · exact .inr (by rw [hk])
      · exact .inl (List.mem_cons_of_mem _ h)
    next =>
      rcases List.mem_cons.mp h with rfl | h
      · exact .inl List.mem_cons_self
      · exact (ih h).imp_left (List.mem_cons_of_mem _)

end Members

/-- No object has a key twice, however deep it lies. -/
inductive Distinct : Json → Prop
  | null : Distinct .null
  | bool (value : Bool) : Distinct (.bool value)
  | number (value : Number) : Distinct (.number value)
  | text (value : String) : Distinct (.text value)
  | array {items : List Json} (within : ∀ item ∈ items, Distinct item) : Distinct (.array items)
  | object {members : List (String × Json)} (keys : (Members.keys members).Nodup)
    (within : ∀ member ∈ members, Distinct member.2) : Distinct (.object members)

/-- Whatever the members that are written, those of the object have distinct keys. -/
theorem distinct_ofPairs {pairs : List (String × Json)} (within : ∀ pair ∈ pairs, Distinct pair.2) :
    Distinct (.object (Members.ofPairs pairs)) := by
  suffices hfold : ∀ members : Members, (∀ member ∈ members, Distinct member.2) →
      ∀ member ∈ pairs.foldl (fun members p => Members.insert members p.1 p.2) members,
        Distinct member.2 from
    .object (Members.nodup_keys_ofPairs pairs) (hfold [] (by simp))
  induction pairs with
  | nil => exact fun _ distinct => distinct
  | cons pair rest ih =>
    intro members distinct
    refine ih (fun other h => within other (List.mem_cons_of_mem _ h)) _ fun member h => ?_
    rcases Members.mem_insert h with h | rfl
    · exact distinct member h
    · exact within pair List.mem_cons_self

namespace Grammar
variable {reading : Parser.Token → Number → Prop}

mutual

theorem Spells.distinct : ∀ {depth : Nat} {v : Json} {cs : Parser.Chars},
    Spells reading depth v cs → v.Distinct
  | _, _, _, .null => .null
  | _, _, _, .isTrue => .bool true
  | _, _, _, .isFalse => .bool false
  | _, _, _, .number _ _ => .number _
  | _, _, _, .text _ => .text _
  | _, _, _, .emptyArray _ => .array (List.forall_mem_nil _)
  | _, _, _, .array items => .array items.distinct
  | _, _, _, .emptyObject _ => .object .nil (List.forall_mem_nil _)
  | _, _, _, .object pairs => distinct_ofPairs pairs.distinct

/-- The value of a text has distinct keys throughout. -/
theorem SpellsElement.distinct : ∀ {depth : Nat} {v : Json} {cs : Parser.Chars},
    SpellsElement reading depth v cs → v.Distinct
  | _, _, _, .around _ value _ => value.distinct

theorem SpellsItems.distinct : ∀ {depth : Nat} {vs : List Json} {cs : Parser.Chars},
    SpellsItems reading depth vs cs → ∀ v ∈ vs, v.Distinct
  | _, _, _, .one element => List.forall_mem_singleton.mpr element.distinct
  | _, _, _, .more element others => List.forall_mem_cons.mpr ⟨element.distinct, others.distinct⟩

theorem SpellsPairs.distinct : ∀ {depth : Nat} {ps : List (String × Json)} {cs : Parser.Chars},
    SpellsPairs reading depth ps cs → ∀ p ∈ ps, p.2.Distinct
  | _, _, _, .one _ element => List.forall_mem_singleton.mpr element.distinct
  | _, _, _, .more _ element others =>
    List.forall_mem_cons.mpr ⟨element.distinct, others.distinct⟩

end

end Grammar
end CalendarRollup.Json
