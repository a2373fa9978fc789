import CalendarRollup.Proofs.Json.Numbers
import CalendarRollup.Proofs.Json.Unambiguity

/-! The text that a value is written as expresses this value and no other. -/
namespace CalendarRollup.Json
open Grammar
open Json.Parser (Chars Token)

theorem isHex_hexDigit (n : Nat) : IsHex (hexDigit n) (n % 16) := by
  have table : ∀ k < 16, IsHex (Nat.digitChar k) k := by decide
  exact table (n % 16) (Nat.mod_lt _ (by decide))

theorem spells_escape (c : Char) : SpellsChar c (escape c) := by
  unfold escape
  split
  case h_8 notQuote notBackslash _ _ _ _ _ =>
    split
    next hcontrol =>
      have zero : IsHex '0' 0 := by decide
      have hdigits := SpellsUnit.digits zero zero (isHex_hexDigit (c.toNat / 16))
        (isHex_hexDigit c.toNat)
      have hvalue : ((0 * 16 + 0) * 16 + c.toNat / 16 % 16) * 16 + c.toNat % 16 = c.toNat := by
        omega
      rw [hvalue] at hdigits
      exact .unit hdigits
    next hcontrol => exact .plain (Nat.le_of_not_lt hcontrol) notQuote notBackslash
  all_goals exact .short (by simp [shortEscapes])

theorem spells_quoted (s : String) : SpellsString s (quoted s) := by
  have hinside : ∀ cs, SpellsChars cs (cs.flatMap escape) := by
    intro cs
    induction cs with
    | nil => exact .nil
    | cons c cs ih => exact .cons (spells_escape c) ih
  exact .quoted (hinside s.toList)

theorem spells_key (k : String) : SpellsKey k (quoted k ++ [':']) := by
  simpa using SpellsKey.colon isGap_nil (spells_quoted k) isGap_nil

section
variable {reading : Token → Number → Prop} {depth : Nat}

theorem spells_items (v : Json) (vs : List Json)
    (spelled : ∀ item ∈ v :: vs, Spells reading depth item item.chars) :
    SpellsItems reading depth (v :: vs) (v.chars ++ moreItemsChars vs) := by
  induction vs generalizing v with
  | nil =>
    rw [moreItemsChars, List.append_nil]
    exact .one (spelled v List.mem_cons_self).element
  | cons w vs ih =>
    exact .more (spelled v List.mem_cons_self).element
      (ih w fun item hitem => spelled item (List.mem_cons_of_mem _ hitem))

theorem spells_members (member : String × Json) (members : Members)
    (spelled : ∀ other ∈ member :: members, Spells reading depth other.2 other.2.chars) :
    SpellsPairs reading depth (member :: members) (membersChars (member :: members)) := by
  have hmember (k : String) (v : Json) (rest : Chars) :
      quoted k ++ ':' :: v.chars ++ rest = quoted k ++ [':'] ++ (v.chars ++ rest) := by simp
  induction members generalizing member with
  | nil =>
    obtain ⟨k, v⟩ := member
    rw [membersChars, moreMembersChars, hmember, List.append_nil]
    exact .one (spells_key k) (spelled (k, v) List.mem_cons_self).element
  | cons next members ih =>
    obtain ⟨k, v⟩ := member
    obtain ⟨l, w⟩ := next
    have hrest := ih (l, w) fun other hother => spelled other (List.mem_cons_of_mem _ hother)
    rw [membersChars, hmember]
    exact .more (spells_key k) (spelled (k, v) List.mem_cons_self).element hrest

end

/-- At some depth, and at all greater ones. -/
theorem exists_depth {α : Type} {P : Nat → α → Prop} (xs : List α)
    (each : ∀ x ∈ xs, ∃ depth, ∀ d, depth ≤ d → P d x) :
    ∃ depth, ∀ d, depth ≤ d → ∀ x ∈ xs, P d x := by
  induction xs with
  | nil => exact ⟨0, fun _ _ _ hx => absurd hx List.not_mem_nil⟩
  | cons x xs ih =>
    obtain ⟨m, hm⟩ := each x List.mem_cons_self
    obtain ⟨n, hn⟩ := ih fun y hy => each y (List.mem_cons_of_mem _ hy)
    refine ⟨max m n, fun d hd => List.forall_mem_cons.mpr ⟨?_, ?_⟩⟩
    · exact hm d (Nat.le_trans (Nat.le_max_left m n) hd)
    · exact hn d (Nat.le_trans (Nat.le_max_right m n) hd)

/-- The values that are written within a depth and with readable numerals, and with distinct
keys. -/
inductive Readable (reading : Token → Number → Prop) : Nat → Json → Prop
  | null {depth : Nat} : Readable reading depth .null
  | bool {depth : Nat} (value : Bool) : Readable reading depth (.bool value)
  | number {depth : Nat} {t : Token} {n : Number} (token : SpellsToken t n.chars)
    (value : reading t n) : Readable reading depth (.number n)
  | text {depth : Nat} (value : String) : Readable reading depth (.text value)
  | array {depth : Nat} {items : List Json} (within : ∀ item ∈ items, Readable reading depth item) :
    Readable reading (depth + 1) (.array items)
  | object {depth : Nat} {members : Members} (keys : members.keys.Nodup)
    (within : ∀ member ∈ members, Readable reading depth member.2) :
    Readable reading (depth + 1) (.object members)

theorem Readable.spells {reading : Token → Number → Prop} {depth : Nat} {v : Json}
    (readable : Readable reading depth v) : Spells reading depth v v.chars := by
  induction readable with
  | null => exact .null
  | bool value => cases value <;> constructor
  | number token value => exact .number token value
  | text s => exact .text (spells_quoted s)
  | @array _ items _ ih =>
    cases items with
    | nil => exact .emptyArray isGap_nil
    | cons v vs => exact .array (spells_items v vs ih)
  | @object _ members keys _ ih =>
    cases members with
    | nil => exact .emptyObject isGap_nil
    | cons member members =>
      have spelled := Spells.object (spells_members member members ih)
      rwa [Members.ofPairs_of_nodup keys] at spelled

/-- With the nearest floats and at some depth, every value with distinct keys is readable. -/
theorem exists_readable {v : Json} (distinct : v.Distinct) :
    ∃ depth, ∀ d, depth ≤ d → Readable StandsFor d v := by
  induction distinct with
  | null => exact ⟨0, fun _ _ => .null⟩
  | bool value => exact ⟨0, fun _ _ => .bool value⟩
  | number n =>
    obtain ⟨t, token, value⟩ := exists_token n
    exact ⟨0, fun _ _ => .number token value⟩
  | text s => exact ⟨0, fun _ _ => .text s⟩
  | @array items _ ih =>
    obtain ⟨depth, hdepth⟩ := exists_depth items ih
    refine ⟨depth + 1, fun d hd => ?_⟩
    obtain ⟨d, rfl⟩ : ∃ e, d = e + 1 := ⟨d - 1, by omega⟩
    exact .array (hdepth d (by omega))
  | @object members keys _ ih =>
    obtain ⟨depth, hdepth⟩ := exists_depth members ih
    refine ⟨depth + 1, fun d hd => ?_⟩
    obtain ⟨d, rfl⟩ : ∃ e, d = e + 1 := ⟨d - 1, by omega⟩
    exact .object keys (hdepth d (by omega))

/-- A text is JSON for a value, however deep it is, with whole numbers in the exact range and all
other numerals rounded to the nearest float. -/
def Expresses (s : String) (v : Json) : Prop := ∃ depth, SpellsElement StandsFor depth v s.toList

theorem Expresses.unique {s : String} {v w : Json} (hv : Expresses s v) (hw : Expresses s w) :
    v = w := by
  obtain ⟨_, hv⟩ := hv
  obtain ⟨_, hw⟩ := hw
  exact hv.unique (fun _ _ _ hm hn => hm.unique hn) hw

theorem expresses_of_spells {depth : Nat} {v w : Json}
    (spelled : Spells StandsFor depth v w.chars) : Expresses w.render v := by
  refine ⟨depth, ?_⟩
  rw [render, String.toList_ofList]
  exact spelled.element

/-- Members as they are written, with whatever keys. -/
theorem expresses_object {members : Members}
    (distinct : ∀ member ∈ members, member.2.Distinct) :
    Expresses (Json.object members).render (.object (Members.ofPairs members)) := by
  obtain ⟨depth, hdepth⟩ :=
    exists_depth members fun member hmember => exists_readable (distinct member hmember)
  cases members with
  | nil =>
    have spelled : Spells StandsFor 1 _ (Json.object []).chars := .emptyObject isGap_nil
    exact expresses_of_spells spelled
  | cons member members =>
    have spelled : Spells StandsFor (depth + 1) _ (Json.object (member :: members)).chars :=
      .object (spells_members member members fun other hother =>
        (hdepth depth (Nat.le_refl _) other hother).spells)
    exact expresses_of_spells spelled

/-- What a value is written as is JSON for this value. -/
theorem expresses_render {v : Json} (distinct : v.Distinct) : Expresses v.render v := by
  obtain ⟨depth, hdepth⟩ := exists_readable distinct
  exact expresses_of_spells (hdepth depth (Nat.le_refl _)).spells

/-- No two values are written alike. -/
theorem render_injective {v w : Json} (hv : v.Distinct) (hw : w.Distinct)
    (same : v.render = w.render) : v = w :=
  (expresses_render hv).unique (same ▸ expresses_render hw)

end CalendarRollup.Json
