import CalendarRollup.Proofs.Json.Distinct
import CalendarRollup.Proofs.Json.Floats
import CalendarRollup.Proofs.Json.Numerals
import CalendarRollup.Proofs.Json.Strings

/-! A text is read as a value just where the grammar spells this value, with its arrays and objects
at most `maxDepth` inside one another and numerals that denote numbers. -/
namespace CalendarRollup.Json
open Json.Grammar
open Json.Parser (Chars Token Ends)

/-- A text of the JSON syntax, of whatever depth and with whatever numerals. -/
def IsText (s : String) : Prop := ∃ depth v, SpellsElement (fun _ _ => True) depth v s.toList

/-- A text of a value within the limits: at most `maxDepth` arrays and objects inside one another,
and every numeral denotes a number. -/
def IsTextOf (v : Json) (s : String) : Prop := SpellsElement Denotes Parser.maxDepth v s.toList

namespace Grammar
variable {reading : Token → Number → Prop} {depth : Nat} {gap cs : Chars}

/-- A value by itself, with no gaps around it. -/
theorem Spells.element {v : Json} (spelled : Spells reading depth v cs) :
    SpellsElement reading depth v cs := by
  simpa using SpellsElement.around isGap_nil spelled isGap_nil

theorem isGap_append {before after : Chars} (hbefore : IsGap before) (hafter : IsGap after) :
    IsGap (before ++ after) := fun c hc => (List.mem_append.mp hc).elim (hbefore c) (hafter c)

theorem SpellsElement.prepend {v : Json} (isGap : IsGap gap)
    (element : SpellsElement reading depth v cs) : SpellsElement reading depth v (gap ++ cs) := by
  cases element with
  | around gapBefore value gapAfter =>
    rw [← List.append_assoc, ← List.append_assoc]
    exact .around (isGap_append isGap gapBefore) value gapAfter

theorem SpellsItems.prepend {vs : List Json} (isGap : IsGap gap)
    (items : SpellsItems reading depth vs cs) : SpellsItems reading depth vs (gap ++ cs) := by
  cases items with
  | one element => exact .one (element.prepend isGap)
  | more element others =>
    rw [← List.append_assoc]
    exact .more (element.prepend isGap) others

theorem SpellsKey.prepend {k : String} (isGap : IsGap gap) (key : SpellsKey k cs) :
    SpellsKey k (gap ++ cs) := by
  cases key with
  | colon gapBefore string gapAfter =>
    simp only [← List.append_assoc]
    exact .colon (isGap_append isGap gapBefore) string gapAfter

theorem SpellsPairs.prepend {ps : List (String × Json)} (isGap : IsGap gap)
    (pairs : SpellsPairs reading depth ps cs) : SpellsPairs reading depth ps (gap ++ cs) := by
  cases pairs with
  | one key element =>
    rw [← List.append_assoc]
    exact .one (key.prepend isGap) element
  | more key element others =>
    rw [← List.append_assoc]
    exact .more (key.prepend isGap) element others

end Grammar

namespace Parser

/-- What the readers of values take is spelled, with so much fuel. -/
structure Sound (fuel : Nat) : Prop where
  value {depth : Nat} {cs rest : Chars} {v : Json} (read : value fuel depth cs = some (v, rest)) :
    ∃ before core, IsGap before ∧ Spells Denotes depth v core ∧ cs = before ++ (core ++ rest)
  items {depth : Nat} {cs rest : Chars} {vs : List Json}
    (read : items fuel depth cs = some (vs, rest)) :
    ∃ spelled, SpellsItems Denotes depth vs spelled ∧ cs = spelled ++ ']' :: rest
  pairs {depth : Nat} {cs rest : Chars} {ps : List (String × Json)}
    (read : pairs fuel depth cs = some (ps, rest)) :
    (ps = [] ∧ ∃ gap, IsGap gap ∧ cs = gap ++ '}' :: rest) ∨
      ∃ spelled, SpellsPairs Denotes depth ps spelled ∧ cs = spelled ++ '}' :: rest
  morePairs {depth : Nat} {cs rest : Chars} {ps : List (String × Json)}
    (read : morePairs fuel depth cs = some (ps, rest)) :
    ∃ spelled, SpellsPairs Denotes depth ps spelled ∧ cs = spelled ++ '}' :: rest

theorem Sound.none : Sound 0 := by
  constructor
  all_goals
    intro _ _ _ _ read
    simp only [Parser.value, Parser.items, Parser.pairs, Parser.morePairs, reduceCtorEq] at read

theorem keyword_eq_some_iff {word cs rest : Chars} {v result : Json} :
    keyword word result cs = some (v, rest) ↔ v = result ∧ cs = word ++ rest := by
  unfold keyword
  constructor
  · intro h
    split at h
    next hword =>
      cases h
      obtain ⟨rest, rfl⟩ := List.isPrefixOf_iff_prefix.mp hword
      simp
    next => cases h
  · rintro ⟨rfl, rfl⟩
    simp [List.isPrefixOf_iff_prefix.mpr (List.prefix_append _ _)]

section Steps
variable {fuel depth : Nat} {cs rest : Chars}

theorem Sound.value_succ (sound : Sound fuel) {v : Json}
    (read : Parser.value (fuel + 1) depth cs = some (v, rest)) :
    ∃ before core, IsGap before ∧ Spells Denotes depth v core ∧ cs = before ++ (core ++ rest) := by
  obtain ⟨before, gapBefore, hbefore⟩ := exists_gap cs
  suffices hcore : ∃ core, Spells Denotes depth v core ∧ skipSpace cs = core ++ rest by
    obtain ⟨core, spelled, hsplit⟩ := hcore
    exact ⟨before, core, gapBefore, spelled, hsplit ▸ hbefore⟩
  rw [value.eq_def] at read
  simp only at read
  split at read
  next tail hhead =>
    split at read
    next => cases read
    next =>
      obtain ⟨gap, isGap, hgap⟩ := exists_gap tail
      split at read
      next hclosed =>
        cases read
        exact ⟨_, .emptyArray isGap, by rw [hhead, hgap, hclosed]; simp⟩
      next =>
        obtain ⟨⟨vs, _⟩, hitems, h⟩ := Option.bind_eq_some_iff.mp read
        cases h
        obtain ⟨spelled, items, hsplit⟩ := sound.items hitems
        exact ⟨_, .array (items.prepend isGap), by rw [hhead, hgap, hsplit]; simp⟩
  next tail hhead =>
    split at read
    next => cases read
    next =>
      obtain ⟨⟨ps, _⟩, hpairs, h⟩ := Option.bind_eq_some_iff.mp read
      cases h
      rcases sound.pairs hpairs with ⟨rfl, gap, isGap, rfl⟩ | ⟨spelled, pairs, rfl⟩
      · exact ⟨_, .emptyObject isGap, by rw [hhead]; simp⟩
      · exact ⟨_, .object pairs, by rw [hhead]; simp⟩
  next tail hhead =>
    obtain ⟨⟨s, _⟩, hstring, h⟩ := Option.bind_eq_some_iff.mp read
    cases h
    obtain ⟨inside, spelled, rfl⟩ := string_eq_some_iff.mp hstring
    exact ⟨_, .text (.quoted spelled), by rw [hhead]; simp⟩
  next tail hhead =>
    obtain ⟨rfl, rfl⟩ := keyword_eq_some_iff.mp read
    exact ⟨_, .null, hhead⟩
  next tail hhead =>
    obtain ⟨rfl, rfl⟩ := keyword_eq_some_iff.mp read
    exact ⟨_, .isTrue, hhead⟩
  next tail hhead =>
    obtain ⟨rfl, rfl⟩ := keyword_eq_some_iff.mp read
    exact ⟨_, .isFalse, hhead⟩
  next =>
    obtain ⟨⟨t, _⟩, htoken, h⟩ := Option.bind_eq_some_iff.mp read
    obtain ⟨n, hvalue, h⟩ := Option.bind_eq_some_iff.mp h
    cases h
    obtain ⟨spelled, token, hsplit⟩ := exists_of_token htoken
    exact ⟨spelled, .number token (value_eq_some_iff.mp hvalue), hsplit⟩

theorem exists_element {v : Json} {before core : Chars} (gapBefore : IsGap before)
    (spelled : Spells Denotes depth v core) (left : Chars) :
    ∃ element, SpellsElement Denotes depth v element ∧
      before ++ (core ++ left) = element ++ skipSpace left := by
  obtain ⟨after, gapAfter, hafter⟩ := exists_gap left
  refine ⟨_, .around gapBefore spelled gapAfter, ?_⟩
  rw [List.append_assoc, List.append_assoc, ← hafter]

theorem Sound.items_succ (sound : Sound fuel) {vs : List Json}
    (read : Parser.items (fuel + 1) depth cs = some (vs, rest)) :
    ∃ spelled, SpellsItems Denotes depth vs spelled ∧ cs = spelled ++ ']' :: rest := by
  rw [items.eq_def] at read
  obtain ⟨⟨v, left⟩, hvalue, hmore⟩ := Option.bind_eq_some_iff.mp read
  obtain ⟨before, core, gapBefore, spelled, rfl⟩ := sound.value hvalue
  obtain ⟨element, isElement, hsplit⟩ := exists_element gapBefore spelled left
  rw [hsplit]
  simp only at hmore
  split at hmore
  next tail hcomma =>
    obtain ⟨⟨others, _⟩, hothers, h⟩ := Option.bind_eq_some_iff.mp hmore
    cases h
    obtain ⟨spelled, items, rfl⟩ := sound.items hothers
    exact ⟨_, .more isElement items, by rw [hcomma]; simp⟩
  next tail hclosed =>
    cases hmore
    exact ⟨_, .one isElement, by rw [hclosed]⟩
  next => cases hmore

theorem Sound.pairs_succ (sound : Sound fuel) {ps : List (String × Json)}
    (read : Parser.pairs (fuel + 1) depth cs = some (ps, rest)) :
    (ps = [] ∧ ∃ gap, IsGap gap ∧ cs = gap ++ '}' :: rest) ∨
      ∃ spelled, SpellsPairs Denotes depth ps spelled ∧ cs = spelled ++ '}' :: rest := by
  obtain ⟨gap, isGap, hgap⟩ := exists_gap cs
  rw [pairs.eq_def] at read
  simp only at read
  split at read
  next hclosed =>
    cases read
    exact .inl ⟨rfl, gap, isGap, hclosed ▸ hgap⟩
  next =>
    obtain ⟨spelled, pairs, hsplit⟩ := sound.morePairs read
    exact .inr ⟨gap ++ spelled, pairs.prepend isGap, by rw [List.append_assoc, ← hsplit, ← hgap]⟩

theorem Sound.morePairs_succ (sound : Sound fuel) {ps : List (String × Json)}
    (read : Parser.morePairs (fuel + 1) depth cs = some (ps, rest)) :
    ∃ spelled, SpellsPairs Denotes depth ps spelled ∧ cs = spelled ++ '}' :: rest := by
  rw [morePairs.eq_def] at read
  obtain ⟨⟨k, behind⟩, hkey, hmember⟩ := Option.bind_eq_some_iff.mp read
  obtain ⟨⟨v, left⟩, hvalue, hmore⟩ := Option.bind_eq_some_iff.mp hmember
  obtain ⟨name, isKey, rfl⟩ := key_eq_some_iff.mp hkey
  obtain ⟨before, core, gapBefore, spelled, rfl⟩ := sound.value hvalue
  obtain ⟨element, isElement, hsplit⟩ := exists_element gapBefore spelled left
  rw [hsplit]
  simp only at hmore
  split at hmore
  next tail hcomma =>
    obtain ⟨⟨others, _⟩, hothers, h⟩ := Option.bind_eq_some_iff.mp hmore
    cases h
    obtain ⟨spelled, pairs, rfl⟩ := sound.morePairs hothers
    exact ⟨_, .more isKey isElement pairs, by rw [hcomma]; simp⟩
  next tail hclosed =>
    cases hmore
    exact ⟨_, .one isKey isElement, by rw [hclosed]; simp⟩
  next => cases hmore

end Steps

theorem sound (fuel : Nat) : Sound fuel := by
  induction fuel with
  | zero => exact .none
  | succ fuel ih =>
    constructor
    case value => exact ih.value_succ
    case items => exact ih.items_succ
    case pairs => exact ih.pairs_succ
    case morePairs => exact ih.morePairs_succ

/-! Blanks ahead of a value make no difference. -/

theorem skipSpace_skipSpace (cs : Chars) : skipSpace (skipSpace cs) = skipSpace cs := by
  obtain ⟨gap, isGap, hgap⟩ := exists_gap cs
  conv_rhs => rw [hgap, skipSpace_gap isGap]

theorem value_skipSpace (fuel depth : Nat) (cs : Chars) :
    value fuel depth (skipSpace cs) = value fuel depth cs := by
  cases fuel with
  | zero => simp only [value]
  | succ fuel => simp only [value, skipSpace_skipSpace]

theorem items_skipSpace (fuel depth : Nat) (cs : Chars) :
    items fuel depth (skipSpace cs) = items fuel depth cs := by
  cases fuel with
  | zero => simp only [items]
  | succ fuel => simp only [items, value_skipSpace]

theorem morePairs_skipSpace (fuel depth : Nat) (cs : Chars) :
    morePairs fuel depth (skipSpace cs) = morePairs fuel depth cs := by
  have hkey : key (skipSpace cs) = key cs := by simp only [key, skipSpace_skipSpace]
  cases fuel with
  | zero => simp only [morePairs]
  | succ fuel => simp only [morePairs, hkey]

section Heads
variable {reading : Token → Number → Prop} {depth : Nat} {cs : Chars}

theorem head_of_token {t : Token} (token : SpellsToken t cs) :
    ∃ c tail, cs = c :: tail ∧ (c = '-' ∨ c.isDigit = true) := by
  obtain @⟨negative, whole, fraction, exponent, fractionCs, exponentCs, isWhole, _, _⟩ := token
  cases negative with
  | true => exact ⟨'-', _, rfl, .inl rfl⟩
  | false =>
    obtain ⟨d, tail, rfl, hd⟩ := exists_digit isWhole.1
    exact ⟨d, _, rfl, .inr hd⟩

/-- What a value begins with is neither a blank nor the end of an array. -/
theorem head_of_spells {v : Json} (spelled : Spells reading depth v cs) :
    ∃ c tail, cs = c :: tail ∧ isSpace c = false ∧ c ≠ ']' := by
  cases spelled with
  | number token value =>
    obtain ⟨c, tail, rfl, hc⟩ := head_of_token token
    refine ⟨c, tail, rfl, ?_, ?_⟩
    · rw [Bool.eq_false_iff]
      intro hspace
      have hblank := isSpace_iff.mp hspace
      simp only [List.mem_cons, List.not_mem_nil, or_false] at hblank
      rcases hblank with rfl | rfl | rfl | rfl <;> exact absurd hc (by decide)
    · rintro rfl
      exact absurd hc (by decide)
  | text string =>
    cases string
    exact ⟨'"', _, rfl, by decide, by decide⟩
  | _ => exact ⟨_, _, rfl, by decide, by decide⟩

theorem skipSpace_spells {v : Json} {before rest : Chars} (gapBefore : IsGap before)
    (spelled : Spells reading depth v cs) : skipSpace (before ++ (cs ++ rest)) = cs ++ rest := by
  obtain ⟨c, tail, rfl, hsolid, _⟩ := head_of_spells spelled
  rw [skipSpace_gap gapBefore]
  exact skipSpace_of_head fun d hd => by
    cases hd
    exact hsolid

theorem head_of_element {v : Json} (element : SpellsElement reading depth v cs) (rest : Chars) :
    (skipSpace (cs ++ rest)).head? ≠ some ']' := by
  obtain ⟨gapBefore, spelled, gapAfter⟩ := element
  obtain ⟨c, tail, rfl, _, hc⟩ := head_of_spells spelled
  rw [List.append_assoc, List.append_assoc, skipSpace_spells gapBefore spelled]
  exact fun h => hc (Option.some.inj h)

theorem head_of_items {vs : List Json} (items : SpellsItems reading depth vs cs) (rest : Chars) :
    (skipSpace (cs ++ rest)).head? ≠ some ']' := by
  cases items with
  | one element => exact head_of_element element rest
  | more element others =>
    rw [List.append_assoc]
    exact head_of_element element _

theorem head_of_key {k : String} {name : Chars} (key : SpellsKey k name) (rest : Chars) :
    (skipSpace (name ++ rest)).head? ≠ some '}' := by
  obtain @⟨before, cs, after, gapBefore, ⟨_⟩, gapAfter⟩ := key
  rw [List.append_assoc, List.append_assoc, List.append_assoc, skipSpace_gap gapBefore]
  simp [skipSpace, isSpace]

theorem head_of_pairs {ps : List (String × Json)} (pairs : SpellsPairs reading depth ps cs)
    (rest : Chars) : (skipSpace (cs ++ rest)).head? ≠ some '}' := by
  cases pairs with
  | one key element =>
    rw [List.append_assoc]
    exact head_of_key key _
  | more key element others =>
    rw [List.append_assoc]
    exact head_of_key key _

end Heads

/-- The text ends, or a character follows that ends a value. -/
def Closes (rest : Chars) : Prop := ∀ c ∈ rest.head?, c ∈ [',', ']', '}']

theorem Closes.nil : Closes [] := nofun

theorem Closes.cons (c : Char) (rest : Chars) (h : c ∈ [',', ']', '}']) : Closes (c :: rest) := by
  intro d hd
  cases hd
  exact h

theorem Closes.ends {rest : Chars} (closes : Closes rest) : Ends rest := by
  intro c hc
  have hclose := closes c hc
  simp only [List.mem_cons, List.not_mem_nil, or_false] at hclose
  rcases hclose with rfl | rfl | rfl <;> decide

theorem Closes.skipSpace {rest : Chars} (closes : Closes rest) : skipSpace rest = rest := by
  refine skipSpace_of_head fun c hc => ?_
  have hclose := closes c hc
  simp only [List.mem_cons, List.not_mem_nil, or_false] at hclose
  rcases hclose with rfl | rfl | rfl <;> rfl

theorem Closes.ends_gap {gap rest : Chars} (closes : Closes rest) (isGap : IsGap gap) :
    Ends (gap ++ rest) := by
  cases gap with
  | nil => exact closes.ends
  | cons c gap =>
    intro d hd
    cases hd
    have hblank := isGap c List.mem_cons_self
    simp only [List.mem_cons, List.not_mem_nil, or_false] at hblank
    rcases hblank with rfl | rfl | rfl | rfl <;> decide

/-- What is spelled is taken, with so much fuel. -/
structure Complete (fuel : Nat) : Prop where
  value {depth : Nat} {before core rest : Chars} {v : Json} (gapBefore : IsGap before)
    (spelled : Spells Denotes depth v core) (enough : 2 * core.length + 1 ≤ fuel)
    (ends : Ends rest) : value fuel depth (before ++ (core ++ rest)) = some (v, rest)
  items {depth : Nat} {cs : Chars} {vs : List Json} (spelled : SpellsItems Denotes depth vs cs)
    (enough : 2 * cs.length + 2 ≤ fuel) (rest : Chars) :
    items fuel depth (cs ++ ']' :: rest) = some (vs, rest)
  closed (depth : Nat) {gap : Chars} (isGap : IsGap gap) (enough : 1 ≤ fuel) (rest : Chars) :
    pairs fuel depth (gap ++ '}' :: rest) = some ([], rest)
  pairs {depth : Nat} {cs : Chars} {ps : List (String × Json)}
    (spelled : SpellsPairs Denotes depth ps cs) (enough : 2 * cs.length + 3 ≤ fuel)
    (rest : Chars) :
    pairs fuel depth (cs ++ '}' :: rest) = some (ps, rest)
  morePairs {depth : Nat} {cs : Chars} {ps : List (String × Json)}
    (spelled : SpellsPairs Denotes depth ps cs) (enough : 2 * cs.length + 2 ≤ fuel)
    (rest : Chars) : morePairs fuel depth (cs ++ '}' :: rest) = some (ps, rest)

theorem Complete.none : Complete 0 := by
  constructor
  all_goals
    intros
    omega

section Steps
variable {fuel depth : Nat} {cs rest : Chars}

theorem Complete.value_succ (complete : Complete fuel) {before : Chars} {v : Json}
    (gapBefore : IsGap before) (spelled : Spells Denotes depth v cs)
    (enough : 2 * cs.length + 1 ≤ fuel + 1) (ends : Ends rest) :
    Parser.value (fuel + 1) depth (before ++ (cs ++ rest)) = some (v, rest) := by
  rw [value.eq_def]
  simp only [skipSpace_spells gapBefore spelled]
  cases spelled with
  | null => exact keyword_eq_some_iff.mpr ⟨rfl, rfl⟩
  | isTrue => exact keyword_eq_some_iff.mpr ⟨rfl, rfl⟩
  | isFalse => exact keyword_eq_some_iff.mpr ⟨rfl, rfl⟩
  | number token value =>
    have hread := token_append token ends
    obtain ⟨c, tail, rfl, hc⟩ := head_of_token token
    have hother (d : Char) (hd : ¬(d = '-' ∨ d.isDigit = true)) (left : Chars) :
        c :: tail ++ rest ≠ d :: left := by
      rintro h
      exact hd ((List.cons.inj h).1 ▸ hc)
    split
    next h => exact absurd h (hother _ (by decide) _)
    next h => exact absurd h (hother _ (by decide) _)
    next h => exact absurd h (hother _ (by decide) _)
    next h => exact absurd h (hother _ (by decide) _)
    next h => exact absurd h (hother _ (by decide) _)
    next h => exact absurd h (hother _ (by decide) _)
    next =>
      refine Option.bind_eq_some_iff.mpr ⟨_, hread, ?_⟩
      exact Option.bind_eq_some_iff.mpr ⟨_, value_eq_some_iff.mpr value, rfl⟩
  | text string =>
    obtain @⟨inside, spelled⟩ := string
    have hread : string (inside ++ '"' :: rest) = some (_, rest) :=
      string_eq_some_iff.mpr ⟨inside, spelled, rfl⟩
    simp [hread]
  | @emptyArray depth gap isGap =>
    have hclosed : skipSpace (gap ++ ']' :: rest) = ']' :: rest := skipSpace_gap isGap
    simp [hclosed]
  | @array depth vs cs items =>
    have hitems := complete.items items (by simp at enough; omega) rest
    have hopen := head_of_items items (']' :: rest)
    rw [← items_skipSpace] at hitems
    simp only [List.cons_append, List.append_assoc, List.nil_append]
    split
    next hclosed => exact absurd (congrArg List.head? hclosed) hopen
    next => simp [hitems]
  | @emptyObject depth gap isGap =>
    have hclosed := complete.closed depth isGap (by simp at enough; omega) rest
    simp [hclosed, Members.ofPairs]
  | object pairs =>
    have hpairs := complete.pairs pairs (by simp at enough; omega) rest
    simp [hpairs]

/-- An element is taken up to what ends it, with the gap behind it left over. -/
theorem Complete.element (complete : Complete fuel) {v : Json}
    (element : SpellsElement Denotes depth v cs) (enough : 2 * cs.length + 1 ≤ fuel)
    (closes : Closes rest) :
    ∃ left, Parser.value fuel depth (cs ++ rest) = some (v, left) ∧ skipSpace left = rest := by
  obtain @⟨_, _, before, core, after, gapBefore, spelled, gapAfter⟩ := element
  have hread := complete.value gapBefore spelled (by simp at enough; omega)
    (closes.ends_gap gapAfter)
  refine ⟨after ++ rest, ?_, ?_⟩
  · simpa using hread
  · rw [skipSpace_gap gapAfter, closes.skipSpace]

theorem Complete.items_succ (complete : Complete fuel) {vs : List Json}
    (spelled : SpellsItems Denotes depth vs cs) (enough : 2 * cs.length + 2 ≤ fuel + 1)
    (rest : Chars) : Parser.items (fuel + 1) depth (cs ++ ']' :: rest) = some (vs, rest) := by
  rw [items.eq_def]
  cases spelled with
  | one element =>
    obtain ⟨left, hvalue, hclosed⟩ := complete.element element (by omega)
      (.cons ']' rest (by decide))
    simp [hvalue, hclosed]
  | @more depth v vs cs others element items =>
    obtain ⟨left, hvalue, hcomma⟩ := complete.element element (by simp at enough; omega)
      (.cons ',' (others ++ ']' :: rest) (by decide))
    have hothers := complete.items items (by simp at enough; omega) rest
    simp [hvalue, hcomma, hothers]

theorem Complete.closed_succ (depth : Nat) {gap : Chars} (isGap : IsGap gap) (rest : Chars) :
    Parser.pairs (fuel + 1) depth (gap ++ '}' :: rest) = some ([], rest) := by
  have hclosed : skipSpace (gap ++ '}' :: rest) = '}' :: rest := skipSpace_gap isGap
  rw [pairs.eq_def]
  simp [hclosed]

theorem Complete.pairs_succ (complete : Complete fuel) {ps : List (String × Json)}
    (spelled : SpellsPairs Denotes depth ps cs) (enough : 2 * cs.length + 3 ≤ fuel + 1)
    (rest : Chars) : Parser.pairs (fuel + 1) depth (cs ++ '}' :: rest) = some (ps, rest) := by
  have hread := complete.morePairs spelled (by omega) rest
  rw [← morePairs_skipSpace] at hread
  have hopen := head_of_pairs spelled ('}' :: rest)
  rw [pairs.eq_def]
  simp only
  split
  next hclosed => exact absurd (congrArg List.head? hclosed) hopen
  next => exact hread

theorem Complete.morePairs_succ (complete : Complete fuel) {ps : List (String × Json)}
    (spelled : SpellsPairs Denotes depth ps cs) (enough : 2 * cs.length + 2 ≤ fuel + 1)
    (rest : Chars) : Parser.morePairs (fuel + 1) depth (cs ++ '}' :: rest) = some (ps, rest) := by
  rw [morePairs.eq_def]
  cases spelled with
  | @one depth k v name cs key element =>
    have hkey : Parser.key (name ++ (cs ++ '}' :: rest)) = some (k, cs ++ '}' :: rest) :=
      key_eq_some_iff.mpr ⟨name, key, rfl⟩
    obtain ⟨left, hvalue, hclosed⟩ := complete.element element (by simp at enough; omega)
      (.cons '}' rest (by decide))
    simp [hkey, hvalue, hclosed]
  | @more depth k v ps name cs others key element pairs =>
    have hkey : Parser.key (name ++ (cs ++ ',' :: (others ++ '}' :: rest))) =
        some (k, cs ++ ',' :: (others ++ '}' :: rest)) := key_eq_some_iff.mpr ⟨name, key, rfl⟩
    obtain ⟨left, hvalue, hcomma⟩ := complete.element element (by simp at enough; omega)
      (.cons ',' (others ++ '}' :: rest) (by decide))
    have hothers := complete.morePairs pairs (by simp at enough; omega) rest
    simp [hkey, hvalue, hcomma, hothers]

end Steps

theorem complete (fuel : Nat) : Complete fuel := by
  induction fuel with
  | zero => exact .none
  | succ fuel ih =>
    constructor
    case value => exact ih.value_succ
    case items => exact ih.items_succ
    case closed => exact fun depth _ isGap _ => Complete.closed_succ depth isGap
    case pairs => exact ih.pairs_succ
    case morePairs => exact ih.morePairs_succ

end Parser

/-- A text is read as a value just where the grammar spells it. -/
theorem parse?_eq_some_iff {s : String} {v : Json} : parse? s = some v ↔ IsTextOf v s := by
  constructor
  · intro h
    obtain ⟨⟨v, left⟩, hvalue, h⟩ := Option.bind_eq_some_iff.mp h
    simp only at h
    split at h
    next hend =>
      cases h
      obtain ⟨before, core, gapBefore, spelled, hsplit⟩ := (Parser.sound _).value hvalue
      obtain ⟨element, isElement, helement⟩ :=
        Parser.exists_element gapBefore spelled left
      rw [List.isEmpty_iff.mp hend, List.append_nil] at helement
      rwa [IsTextOf, hsplit, helement]
    next => cases h
  · intro element
    obtain ⟨left, hvalue, hleft⟩ := (Parser.complete (Parser.enoughFuel s.toList)).element
      element (by simp [Parser.enoughFuel]) .nil
    rw [List.append_nil] at hvalue
    simp [parse?, Parser.document, hvalue, hleft]

theorem parse?_eq_none_iff {s : String} : parse? s = none ↔ ¬ ∃ v, IsTextOf v s := by
  simp only [← parse?_eq_some_iff, Option.eq_none_iff_forall_ne_some, not_exists]

/-- The members of an object that is spelled, as they are written. -/
theorem Parser.objectPairs_of_spells {ps : List (String × Json)} {cs : Chars}
    (spelled : SpellsPairs Denotes (Parser.maxDepth - 1) ps cs) :
    Parser.objectPairs ('{' :: (cs ++ ['}'])) = some ps := by
  have hpairs := (Parser.complete (Parser.enoughFuel ('{' :: (cs ++ ['}'])))).pairs spelled
    (by simp only [Parser.enoughFuel, List.length_cons, List.length_append]; omega) []
  have hopen : Parser.skipSpace ('{' :: (cs ++ ['}'])) = '{' :: (cs ++ ['}']) := rfl
  rw [Parser.objectPairs, hopen]
  simp only [hpairs]
  rfl

theorem IsTextOf.distinct {s : String} {v : Json} (isText : IsTextOf v s) : v.Distinct :=
  SpellsElement.distinct isText

end CalendarRollup.Json
