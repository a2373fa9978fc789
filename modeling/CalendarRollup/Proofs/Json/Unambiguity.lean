import CalendarRollup.Proofs.Json.Reading

/-! A text spells one value, at whatever depths, where every numeral stands for one number. -/
namespace CalendarRollup.Json.Grammar
open Json.Parser (Chars Token Ends Closes)

variable {reading : Token → Number → Prop} {rest rest' : Chars}

/-- What one reader takes from one text is the same. -/
theorem eq_of_read {α : Type} {read : Chars → Option (α × Chars)} {a b : α} {cs cs' : Chars}
    (h : read cs = some (a, rest)) (h' : read cs' = some (b, rest')) (same : cs = cs') :
    a = b ∧ rest = rest' := by
  rw [same, h'] at h
  obtain ⟨rfl, rfl⟩ := Prod.mk.inj (Option.some.inj h)
  exact ⟨rfl, rfl⟩

theorem SpellsToken.unique {t t' : Token} {cs cs' : Chars} (token : SpellsToken t cs)
    (token' : SpellsToken t' cs') (ends : Ends rest) (ends' : Ends rest')
    (same : cs ++ rest = cs' ++ rest') : t = t' ∧ rest = rest' :=
  eq_of_read (Parser.token_append token ends) (Parser.token_append token' ends') same

theorem SpellsString.unique {s s' : String} {cs cs' : Chars} (string : SpellsString s cs)
    (string' : SpellsString s' cs') (same : cs ++ rest = cs' ++ rest') : s = s' ∧ rest = rest' := by
  obtain @⟨inside, chars⟩ := string
  obtain @⟨inside', chars'⟩ := string'
  exact eq_of_read (Parser.string_eq_some_iff.mpr ⟨inside, chars, rfl⟩)
    (Parser.string_eq_some_iff.mpr ⟨inside', chars', rfl⟩) (by simpa using same)

theorem SpellsKey.unique {k k' : String} {name name' : Chars} (key : SpellsKey k name)
    (key' : SpellsKey k' name') (same : name ++ rest = name' ++ rest') : k = k' ∧ rest = rest' :=
  eq_of_read (Parser.key_eq_some_iff.mpr ⟨name, key, rfl⟩)
    (Parser.key_eq_some_iff.mpr ⟨name', key', rfl⟩) same

/-- A text fixes what it spells: where another spelling begins one text with it, and both end where
they may stop, they spell one thing and leave one rest. -/
def Fixes {α : Type} (Spelled : α → Chars → Prop) (Stops : Chars → Prop) (x : α) (cs : Chars) :
    Prop :=
  ∀ ⦃y : α⦄ ⦃cs' rest rest' : Chars⦄, Spelled y cs' → Stops rest → Stops rest' →
    cs ++ rest = cs' ++ rest' → x = y ∧ rest = rest'

/-- A text stops here, in front of a bracket. -/
def StopsAt (close : Char) (rest : Chars) : Prop := ∃ tail, rest = close :: tail

/-- Parts with commas between them. -/
inductive Parts {α : Type} (Part : α → Chars → Prop) : List α → Chars → Prop
  | one {x : α} {cs : Chars} (part : Part x cs) : Parts Part [x] cs
  | more {x : α} {xs : List α} {cs rest : Chars} (part : Part x cs) (others : Parts Part xs rest) :
    Parts Part (x :: xs) (cs ++ ',' :: rest)

/-- A part that is put together from two texts. -/
theorem Parts.behind {α : Type} {Part : α → Chars → Prop} {x : α} {xs : List α}
    {name cs rest : Chars} (others : Parts Part xs rest) (part : Part x (name ++ cs)) :
    Parts Part (x :: xs) (name ++ (cs ++ ',' :: rest)) := by
  rw [← List.append_assoc]
  exact .more part others

/-- What stands in front of a closing bracket: a gap alone, or parts. -/
inductive Enclosed {α : Type} (Part : α → Chars → Prop) : List α → Chars → Prop
  | gap {gap : Chars} (isGap : IsGap gap) : Enclosed Part [] gap
  | parts {xs : List α} {cs : Chars} (parts : Parts Part xs cs) : Enclosed Part xs cs

section Brackets
variable {α : Type} {Part : α → Chars → Prop} {close : Char} {xs ys : List α} {gap cs cs' : Chars}

theorem skipSpace_close (solid : Parser.isSpace close = false) (isGap : IsGap gap) (rest : Chars) :
    Parser.skipSpace (gap ++ close :: rest) = close :: rest := by
  rw [Parser.skipSpace_gap isGap]
  refine Parser.skipSpace_of_head fun c hc => ?_
  cases hc
  exact solid

/-- A bracket that closes parts, and with which no part begins. -/
structure Closer (Part : α → Chars → Prop) (close : Char) : Prop where
  solid : Parser.isSpace close = false
  mark : close ∈ [',', ']', '}']
  other : close ≠ ','
  opens {x : α} {cs : Chars} (part : Part x cs) (rest : Chars) :
    (Parser.skipSpace (cs ++ rest)).head? ≠ some close

theorem Parts.opens (closer : Closer Part close) (parts : Parts Part xs cs) (rest : Chars) :
    (Parser.skipSpace (cs ++ rest)).head? ≠ some close := by
  cases parts with
  | one part => exact closer.opens part rest
  | more part others =>
    rw [List.append_assoc]
    exact closer.opens part _

theorem Parts.fixes (closer : Closer Part close) (parts : Parts (Fixes Part Closes) xs cs) :
    Fixes (Parts Part) (StopsAt close) xs cs := by
  induction parts with
  | one fixed =>
    rintro _ _ _ _ parts' ⟨tail, rfl⟩ ⟨tail', rfl⟩ same
    have hclosed : Closes (close :: tail) := .cons close tail closer.mark
    cases parts' with
    | one part' =>
      obtain ⟨rfl, hrest⟩ := fixed part' hclosed (.cons close tail' closer.mark) same
      exact ⟨rfl, hrest⟩
    | more part' others' =>
      rw [List.append_assoc] at same
      obtain ⟨_, hmark⟩ := fixed part' hclosed (.cons ',' _ (by decide)) same
      exact absurd (List.cons.inj hmark).1 closer.other
  | more fixed _ ih =>
    rintro _ _ _ _ parts' ⟨tail, rfl⟩ ⟨tail', rfl⟩ same
    have hmore (others : Chars) : Closes (',' :: others) := .cons ',' others (by decide)
    rw [List.append_assoc] at same
    cases parts' with
    | one part' =>
      obtain ⟨_, hmark⟩ := fixed part' (hmore _) (.cons close tail' closer.mark) same
      exact absurd (List.cons.inj hmark).1.symm closer.other
    | more part' others' =>
      rw [List.append_assoc] at same
      obtain ⟨rfl, hothers⟩ := fixed part' (hmore _) (hmore _) same
      obtain ⟨rfl, hrest⟩ := ih others' ⟨tail, rfl⟩ ⟨tail', rfl⟩ (List.cons.inj hothers).2
      exact ⟨rfl, hrest⟩

theorem Enclosed.fixes_gap (closer : Closer Part close) (isGap : IsGap gap) :
    Fixes (Enclosed Part) (StopsAt close) [] gap := by
  rintro _ _ _ _ enclosed' ⟨tail, rfl⟩ ⟨tail', rfl⟩ same
  have hrest := skipSpace_close closer.solid isGap tail
  cases enclosed' with
  | gap isGap' =>
    rw [same, skipSpace_close closer.solid isGap' tail'] at hrest
    exact ⟨rfl, hrest.symm⟩
  | parts parts' =>
    rw [same] at hrest
    exact absurd (congrArg List.head? hrest) (parts'.opens closer _)

theorem Enclosed.fixes_parts (closer : Closer Part close) (parts : Parts Part xs cs)
    (fixed : Parts (Fixes Part Closes) xs cs) :
    Fixes (Enclosed Part) (StopsAt close) xs cs := by
  rintro _ _ _ _ enclosed' ⟨tail, rfl⟩ ⟨tail', rfl⟩ same
  cases enclosed' with
  | gap isGap' =>
    have hrest := skipSpace_close closer.solid isGap' tail'
    rw [← same] at hrest
    exact absurd (congrArg List.head? hrest) (parts.opens closer _)
  | parts parts' => exact fixed.fixes closer parts' ⟨tail, rfl⟩ ⟨tail', rfl⟩ same

end Brackets

section Values
variable {depth : Nat} {v : Json} {c : Char} {k : String} {name cs tail : Chars}

def Value (reading : Token → Number → Prop) (v : Json) (cs : Chars) : Prop :=
  ∃ depth, Spells reading depth v cs

def Element (reading : Token → Number → Prop) (v : Json) (cs : Chars) : Prop :=
  ∃ depth, SpellsElement reading depth v cs

/-- A key and its element. -/
def Member (reading : Token → Number → Prop) (member : String × Json) (cs : Chars) : Prop :=
  ∃ name core, SpellsKey member.1 name ∧ Element reading member.2 core ∧ cs = name ++ core

theorem closer_array : Closer (Element reading) ']' where
  solid := rfl
  mark := by decide
  other := by decide
  opens part rest := by
    obtain ⟨_, element⟩ := part
    exact Parser.head_of_element element rest

theorem closer_object : Closer (Member reading) '}' where
  solid := rfl
  mark := by decide
  other := by decide
  opens part rest := by
    obtain ⟨_, _, key, _, rfl⟩ := part
    rw [List.append_assoc]
    exact Parser.head_of_key key _

theorem SpellsItems.parts {vs : List Json} :
    ∀ {depth : Nat} {cs : Chars}, SpellsItems reading depth vs cs → Parts (Element reading) vs cs
  | _, _, .one element => .one ⟨_, element⟩
  | _, _, .more element others => .more ⟨_, element⟩ others.parts

theorem SpellsPairs.parts {ps : List (String × Json)} :
    ∀ {depth : Nat} {cs : Chars}, SpellsPairs reading depth ps cs → Parts (Member reading) ps cs
  | _, _, .one key element => .one ⟨_, _, key, ⟨_, element⟩, rfl⟩
  | _, _, .more key element others => others.parts.behind ⟨_, _, key, ⟨_, element⟩, rfl⟩

/-- What the first character of a value tells about it. -/
def Begins (reading : Token → Number → Prop) (v : Json) (c : Char) (tail : Chars) : Prop :=
  match c with
  | 'n' => v = .null ∧ tail = ['u', 'l', 'l']
  | 't' => v = .bool true ∧ tail = ['r', 'u', 'e']
  | 'f' => v = .bool false ∧ tail = ['a', 'l', 's', 'e']
  | '"' => ∃ s, v = .text s ∧ SpellsString s ('"' :: tail)
  | '[' => ∃ vs inside, v = .array vs ∧ Enclosed (Element reading) vs inside ∧
      tail = inside ++ [']']
  | '{' => ∃ ps inside, v = .object (Members.ofPairs ps) ∧ Enclosed (Member reading) ps inside ∧
      tail = inside ++ ['}']
  | c => ∃ t n, v = .number n ∧ SpellsToken t (c :: tail) ∧ reading t n

theorem Spells.begins (spelled : Spells reading depth v cs) :
    ∃ c tail, cs = c :: tail ∧ Begins reading v c tail := by
  cases spelled with
  | null => exact ⟨'n', _, rfl, rfl, rfl⟩
  | isTrue => exact ⟨'t', _, rfl, rfl, rfl⟩
  | isFalse => exact ⟨'f', _, rfl, rfl, rfl⟩
  | text string =>
    obtain ⟨inside⟩ := string
    exact ⟨'"', _, rfl, _, rfl, .quoted inside⟩
  | emptyArray isGap => exact ⟨'[', _, rfl, _, _, rfl, .gap isGap, rfl⟩
  | array items => exact ⟨'[', _, rfl, _, _, rfl, .parts items.parts, rfl⟩
  | emptyObject isGap => exact ⟨'{', _, rfl, [], _, rfl, .gap isGap, rfl⟩
  | object pairs => exact ⟨'{', _, rfl, _, _, rfl, .parts pairs.parts, rfl⟩
  | number token value =>
    obtain ⟨c, tail, rfl, hc⟩ := Parser.head_of_token token
    refine ⟨c, tail, rfl, ?_⟩
    unfold Begins
    split
    case h_7 => exact ⟨_, _, rfl, token, value⟩
    all_goals exact absurd hc (by decide)

/-- What begins as a numeral is one. -/
theorem Begins.of_token {t : Token} {other : Chars} (begins : Begins reading v c tail)
    (token : SpellsToken t (c :: other)) :
    ∃ t n, v = .number n ∧ SpellsToken t (c :: tail) ∧ reading t n := by
  obtain ⟨_, _, hhead, hc⟩ := Parser.head_of_token token
  obtain ⟨rfl, rfl⟩ := List.cons.inj hhead
  unfold Begins at begins
  split at begins
  case h_7 => exact begins
  all_goals exact absurd hc (by decide)

theorem fixes_of_begins (fixed : ∀ {v' tail' rest rest'}, Begins reading v' c tail' → Ends rest →
      Ends rest' → tail ++ rest = tail' ++ rest' → v = v' ∧ rest = rest') :
    Fixes (Value reading) Ends v (c :: tail) := by
  rintro _ _ _ _ ⟨_, spelled⟩ ends ends' same
  obtain ⟨_, _, rfl, begins⟩ := spelled.begins
  obtain ⟨rfl, hsame⟩ := List.cons.inj same
  exact fixed begins ends ends' hsame

theorem fixes_word (only : ∀ {v' tail'}, Begins reading v' c tail' → v' = v ∧ tail' = tail) :
    Fixes (Value reading) Ends v (c :: tail) := by
  refine fixes_of_begins fun begins _ _ same => ?_
  obtain ⟨rfl, rfl⟩ := only begins
  exact ⟨rfl, List.append_cancel_left same⟩

theorem fixes_number (functional : ∀ t m n, reading t m → reading t n → m = n) {t : Token}
    {n : Number} (token : SpellsToken t cs) (value : reading t n) :
    Fixes (Value reading) Ends (.number n) cs := by
  obtain ⟨c, tail, rfl, _⟩ := Parser.head_of_token token
  refine fixes_of_begins fun begins ends ends' same => ?_
  obtain ⟨_, _, rfl, token', value'⟩ := begins.of_token token
  obtain ⟨rfl, hrest⟩ := token.unique token' ends ends' (congrArg (c :: ·) same)
  exact ⟨congrArg _ (functional _ _ _ value value'), hrest⟩

theorem fixes_text {s : String} (string : SpellsString s cs) :
    Fixes (Value reading) Ends (.text s) cs := by
  obtain ⟨inside⟩ := string
  refine fixes_of_begins fun begins _ _ same => ?_
  obtain ⟨_, rfl, string'⟩ := begins
  obtain ⟨rfl, hrest⟩ := (SpellsString.quoted inside).unique string' (congrArg ('"' :: ·) same)
  exact ⟨rfl, hrest⟩

theorem fixes_enclosed {α : Type} {Part : α → Chars → Prop} {close : Char} {xs : List α}
    (make : List α → Json) (fixed : Fixes (Enclosed Part) (StopsAt close) xs cs)
    (only : ∀ {v' tail}, Begins reading v' c tail →
      ∃ ys inside, v' = make ys ∧ Enclosed Part ys inside ∧ tail = inside ++ [close]) :
    Fixes (Value reading) Ends (make xs) (c :: (cs ++ [close])) := by
  refine fixes_of_begins fun begins _ _ same => ?_
  obtain ⟨_, _, rfl, enclosed, rfl⟩ := only begins
  rw [List.append_assoc, List.append_assoc] at same
  obtain ⟨rfl, hrest⟩ := fixed enclosed ⟨_, rfl⟩ ⟨_, rfl⟩ same
  exact ⟨rfl, (List.cons.inj hrest).2⟩

/-- The gap behind an element belongs to it, up to what closes it. -/
theorem fixes_element {before after : Chars} (gapBefore : IsGap before)
    (spelled : Spells reading depth v cs) (gapAfter : IsGap after)
    (fixed : Fixes (Value reading) Ends v cs) :
    Fixes (Element reading) Closes v (before ++ cs ++ after) := by
  rintro _ _ rest rest' ⟨_, @⟨_, _, before', cs', after', gapBefore', spelled', gapAfter'⟩⟩ closes
    closes' same
  have hcore : cs ++ (after ++ rest) = cs' ++ (after' ++ rest') := by
    rw [← Parser.skipSpace_spells gapBefore spelled,
      ← Parser.skipSpace_spells gapBefore' spelled']
    simpa using congrArg Parser.skipSpace same
  obtain ⟨rfl, hafter⟩ := fixed ⟨_, spelled'⟩ (closes.ends_gap gapAfter)
    (closes'.ends_gap gapAfter') hcore
  have hrest := congrArg Parser.skipSpace hafter
  rw [Parser.skipSpace_gap gapAfter, Parser.skipSpace_gap gapAfter', closes.skipSpace,
    closes'.skipSpace] at hrest
  exact ⟨rfl, hrest⟩

theorem fixes_member (key : SpellsKey k name) (fixed : Fixes (Element reading) Closes v cs) :
    Fixes (Member reading) Closes (k, v) (name ++ cs) := by
  rintro ⟨_, _⟩ _ _ _ ⟨_, _, key', element', rfl⟩ closes closes' same
  rw [List.append_assoc, List.append_assoc] at same
  obtain ⟨rfl, hvalue⟩ := key.unique key' same
  obtain ⟨rfl, hrest⟩ := fixed element' closes closes' hvalue
  exact ⟨rfl, hrest⟩

end Values

/-! Each production fixes what it spells, where its parts do. -/

mutual

theorem Spells.fixes (functional : ∀ t m n, reading t m → reading t n → m = n) :
    ∀ {depth : Nat} {v : Json} {cs : Chars}, Spells reading depth v cs →
      Fixes (Value reading) Ends v cs
  | _, _, _, .null => fixes_word fun begins => begins
  | _, _, _, .isTrue => fixes_word fun begins => begins
  | _, _, _, .isFalse => fixes_word fun begins => begins
  | _, _, _, .number token value => fixes_number functional token value
  | _, _, _, .text string => fixes_text string
  | _, _, _, .emptyArray isGap =>
    fixes_enclosed .array (Enclosed.fixes_gap closer_array isGap) fun begins => begins
  | _, _, _, .array items =>
    fixes_enclosed .array (Enclosed.fixes_parts closer_array items.parts (items.fixes functional))
      fun begins => begins
  | _, _, _, .emptyObject isGap =>
    fixes_enclosed (fun ps => .object (Members.ofPairs ps)) (Enclosed.fixes_gap closer_object isGap)
      fun begins => begins
  | _, _, _, .object pairs =>
    fixes_enclosed (fun ps => .object (Members.ofPairs ps))
      (Enclosed.fixes_parts closer_object pairs.parts (pairs.fixes functional))
      fun begins => begins

theorem SpellsElement.fixes (functional : ∀ t m n, reading t m → reading t n → m = n) :
    ∀ {depth : Nat} {v : Json} {cs : Chars}, SpellsElement reading depth v cs →
      Fixes (Element reading) Closes v cs
  | _, _, _, .around gapBefore value gapAfter =>
    fixes_element gapBefore value gapAfter (value.fixes functional)

theorem SpellsItems.fixes (functional : ∀ t m n, reading t m → reading t n → m = n) :
    ∀ {depth : Nat} {vs : List Json} {cs : Chars}, SpellsItems reading depth vs cs →
      Parts (Fixes (Element reading) Closes) vs cs
  | _, _, _, .one element => .one (element.fixes functional)
  | _, _, _, .more element others => .more (element.fixes functional) (others.fixes functional)

theorem SpellsPairs.fixes (functional : ∀ t m n, reading t m → reading t n → m = n) :
    ∀ {depth : Nat} {ps : List (String × Json)} {cs : Chars}, SpellsPairs reading depth ps cs →
      Parts (Fixes (Member reading) Closes) ps cs
  | _, _, _, .one key element => .one (fixes_member key (element.fixes functional))
  | _, _, _, .more key element others =>
    (others.fixes functional).behind (fixes_member key (element.fixes functional))

end

/-- A text spells at most one value. -/
theorem SpellsElement.unique (functional : ∀ t m n, reading t m → reading t n → m = n)
    {depth depth' : Nat} {v v' : Json} {cs : Chars} (element : SpellsElement reading depth v cs)
    (element' : SpellsElement reading depth' v' cs) : v = v' :=
  (element.fixes functional ⟨_, element'⟩ .nil .nil rfl).1

end CalendarRollup.Json.Grammar
