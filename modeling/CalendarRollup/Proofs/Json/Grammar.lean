import CalendarRollup.Json.Parser

/-! The texts that spell JSON values, apart from how they are read. A repeated key takes its last
value. What number a numeral stands for is left to a relation. -/
namespace CalendarRollup.Json
open Json.Parser (Chars Token)

namespace Grammar

/-- Blanks between the parts of a text. -/
def IsGap (cs : Chars) : Prop := ∀ c ∈ cs, c ∈ [' ', '\t', '\n', '\r']

theorem isGap_nil : IsGap [] := nofun

/-- A digit to the base sixteen, in small or capital letters. -/
def IsHex (c : Char) (value : Nat) : Prop :=
  "0123456789abcdef".toList[value]? = some c ∨ "0123456789ABCDEF".toList[value]? = some c

instance (c : Char) (value : Nat) : Decidable (IsHex c value) :=
  inferInstanceAs (Decidable (_ ∨ _))

/-- Four digits of a code unit. -/
inductive SpellsUnit : Nat → Chars → Prop
  | digits {a b c d : Char} {p q r s : Nat} (first : IsHex a p) (second : IsHex b q)
    (third : IsHex c r) (fourth : IsHex d s) :
    SpellsUnit (((p * 16 + q) * 16 + r) * 16 + s) [a, b, c, d]

/-- The letters that stand for a character behind a backslash. -/
def shortEscapes : List (Char × Char) :=
  [('"', '"'), ('\\', '\\'), ('/', '/'), ('b', '\x08'), ('f', '\x0c'), ('n', '\n'), ('r', '\r'),
    ('t', '\t')]

/-- The ways to write a character inside a string: as itself, behind a backslash, as its code unit
or, past the last code unit, as a pair of surrogates. -/
inductive SpellsChar (c : Char) : Chars → Prop
  | plain (printable : 0x20 ≤ c.toNat) (notQuote : c ≠ '"') (notBackslash : c ≠ '\\') :
    SpellsChar c [c]
  | short {letter : Char} (known : (letter, c) ∈ shortEscapes) : SpellsChar c ['\\', letter]
  | unit {ds : Chars} (digits : SpellsUnit c.toNat ds) : SpellsChar c ('\\' :: 'u' :: ds)
  | pair {lead trail : Nat} {ds es : Chars} (leadDigits : SpellsUnit lead ds)
    (trailDigits : SpellsUnit trail es) (isLead : 0xD800 ≤ lead ∧ lead < 0xDC00)
    (isTrail : 0xDC00 ≤ trail ∧ trail < 0xE000)
    (decoded : c.toNat = 0x10000 + (lead - 0xD800) * 0x400 + (trail - 0xDC00)) :
    SpellsChar c ('\\' :: 'u' :: (ds ++ '\\' :: 'u' :: es))

/-- The inside of a string. -/
inductive SpellsChars : Chars → Chars → Prop
  | nil : SpellsChars [] []
  | cons {c : Char} {s cs rest : Chars} (char : SpellsChar c cs) (others : SpellsChars s rest) :
    SpellsChars (c :: s) (cs ++ rest)

inductive SpellsString (s : String) : Chars → Prop
  | quoted {cs : Chars} (inside : SpellsChars s.toList cs) : SpellsString s ('"' :: (cs ++ ['"']))

/-- The key of a member and the colon after it. -/
inductive SpellsKey (key : String) : Chars → Prop
  | colon {before cs after : Chars} (gapBefore : IsGap before) (string : SpellsString key cs)
    (gapAfter : IsGap after) : SpellsKey key (before ++ cs ++ after ++ [':'])

def IsDigits (cs : Chars) : Prop := cs ≠ [] ∧ ∀ c ∈ cs, c.isDigit

/-- The whole part of a number has no superfluous zero in front. -/
def IsWhole (cs : Chars) : Prop := IsDigits cs ∧ (cs.head? = some '0' → cs = ['0'])

theorem isWhole_zero : IsWhole ['0'] :=
  ⟨⟨List.cons_ne_nil _ _, List.forall_mem_singleton.mpr rfl⟩, fun _ => rfl⟩

inductive SpellsFraction : Option Chars → Chars → Prop
  | absent : SpellsFraction none []
  | point {ds : Chars} (digits : IsDigits ds) : SpellsFraction (some ds) ('.' :: ds)

/-- An exponent may have a sign. -/
inductive SpellsExponent : Option (Bool × Chars) → Chars → Prop
  | absent : SpellsExponent none []
  | unsigned {mark : Char} {ds : Chars} (isMark : mark = 'e' ∨ mark = 'E') (digits : IsDigits ds) :
    SpellsExponent (some (false, ds)) (mark :: ds)
  | signed {mark : Char} {negative : Bool} {ds : Chars} (isMark : mark = 'e' ∨ mark = 'E')
    (digits : IsDigits ds) :
    SpellsExponent (some (negative, ds)) (mark :: (if negative then '-' else '+') :: ds)

inductive SpellsToken : Token → Chars → Prop
  | parts {negative : Bool} {whole : Chars} {fraction : Option Chars}
    {exponent : Option (Bool × Chars)} {fractionCs exponentCs : Chars} (isWhole : IsWhole whole)
    (isFraction : SpellsFraction fraction fractionCs)
    (isExponent : SpellsExponent exponent exponentCs) :
    SpellsToken ⟨negative, whole, fraction, exponent⟩
      ((if negative then ['-'] else []) ++ (whole ++ (fractionCs ++ exponentCs)))

mutual

/-- A value, with at most `depth` arrays and objects inside one another. -/
inductive Spells (reading : Token → Number → Prop) : Nat → Json → Chars → Prop
  | null {depth : Nat} : Spells reading depth .null ['n', 'u', 'l', 'l']
  | isTrue {depth : Nat} : Spells reading depth (.bool true) ['t', 'r', 'u', 'e']
  | isFalse {depth : Nat} : Spells reading depth (.bool false) ['f', 'a', 'l', 's', 'e']
  | number {depth : Nat} {t : Token} {n : Number} {cs : Chars} (token : SpellsToken t cs)
    (value : reading t n) : Spells reading depth (.number n) cs
  | text {depth : Nat} {s : String} {cs : Chars} (string : SpellsString s cs) :
    Spells reading depth (.text s) cs
  | emptyArray {depth : Nat} {gap : Chars} (isGap : IsGap gap) :
    Spells reading (depth + 1) (.array []) ('[' :: (gap ++ [']']))
  | array {depth : Nat} {vs : List Json} {cs : Chars} (items : SpellsItems reading depth vs cs) :
    Spells reading (depth + 1) (.array vs) ('[' :: (cs ++ [']']))
  | emptyObject {depth : Nat} {gap : Chars} (isGap : IsGap gap) :
    Spells reading (depth + 1) (.object []) ('{' :: (gap ++ ['}']))
  | object {depth : Nat} {ps : List (String × Json)} {cs : Chars}
    (pairs : SpellsPairs reading depth ps cs) :
    Spells reading (depth + 1) (.object (Members.ofPairs ps)) ('{' :: (cs ++ ['}']))

/-- A value with gaps around it, which is what a whole text is. -/
inductive SpellsElement (reading : Token → Number → Prop) : Nat → Json → Chars → Prop
  | around {depth : Nat} {v : Json} {before cs after : Chars} (gapBefore : IsGap before)
    (value : Spells reading depth v cs) (gapAfter : IsGap after) :
    SpellsElement reading depth v (before ++ cs ++ after)

/-- One or more items, with commas between them. -/
inductive SpellsItems (reading : Token → Number → Prop) : Nat → List Json → Chars → Prop
  | one {depth : Nat} {v : Json} {cs : Chars} (element : SpellsElement reading depth v cs) :
    SpellsItems reading depth [v] cs
  | more {depth : Nat} {v : Json} {vs : List Json} {cs rest : Chars}
    (element : SpellsElement reading depth v cs) (others : SpellsItems reading depth vs rest) :
    SpellsItems reading depth (v :: vs) (cs ++ ',' :: rest)

/-- One or more members, with commas between them. -/
inductive SpellsPairs (reading : Token → Number → Prop) :
    Nat → List (String × Json) → Chars → Prop
  | one {depth : Nat} {k : String} {v : Json} {name cs : Chars} (key : SpellsKey k name)
    (element : SpellsElement reading depth v cs) : SpellsPairs reading depth [(k, v)] (name ++ cs)
  | more {depth : Nat} {k : String} {v : Json} {ps : List (String × Json)} {name cs rest : Chars}
    (key : SpellsKey k name) (element : SpellsElement reading depth v cs)
    (others : SpellsPairs reading depth ps rest) :
    SpellsPairs reading depth ((k, v) :: ps) (name ++ (cs ++ ',' :: rest))

end

end Grammar
end CalendarRollup.Json
