import CalendarRollup.Json.Parser

/-! The texts of TOML: strings in their four forms, keys, blanks and comments. Every reader takes
the characters ahead and gives back those it leaves. -/
namespace CalendarRollup.Toml

abbrev Chars := List Char

def isSpace (c : Char) : Bool := c == ' ' || c == '\t'

def skipSpace (cs : Chars) : Chars := cs.dropWhile isSpace

/-- A character that a text or a comment may hold: no control character but the tab. -/
def isPlain (c : Char) : Bool := c == '\t' || (0x20 ≤ c.toNat && c.toNat ≤ 0x7E) || 0x80 ≤ c.toNat

/-- The end of a line: a line feed, with or without a carriage return before it. -/
def lineBreak? : Chars → Option Chars
  | '\n' :: rest => some rest
  | '\r' :: '\n' :: rest => some rest
  | _ => none

/-- What follows a comment, if there is one. -/
def skipComment : Chars → Chars
  | '#' :: rest => rest.dropWhile isPlain
  | cs => cs

/-- The rest of a line that has ended but for blanks and a comment; the last line needs no
break. -/
def lineEnd (cs : Chars) : Option Chars :=
  match skipComment (skipSpace cs) with
  | [] => some []
  | rest => lineBreak? rest

/-- Blanks, comments and line breaks. A comment ends at a line break. -/
def skipLines : Nat → Chars → Option Chars
  | 0, _ => none
  | fuel + 1, cs =>
    match skipSpace cs with
    | '#' :: rest => do skipLines fuel (← lineBreak? (rest.dropWhile isPlain))
    | '\n' :: rest => skipLines fuel rest
    | '\r' :: rest => do skipLines fuel (← lineBreak? ('\r' :: rest))
    | rest => some rest

/-- A code point in a number of hexadecimal digits, which may not be half of a pair. -/
def codePoint (digits : Nat) (cs : Chars) : Option (Char × Chars) := do
  if cs.length < digits then none
  let values ← (cs.take digits).mapM Json.Parser.hexValue?
  let n := values.foldl (fun n v => n * 16 + v) 0
  if n < 0xD800 ∨ (0xDFFF < n ∧ n < 0x110000) then some (Char.ofNat n, cs.drop digits) else none

/-- The character of an escape, with the reader past its backslash. -/
def escaped : Chars → Option (Char × Chars)
  | 'b' :: rest => some ('\x08', rest)
  | 't' :: rest => some ('\t', rest)
  | 'n' :: rest => some ('\n', rest)
  | 'f' :: rest => some ('\x0c', rest)
  | 'r' :: rest => some ('\r', rest)
  | '"' :: rest => some ('"', rest)
  | '\\' :: rest => some ('\\', rest)
  | 'u' :: rest => codePoint 4 rest
  | 'U' :: rest => codePoint 8 rest
  | _ => none

/-- The rest of a basic string of one line, with the reader past its quote. -/
def basicChars : Nat → Chars → Option (Chars × Chars)
  | 0, _ => none
  | fuel + 1, cs => match cs with
    | [] => none
    | '"' :: rest => some ([], rest)
    | '\\' :: rest => do
      let (c, rest) ← escaped rest
      let (s, rest) ← basicChars fuel rest
      some (c :: s, rest)
    | c :: rest =>
      if isPlain c then do
        let (s, rest) ← basicChars fuel rest
        some (c :: s, rest)
      else none

/-- The rest of a literal string of one line, which has no escapes. -/
def literalChars : Chars → Option (Chars × Chars)
  | [] => none
  | '\'' :: rest => some ([], rest)
  | c :: rest =>
    if isPlain c then do
      let (s, rest) ← literalChars rest
      some (c :: s, rest)
    else none

/-- The quotes ahead, at least three of them: the last three close the string, and up to two before
them belong to it. -/
def closing (quote : Char) (cs : Chars) : Chars × Chars :=
  let count := min ((cs.takeWhile (· == quote)).length) 5
  (List.replicate (count - 3) quote, cs.drop count)

def opensThree (quote : Char) (cs : Chars) : Bool := cs.take 3 == [quote, quote, quote]

/-- Blanks and line breaks. -/
def skipBreaks : Chars → Chars
  | '\r' :: '\n' :: rest => skipBreaks rest
  | c :: rest => if isSpace c || c == '\n' then skipBreaks rest else c :: rest
  | [] => []

/-- A backslash at the end of a line joins it with the next character that is no blank. -/
def joinLines (cs : Chars) : Option Chars := (lineBreak? (skipSpace cs)).map skipBreaks

/-- The rest of a string of several lines. Escapes count only where `escapes` says so; every line
break is a line feed. -/
def longChars (quote : Char) (escapes : Bool) : Nat → Chars → Option (Chars × Chars)
  | 0, _ => none
  | fuel + 1, cs =>
    if opensThree quote cs then some (closing quote cs)
    else match lineBreak? cs with
      | some rest => do
        let (s, rest) ← longChars quote escapes fuel rest
        some ('\n' :: s, rest)
      | none => match cs with
        | [] => none
        | c :: rest =>
          if escapes && c == '\\' then
            match joinLines rest with
            | some rest => longChars quote escapes fuel rest
            | none => do
              let (c, rest) ← escaped rest
              let (s, rest) ← longChars quote escapes fuel rest
              some (c :: s, rest)
          else if isPlain c then do
            let (s, rest) ← longChars quote escapes fuel rest
            some (c :: s, rest)
          else none

/-- A string of several lines, with the reader past its opening quotes. A line break right after
them does not count. -/
def longString (quote : Char) (escapes : Bool) (cs : Chars) : Option (Chars × Chars) :=
  longChars quote escapes (cs.length + 1) ((lineBreak? cs).getD cs)

/-- A string in any form. -/
def string (cs : Chars) : Option (String × Chars) := do
  let (s, rest) ← match cs with
    | '"' :: '"' :: '"' :: rest => longString '"' true rest
    | '"' :: rest => basicChars (rest.length + 1) rest
    | '\'' :: '\'' :: '\'' :: rest => longString '\'' false rest
    | '\'' :: rest => literalChars rest
    | _ => none
  some (String.ofList s, rest)

def isBareKey (c : Char) : Bool := c.isAlphanum || c == '_' || c == '-'

/-- One part of a key: bare, or a string of one line. -/
def keyPart (cs : Chars) : Option (String × Chars) := do
  let (s, rest) ← match cs with
    | '"' :: rest => basicChars (rest.length + 1) rest
    | '\'' :: rest => literalChars rest
    | cs =>
      let word := cs.takeWhile isBareKey
      if word.isEmpty then none else some (word, cs.drop word.length)
  some (String.ofList s, rest)

/-- The parts of a key with points and blanks between them. -/
def keyParts : Nat → Chars → Option (List String × Chars)
  | 0, _ => none
  | fuel + 1, cs => do
    let (part, rest) ← keyPart (skipSpace cs)
    match skipSpace rest with
    | '.' :: rest => do
      let (parts, rest) ← keyParts fuel rest
      some (part :: parts, rest)
    | rest => some ([part], rest)

/-- The most parts that a key may have. -/
def maxKeyParts : Nat := 79

/-- A key as the path to its last part, and that part. -/
def key (cs : Chars) : Option (List String × String × Chars) := do
  let (parts, rest) ← keyParts (maxKeyParts) cs
  some (parts.dropLast, ← parts.getLast?, rest)

end CalendarRollup.Toml
