import CalendarRollup.Toml.Document
import CalendarRollup.Toml.Scalar

/-! Reading TOML documents. Every reader takes the characters ahead and gives back those it
leaves. -/
namespace CalendarRollup.Toml

/-- How many arrays and inline tables may stand inside one another. -/
def maxDepth : Nat := 79

mutual

/-- A value; `depth` more levels may open inside it. -/
def value : Nat → Nat → Chars → Option (Setting × Chars)
  | 0, _, _ => none
  | fuel + 1, depth, cs => match cs with
    | '[' :: rest => match depth with
      | 0 => none
      | depth + 1 => do
        let (items, rest) ← items fuel depth rest
        some (.list items, rest)
    | '{' :: rest => match depth with
      | 0 => none
      | depth + 1 => match skipSpace rest with
        | '}' :: rest => some (.table [], rest)
        | rest => do
          let (entries, rest) ← entries fuel depth [] rest
          some (.table (entrySettings entries), rest)
    | '"' :: _ => do
      let (s, rest) ← string cs
      some (.text s, rest)
    | '\'' :: _ => do
      let (s, rest) ← string cs
      some (.text s, rest)
    | cs => scalar cs

/-- The items of an array up to its closing bracket; the last may have a comma after it. -/
def items : Nat → Nat → Chars → Option (List Setting × Chars)
  | 0, _, _ => none
  | fuel + 1, depth, cs => do
    match ← skipLines (cs.length + 1) cs with
    | ']' :: rest => some ([], rest)
    | rest =>
      let (item, rest) ← value fuel depth rest
      match ← skipLines (rest.length + 1) rest with
      | ',' :: rest =>
        let (more, rest) ← items fuel depth rest
        some (item :: more, rest)
      | ']' :: rest => some ([item], rest)
      | _ => none

/-- The entries of an inline table up to its closing brace, added to those before them. -/
def entries : Nat → Nat → Entries → Chars → Option (Entries × Chars)
  | 0, _, _, _ => none
  | fuel + 1, depth, before, cs => do
    let (path, last, rest) ← key cs
    match rest with
    | '=' :: rest =>
      let (setting, rest) ← value fuel depth (skipSpace rest)
      let before ← before.assign path last setting
      match skipSpace rest with
      | ',' :: rest => entries fuel depth before rest
      | '}' :: rest => some (before, rest)
      | _ => none
    | _ => none

end

/-- A statement, with the reader past the blanks and empty lines before it. -/
def statement (cs : Chars) : Option (Statement × Chars) :=
  match cs with
  | '[' :: '[' :: rest => do
    let (path, last, rest) ← key rest
    match rest with
    | ']' :: ']' :: rest => some (.element path last, rest)
    | _ => none
  | '[' :: rest => do
    let (path, last, rest) ← key rest
    match rest with
    | ']' :: rest => some (.table path last, rest)
    | _ => none
  | cs => do
    let (path, last, rest) ← key cs
    match rest with
    | '=' :: rest =>
      let (setting, rest) ← value (2 * rest.length + 2) maxDepth (skipSpace rest)
      some (.assign path last setting, rest)
    | _ => none

/-- What stands before a statement: blanks, comments and empty lines. -/
def skipToStatement : Nat → Chars → Option Chars
  | 0, _ => none
  | fuel + 1, cs =>
    match skipComment (skipSpace cs) with
    | [] => some []
    | rest =>
      match lineBreak? rest with
      | some rest => skipToStatement fuel rest
      | none =>
        match skipSpace cs with
        | '#' :: _ => none
        | rest => some rest

/-- Statements up to the end of the text, each on a line of its own. -/
def statements : Nat → Document → Chars → Option Document
  | 0, _, _ => none
  | fuel + 1, document, cs => do
    match ← skipToStatement (cs.length + 1) cs with
    | [] => some document
    | rest =>
      let (statement, rest) ← statement rest
      statements fuel (← document.add statement) (← lineEnd rest)

/-- The settings of a document, which may begin with a byte order mark. -/
def parse? (text : String) : Option Setting :=
  let cs := match text.toList with
    | '\ufeff' :: rest => rest
    | cs => cs
  (statements (cs.length + 1) .empty cs).map Document.toSetting

end CalendarRollup.Toml
