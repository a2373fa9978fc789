/-! Texts without the blanks around them, parts of texts, and texts as literals of the query
language. -/
namespace CalendarRollup.Text

/-- The characters with the Unicode property `White_Space`. -/
def isBlank (c : Char) : Bool :=
  let n := c.toNat
  (9 ≤ n && n ≤ 13) || n == 0x20 || n == 0x85 || n == 0xA0 || n == 0x1680 ||
    (0x2000 ≤ n && n ≤ 0x200A) || n == 0x2028 || n == 0x2029 || n == 0x202F ||
    n == 0x205F || n == 0x3000

def trimStart (cs : List Char) : List Char := cs.dropWhile isBlank

def trimEnd (cs : List Char) : List Char := (cs.reverse.dropWhile isBlank).reverse

/-- The text without leading and trailing blanks. -/
def trim (s : String) : String := String.ofList (trimEnd (trimStart s.toList))

/-- A text that is nothing but blanks, or empty. -/
def isAllBlank (s : String) : Bool := s.toList.all isBlank

/-! Searching a text for a part of it. -/

def occursIn (part : List Char) : List Char → Bool
  | [] => part.isEmpty
  | c :: cs => part.isPrefixOf (c :: cs) || occursIn part cs

theorem occursIn_iff {part cs : List Char} : occursIn part cs = true ↔ part <:+: cs := by
  induction cs with
  | nil => simp [occursIn, List.isEmpty_iff]
  | cons c cs ih => simp [occursIn, ih, List.infix_cons_iff]

/-! Literals. -/

/-- A quote inside a literal is written twice. -/
def doubled (c : Char) : List Char := if c = '\'' then ['\'', '\''] else [c]

def literalChars (cs : List Char) : List Char := '\'' :: cs.flatMap doubled ++ ['\'']

/-- The text between single quotes. -/
def literal (s : String) : String := String.ofList (literalChars s.toList)

end CalendarRollup.Text
