import CalendarRollup.Config.Setting

/-! TOML documents as they grow, statement by statement, and what may be added to them. A table is
defined once: by its header, or by the dotted keys of one table. -/
namespace CalendarRollup.Toml

/-- How a table came to be: by its own header, by the header of a table inside it, or by a dotted
key. -/
inductive Origin where
  | header
  | implied
  | dotted
  deriving DecidableEq, Repr

inductive Node where
  | value (setting : Setting)
  | table (origin : Origin) (entries : List (String × Node))
  /-- The tables of one double-bracketed header, in order. -/
  | tables (elements : List (List (String × Node)))
  deriving Repr, Inhabited

abbrev Entries := List (String × Node)

namespace Entries

/-- Puts another node in the place of the one under a key. -/
def replace (entries : Entries) (key : String) (node : Node) : Entries :=
  entries.map fun entry => if entry.1 = key then (key, node) else entry

/-- A new key goes to the end; no key comes twice. -/
def add (entries : Entries) (key : String) (node : Node) : Option Entries :=
  match entries.lookup key with
  | none => some (entries ++ [(key, node)])
  | some _ => none

/-- Changes the last of some tables. -/
def changeLast (change : Entries → Option Entries) : List Entries → Option (List Entries)
  | [] => none
  | [last] => do some [← change last]
  | first :: rest => do some (first :: (← changeLast change rest))

/-- Puts a value under a dotted key. The tables on the way may not have headers, and the table that
takes the value is made of dotted keys alone. -/
def assign (entries : Entries) (path : List String) (key : String) (setting : Setting) :
    Option Entries :=
  match path with
  | [] => entries.add key (.value setting)
  | name :: rest =>
    match entries.lookup name with
    | none => do some (entries ++ [(name, .table .dotted (← assign [] rest key setting))])
    | some (.table origin inner) =>
      if origin = .header ∨ (rest = [] ∧ origin ≠ .dotted) then none
      else do some (entries.replace name (.table origin (← assign inner rest key setting)))
    | some (.tables elements) =>
      if rest = [] then none
      else do
        some (entries.replace name
          (.tables (← changeLast (fun inner => assign inner rest key setting) elements)))
    | some (.value _) => none

/-- Changes the entries that a header's path leads to. Tables that are missing on the way are
implied; of several tables under one key the last is taken. -/
def change (edit : Entries → Option Entries) (path : List String) (entries : Entries) :
    Option Entries :=
  match path with
  | [] => edit entries
  | name :: rest =>
    match entries.lookup name with
    | none => do some (entries ++ [(name, .table .implied (← change edit rest []))])
    | some (.table origin inner) => do
      some (entries.replace name (.table origin (← change edit rest inner)))
    | some (.tables elements) => do
      some (entries.replace name (.tables (← changeLast (change edit rest) elements)))
    | some (.value _) => none

/-- Opens a table by its header. One that was only implied goes to the end. -/
def openTable (key : String) (entries : Entries) : Option Entries :=
  match entries.lookup key with
  | none => some (entries ++ [(key, .table .header [])])
  | some (.table .implied inner) =>
    some (entries.filter (·.1 != key) ++ [(key, .table .header inner)])
  | some _ => none

/-- Opens one more table under a double-bracketed header. -/
def openElement (key : String) (entries : Entries) : Option Entries :=
  match entries.lookup key with
  | none => some (entries ++ [(key, .tables [[]])])
  | some (.tables elements) => some (entries.replace key (.tables (elements ++ [[]])))
  | some _ => none

end Entries

mutual

def Node.toSetting : Node → Setting
  | .value setting => setting
  | .table _ entries => .table (entrySettings entries)
  | .tables elements => .list (elementSettings elements)

def entrySettings : List (String × Node) → List (String × Setting)
  | [] => []
  | (key, node) :: rest => (key, node.toSetting) :: entrySettings rest

def elementSettings : List (List (String × Node)) → List Setting
  | [] => []
  | entries :: rest => .table (entrySettings entries) :: elementSettings rest

end

/-- One line of a document, with its key path; the last part of the path stands apart. -/
inductive Statement where
  | assign (path : List String) (key : String) (setting : Setting)
  | table (path : List String) (key : String)
  | element (path : List String) (key : String)
  deriving Repr

/-- A document, and the path of the table that assignments go to. -/
structure Document where
  root : Entries
  current : List String
  deriving Repr

namespace Document

def empty : Document := ⟨[], []⟩

def add (document : Document) : Statement → Option Document
  | .assign path key setting => do
    let root ← document.root.change (fun entries => entries.assign path key setting)
      document.current
    some { document with root }
  | .table path key => do
    let root ← document.root.change (Entries.openTable key) path
    some ⟨root, path ++ [key]⟩
  | .element path key => do
    let root ← document.root.change (Entries.openElement key) path
    some ⟨root, path ++ [key]⟩

def toSetting (document : Document) : Setting := .table (entrySettings document.root)

end Document
end CalendarRollup.Toml
