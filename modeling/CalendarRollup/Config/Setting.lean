import CalendarRollup.Calendar.Json
import CalendarRollup.Rollup.Fault

/-! Settings as they are found in a document, before it is known what they mean, and how shapes
are read from them. A refusal is about the shape of a setting, or it is a fault of what the setting
says. -/
namespace CalendarRollup

/-- Shapes that no setting has, such as fractions, are not told apart. -/
inductive Setting where
  | empty
  | integer (value : Int)
  | text (value : String)
  | other
  | list (items : List Setting)
  | table (entries : List (String × Setting))
  deriving Repr, Inhabited

inductive Refusal where
  | shape
  | calendar (fault : CalendarFault)
  | request (fault : RequestFault)
  deriving Repr

namespace Setting

/-- What a kind of document allows beyond the plain shapes. -/
structure Dialect where
  /-- A list in place of a table may have more items than the table has fields. -/
  surplusItems : Bool
  /-- The content of a choice that has none, where it is written as a table of one entry. -/
  isNothing : Setting → Bool

namespace Dialect

/-- JSON documents. -/
def json : Dialect where
  surplusItems := false
  isNothing
    | .empty => true
    | _ => false

/-- TOML documents. -/
def toml : Dialect where
  surplusItems := true
  isNothing
    | .list [] => true
    | .table [] => true
    | _ => false

/-- Settings inside a table with a tag, in either kind of document. -/
def tagged : Dialect where
  surplusItems := false
  isNothing
    | .empty => true
    | .table [] => true
    | _ => false

end Dialect

abbrev Decoder (α : Type) := Setting → Except Refusal α

def asText : Decoder String
  | .text s => .ok s
  | _ => .error .shape

def asIntegerIn (low high : Int) : Decoder Int
  | .integer i => if low ≤ i ∧ i ≤ high then .ok i else .error .shape
  | _ => .error .shape

/-- A whole number below `2 ^ 64`. -/
def asCount : Decoder Nat := fun s => do
  let i ← asIntegerIn 0 18446744073709551615 s
  return i.toNat

def asList (item : Decoder α) : Decoder (List α)
  | .list items => items.mapM item
  | _ => .error .shape

def asOptional (content : Decoder α) : Decoder (Option α)
  | .empty => .ok none
  | s => (content s).map some

/-- A choice by its name, or by a table whose one entry has that name and no content. -/
def asChoice (dialect : Dialect) (named : String → Option α) : Decoder α
  | .text name =>
    match named name with
    | some choice => .ok choice
    | none => .error .shape
  | .table [(name, content)] =>
    match named name with
    | some choice => if dialect.isNothing content then .ok choice else .error .shape
    | none => .error .shape
  | _ => .error .shape

/-- The entries of a table, or the items of a list under the names of the fields. -/
structure Fields where
  entries : List (String × Setting)
  /-- Whether a list has items that no field takes, and that may not be there. -/
  surplus : Bool

namespace Fields

/-- Reads the entries with the checks of their fields: the first refused one decides. Entries of
other names are allowed. -/
def check (fields : Fields) (checks : List (String × Decoder Unit)) : Except Refusal Unit := do
  fields.entries.forM fun entry =>
    match checks.lookup entry.1 with
    | some decoder => decoder entry.2
    | none => .ok ()
  if fields.surplus then .error .shape else .ok ()

def optional? (fields : Fields) (name : String) (decoder : Decoder α) :
    Except Refusal (Option α) :=
  match fields.entries.lookup name with
  | some s => (decoder s).map some
  | none => .ok none

def required (fields : Fields) (name : String) (decoder : Decoder α) : Except Refusal α :=
  match fields.entries.lookup name with
  | some s => decoder s
  | none => .error .shape

end Fields

/-- The check that a decoder makes, without its result. -/
def checked (decoder : Decoder α) : Decoder Unit := fun s => (decoder s).map fun _ => ()

def asFields (dialect : Dialect) (names : List String) : Decoder Fields
  | .table entries => .ok ⟨entries, false⟩
  | .list items =>
    .ok ⟨names.zip items, !dialect.surplusItems && names.length < items.length⟩
  | _ => .error .shape

/-- A table with a tag: the tag, and the fields that the tag's case has. A list has the tag as its
first item. -/
def asTagged (tag : String) (names : String → Option (List String)) :
    Decoder (String × Fields)
  | .table entries => do
    match entries.lookup tag with
    | some (.text name) =>
      match names name with
      | some _ => .ok (name, ⟨entries.filter (·.1 != tag), false⟩)
      | none => .error .shape
    | _ => .error .shape
  | .list (.text name :: items) =>
    match names name with
    | some fields => .ok (name, ⟨fields.zip items, fields.length < items.length⟩)
    | none => .error .shape
  | _ => .error .shape

end Setting

mutual

/-- A JSON value as a setting. -/
def Json.toSetting : Json → Setting
  | .null => .empty
  | .bool _ => .other
  | .number (.integer i _) => .integer i
  | .number (.float _) => .other
  | .text s => .text s
  | .array items => .list (itemSettings items)
  | .object members => .table (memberSettings members)

def Json.itemSettings : List Json → List Setting
  | [] => []
  | value :: rest => value.toSetting :: itemSettings rest

def Json.memberSettings : List (String × Json) → List (String × Setting)
  | [] => []
  | (key, value) :: rest => (key, value.toSetting) :: memberSettings rest

end

end CalendarRollup
