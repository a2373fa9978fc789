import CalendarRollup.Decimal.Binary64

/-! JSON values. Whole numbers from `-2 ^ 63` up to `2 ^ 64 - 1` stay exact, all other numbers are
binary floating point; an object keeps its members in order. -/
namespace CalendarRollup

/-- The whole numbers that stay exact. -/
def Json.IsExact (i : Int) : Prop := -9223372036854775808 ≤ i ∧ i < 18446744073709551616

instance (i : Int) : Decidable (Json.IsExact i) := inferInstanceAs (Decidable (_ ∧ _))

inductive Json.Number where
  | integer (value : Int) (exact : Json.IsExact value)
  | float (value : Binary64)
  deriving DecidableEq, Repr

inductive Json where
  | null
  | bool (value : Bool)
  | number (value : Json.Number)
  | text (value : String)
  | array (items : List Json)
  | object (members : List (String × Json))
  deriving Repr, Inhabited

namespace Json

/-- The members of an object, in order. -/
abbrev Members := List (String × Json)

namespace Members

def get? (members : Members) (key : String) : Option Json :=
  (members.find? (·.1 == key)).map (·.2)

/-- A key that is there keeps its place and takes the new value; a new key goes to the end. -/
def insert (members : Members) (key : String) (value : Json) : Members :=
  match members with
  | [] => [(key, value)]
  | (k, v) :: rest => if k = key then (k, value) :: rest else (k, v) :: insert rest key value

/-- Members as written, with each repeated key at its first place and with its last value. -/
def ofPairs (pairs : List (String × Json)) : Members :=
  pairs.foldl (fun members p => Members.insert members p.1 p.2) []

def keys (members : Members) : List String := members.map (·.1)

@[simp] theorem keys_insert (members : Members) (key : String) (value : Json) :
    (members.insert key value).keys =
      if key ∈ members.keys then members.keys else members.keys ++ [key] := by
  induction members with
  | nil => simp [insert, keys]
  | cons p rest ih =>
    obtain ⟨k, v⟩ := p
    by_cases h : k = key
    · simp [insert, keys, h]
    · have h' : key ≠ k := fun e => h e.symm
      simp only [insert, h, if_false, keys, List.map_cons, List.mem_cons, h', false_or]
      simp only [keys] at ih
      rw [ih]
      split <;> simp_all

theorem nodup_keys_insert {members : Members} {key : String} {value : Json}
    (nodup : members.keys.Nodup) : (members.insert key value).keys.Nodup := by
  rw [keys_insert]
  split
  next => exact nodup
  next hkey =>
    refine List.nodup_append.mpr ⟨nodup, by simp, ?_⟩
    rintro k hk _ hlast rfl
    exact hkey (List.mem_singleton.mp hlast ▸ hk)

/-- Whatever the members that are written, no key is left twice. -/
theorem nodup_keys_ofPairs (pairs : List (String × Json)) : (ofPairs pairs).keys.Nodup := by
  suffices hfold : ∀ members : Members, members.keys.Nodup →
      (keys (pairs.foldl (fun members p => Members.insert members p.1 p.2) members)).Nodup from
    hfold [] .nil
  induction pairs with
  | nil => exact fun _ nodup => nodup
  | cons p rest ih => exact fun members nodup => ih _ (nodup_keys_insert nodup)

end Members

/-- A member of an object; other values have none. -/
def get? (value : Json) (key : String) : Option Json :=
  match value with
  | .object members => Members.get? members key
  | _ => none

def ofNat (n : Nat) (fits : n < 18446744073709551616 := by decide) : Json :=
  .number (.integer n ⟨by omega, by omega⟩)

/-- A whole number, where it is in the exact range. -/
def ofInt? (i : Int) : Option Json :=
  if h : IsExact i then some (.number (.integer i h)) else none

end Json
end CalendarRollup
