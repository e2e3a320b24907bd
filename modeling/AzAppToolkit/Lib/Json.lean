import AzAppToolkit.Lib.Text

set_option autoImplicit false

/-! # JSON values

A `serde_json::Value`, over whatever the numbers are. An object is the list of its fields in the order of
their keys, as the map behind it keeps them; a field is inserted in its place. -/

inductive Json (N : Type) where
  | null
  | bool (b : Bool)
  | number (n : N)
  | string (s : Text)
  | array (items : List (Json N))
  | object (fields : List (Text × Json N))

namespace Json

variable {N : Type}

/-- The value under a key. -/
def lookup (key : Text) : List (Text × Json N) → Option (Json N)
  | [] => none
  | (k, v) :: fields => if k = key then some v else lookup key fields

/-- `Map::insert`. -/
def insert (key : Text) (value : Json N) : List (Text × Json N) → List (Text × Json N)
  | [] => [(key, value)]
  | (k, v) :: fields =>
    if key = k then (key, value) :: fields
    else if key < k then (key, value) :: (k, v) :: fields
    else (k, v) :: insert key value fields

/-- `Value::get` with a key. -/
def get (key : Text) : Json N → Option (Json N)
  | object fields => lookup key fields
  | _ => none

def asStr : Json N → Option Text
  | string s => some s
  | _ => none

def asBool : Json N → Option Bool
  | bool b => some b
  | _ => none

def asArray : Json N → Option (List (Json N))
  | array items => some items
  | _ => none

def asObject : Json N → Option (List (Text × Json N))
  | object fields => some fields
  | _ => none

theorem lookup_insert (key k : Text) (value : Json N) (fields : List (Text × Json N)) :
    lookup k (insert key value fields) = if key = k then some value else lookup k fields := by
  induction fields with
  | nil => rfl
  | cons field fields ih =>
    obtain ⟨k', v⟩ := field
    unfold insert
    split
    · next heq =>
      subst heq
      by_cases hk : key = k <;> simp [lookup, hk]
    · next hne =>
      split
      · rfl
      · rw [lookup, ih]
        by_cases hk : key = k
        · have hk' : k' ≠ k := fun h => hne (hk.trans h.symm)
          simp [hk, hk']
        · simp [lookup, hk]

end Json
