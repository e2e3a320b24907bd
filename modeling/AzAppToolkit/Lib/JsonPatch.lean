import AzAppToolkit.Lib.Json

set_option autoImplicit false

/-! # Merging one JSON value into another

A body merged into a value replaces the properties it contains, object by object: each of its leaves is
then read as the body has it, and everything apart from them as before. -/

namespace Json

variable {N : Type}

/-- The keys from the root to a property. -/
abbrev Path := List Text

def getPath : Path → Json N → Option (Json N)
  | [], v => some v
  | k :: path, v => (v.get k).bind (getPath path)

def fieldsOf : Json N → List (Text × Json N)
  | .object fields => fields
  | _ => []

mutual

def merge : Json N → Json N → Json N
  | current, .object fields => .object (mergeFields current.fieldsOf fields)
  | _, body => body

def mergeFields : List (Text × Json N) → List (Text × Json N) → List (Text × Json N)
  | current, [] => current
  | current, (k, v) :: rest =>
    mergeFields (insert k (merge ((lookup k current).getD .null) v) current) rest

end

mutual

/-- The paths of what a body replaces. -/
def leaves : Json N → List Path
  | .object fields => leavesIn fields
  | _ => [[]]

def leavesIn : List (Text × Json N) → List Path
  | [] => []
  | (k, v) :: rest => (leaves v).map (k :: ·) ++ leavesIn rest

end

mutual

/-- Every object of the body has fields, of distinct keys. -/
def wellFormed : Json N → Bool
  | .object fields => !fields.isEmpty && wellFormedIn fields
  | _ => true

def wellFormedIn : List (Text × Json N) → Bool
  | [] => true
  | (k, v) :: rest => (lookup k rest).isNone && wellFormed v && wellFormedIn rest

end

/-- Neither property is part of the other. -/
def Apart (p q : Path) : Prop := ¬ p <+: q ∧ ¬ q <+: p

theorem Apart.of_cons {k : Text} {p q : Path} (h : Apart (k :: p) (k :: q)) : Apart p q := by
  refine ⟨fun hp => h.1 ?_, fun hq => h.2 ?_⟩
  · exact List.cons_prefix_cons.2 ⟨rfl, hp⟩
  · exact List.cons_prefix_cons.2 ⟨rfl, hq⟩

/-! ## Fields -/

section Fields

variable {fields : List (Text × Json N)} {k : Text} {v : Json N}

theorem lookup_fieldsOf (k : Text) (v : Json N) : lookup k v.fieldsOf = v.get k := by
  cases v <;> rfl

theorem wellFormed_of_lookup (h : wellFormedIn fields = true) (hv : lookup k fields = some v) :
    wellFormed v = true := by
  induction fields with
  | nil => exact absurd hv (by simp [lookup])
  | cons field rest ih =>
    obtain ⟨k', v'⟩ := field
    simp only [wellFormedIn, Bool.and_eq_true] at h
    unfold lookup at hv
    split at hv
    · exact Option.some.inj hv ▸ h.1.2
    · exact ih h.2 hv

theorem mem_leavesIn (hv : lookup k fields = some v) {l : Path} (hl : l ∈ leaves v) :
    k :: l ∈ leavesIn fields := by
  induction fields with
  | nil => exact absurd hv (by simp [lookup])
  | cons field rest ih =>
    obtain ⟨k', v'⟩ := field
    unfold leavesIn
    unfold lookup at hv
    split at hv
    · next heq =>
      obtain rfl := Option.some.inj hv
      exact List.mem_append_left _ (List.mem_map.2 ⟨l, hl, by rw [heq]⟩)
    · exact List.mem_append_right _ (ih hv)

/-- A key of the body is merged into what is there, any other stays. -/
theorem lookup_mergeFields (h : wellFormedIn fields = true) (current : List (Text × Json N))
    (k : Text) :
    lookup k (mergeFields current fields) =
      match lookup k fields with
      | none => lookup k current
      | some v => some (merge ((lookup k current).getD .null) v) := by
  induction fields generalizing current with
  | nil => rfl
  | cons field rest ih =>
    obtain ⟨k', v'⟩ := field
    simp only [wellFormedIn, Bool.and_eq_true, Option.isNone_iff_eq_none] at h
    obtain ⟨⟨hfresh, -⟩, hrest⟩ := h
    rw [mergeFields, ih hrest, lookup_insert]
    by_cases hk : k' = k
    · subst hk
      simp [lookup, hfresh]
    · simp [lookup, hk]

end Fields

theorem get_merge {fields : List (Text × Json N)} (h : wellFormedIn fields = true)
    (current : Json N) (k : Text) :
    (merge current (.object fields)).get k =
      match lookup k fields with
      | none => current.get k
      | some v => some (merge ((current.get k).getD .null) v) := by
  rw [merge, get, lookup_mergeFields h, lookup_fieldsOf]

/-! ## Paths -/

mutual

theorem leaves_ne_nil : (body : Json N) → wellFormed body = true → leaves body ≠ []
  | .object fields, h => by
      unfold wellFormed at h
      rw [Bool.and_eq_true] at h
      exact leavesIn_ne_nil fields (by simpa using h.1) h.2
  | .null, _ => by simp [leaves]
  | .bool _, _ => by simp [leaves]
  | .number _, _ => by simp [leaves]
  | .string _, _ => by simp [leaves]
  | .array _, _ => by simp [leaves]

theorem leavesIn_ne_nil :
    (fields : List (Text × Json N)) → fields ≠ [] → wellFormedIn fields = true → leavesIn fields ≠ []
  | [], hne, _ => absurd rfl hne
  | (k, v) :: rest, _, h => by
      simp only [wellFormedIn, Bool.and_eq_true] at h
      have hv := leaves_ne_nil v h.1.2
      simp [leavesIn, hv]

end

/-- What is apart from every leaf of the body is as it was. -/
theorem getPath_merge_of_apart {body : Json N} {p : Path} (h : wellFormed body = true)
    (hapart : ∀ l ∈ leaves body, Apart p l) (current : Json N) :
    getPath p (merge current body) = getPath p current := by
  induction p generalizing body current with
  | nil =>
    obtain ⟨l, hl⟩ := List.exists_mem_of_ne_nil _ (leaves_ne_nil body h)
    exact absurd List.nil_prefix (hapart l hl).1
  | cons k p ih =>
    cases body with
    | object fields =>
      simp only [wellFormed, Bool.and_eq_true] at h
      rw [getPath, get_merge h.2, getPath]
      cases hv : lookup k fields with
      | none => rfl
      | some v =>
        have hapart' : ∀ l ∈ leaves v, Apart p l := fun l hl =>
          (hapart (k :: l) (mem_leavesIn hv hl)).of_cons
        have hkept := ih (wellFormed_of_lookup h.2 hv) hapart' ((current.get k).getD .null)
        rw [Option.bind_some, hkept]
        cases hcurrent : current.get k with
        | some c => rfl
        | none =>
          cases p with
          | cons k' p => rfl
          | nil =>
            obtain ⟨l, hl⟩ :=
              List.exists_mem_of_ne_nil _ (leaves_ne_nil v (wellFormed_of_lookup h.2 hv))
            exact absurd List.nil_prefix (hapart' l hl).1
    | null => exact absurd List.nil_prefix (hapart [] (List.mem_singleton_self _)).2
    | bool b => exact absurd List.nil_prefix (hapart [] (List.mem_singleton_self _)).2
    | number n => exact absurd List.nil_prefix (hapart [] (List.mem_singleton_self _)).2
    | string s => exact absurd List.nil_prefix (hapart [] (List.mem_singleton_self _)).2
    | array items => exact absurd List.nil_prefix (hapart [] (List.mem_singleton_self _)).2

/-- A value other than an object replaces what it is merged into. -/
theorem merge_of_not_object {body : Json N} (h : body.asObject = none) (current : Json N) :
    merge current body = body := by
  cases body with
  | object fields => exact absurd h (by simp [asObject])
  | _ => rfl

/-- What the body has at a path is read there. -/
theorem getPath_merge_of_leaf {body v : Json N} {p : Path} (h : wellFormed body = true)
    (hleaf : getPath p body = some v) (hv : v.asObject = none) (current : Json N) :
    getPath p (merge current body) = some v := by
  induction p generalizing body current with
  | nil =>
    obtain rfl := Option.some.inj hleaf
    exact congrArg some (merge_of_not_object hv current)
  | cons k p ih =>
    cases body with
    | object fields =>
      simp only [wellFormed, Bool.and_eq_true] at h
      simp only [getPath, get] at hleaf
      obtain ⟨v', hv', hleaf'⟩ := Option.bind_eq_some_iff.1 hleaf
      rw [getPath, get_merge h.2, hv']
      exact ih (wellFormed_of_lookup h.2 hv') hleaf' _
    | _ => exact absurd hleaf (by simp [getPath, get])

end Json
