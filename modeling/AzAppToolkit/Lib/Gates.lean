import AzAppToolkit.Lib.Run
import AzAppToolkit.Lib.Table

set_option autoImplicit false

/-! # Locks in a table that forgets the idle ones

A table has a lock for each key that was asked for. A call takes a clone of its key's lock, holds the
lock over what it does and drops the clone. An entry may be swept out of the table at any time if no call
has a clone of it. So two calls that have a clone for one key have the same lock, and the calls that read,
edit and write a resource under its key's lock take effect one after the other. -/

namespace Gates

variable {χ κ ι ν : Type}

/-! ## Calls -/

/-- What a call does under the lock of its key: nothing that is told here, or to read a resource and to
write it back edited, if there is anything to write. -/
structure Calls (χ κ ι ν : Type) where
  key : χ → κ
  work : χ → Option (ι × (ν → Option ν))
  /-- A resource has one key. -/
  keyed : ∀ {c c' r edit edit'}, work c = some (r, edit) → work c' = some (r, edit') → key c = key c'

inductive Stage (ν : Type) where
  | called
  /-- It has a clone of a lock. -/
  | cloned (gate : Nat)
  | locked (gate : Nat)
  /-- It has read, and is to write. -/
  | editing (gate : Nat) (value : ν)
  | done (gate : Nat) (landed ok : Bool)
  | unlocked (gate : Nat) (landed ok : Bool)
  | returned (landed ok : Bool)

namespace Stage

/-- The lock it has a clone of. -/
def clone : Stage ν → Option Nat
  | called => none
  | cloned gate => some gate
  | locked gate => some gate
  | editing gate _ => some gate
  | done gate _ _ => some gate
  | unlocked gate _ _ => some gate
  | returned _ _ => none

/-- The lock it holds. -/
def lock : Stage ν → Option Nat
  | locked gate => some gate
  | editing gate _ => some gate
  | done gate _ _ => some gate
  | _ => none

/-- It has taken effect. -/
def landed : Stage ν → Bool
  | done _ landed _ => landed
  | unlocked _ landed _ => landed
  | returned landed _ => landed
  | _ => false

/-- It has been told that it took effect. -/
def ok : Stage ν → Bool
  | done _ _ ok => ok
  | unlocked _ _ ok => ok
  | returned _ ok => ok
  | _ => false

theorem clone_of_lock {stage : Stage ν} {gate : Nat} (h : stage.lock = some gate) :
    stage.clone = some gate := by
  cases stage <;> first | exact h | exact nomatch h

end Stage

structure Entry (χ ν : Type) where
  call : χ
  stage : Stage ν

structure State (χ κ ι ν : Type) where
  table : Table κ Nat
  /-- How many locks were made. -/
  made : Nat
  entries : List (Entry χ ν)
  store : ι → ν
  /-- The calls that have taken effect, in that order. -/
  applied : List Nat

def State.start (store : ι → ν) : State χ κ ι ν := ⟨∅, 0, [], store, []⟩

/-! ## The calls of a state -/

namespace State

/-- A call has a clone of the lock, beside the table. -/
def held (s : State χ κ ι ν) (gate : Nat) : Bool := s.entries.any (fun e => e.stage.clone == some gate)

/-- The idle entries are dropped, those apart that are kept anyway. -/
def sweep (s : State χ κ ι ν) (keep : κ → Bool) : State χ κ ι ν :=
  { s with table := s.table.retain (fun key gate => keep key || s.held gate) }

def move (s : State χ κ ι ν) (i : Nat) (e : Entry χ ν) (stage : Stage ν) : State χ κ ι ν :=
  { s with entries := s.entries.set i { e with stage := stage } }

end State

section Entries

variable {s : State χ κ ι ν} {i j gate : Nat} {e e' : Entry χ ν} {stage : Stage ν}

theorem State.held_of_clone (he : s.entries[i]? = some e) (h : e.stage.clone = some gate) :
    s.held gate = true := by
  refine List.any_eq_true.2 ⟨e, List.mem_of_getElem? he, ?_⟩
  rw [h, beq_self_eq_true]

theorem entries_set (he : s.entries[i]? = some e)
    (h : (s.entries.set i { e with stage := stage })[j]? = some e') :
    j = i ∧ e' = { e with stage := stage } ∨ j ≠ i ∧ s.entries[j]? = some e' := by
  by_cases hj : j = i
  · subst hj
    rw [List.getElem?_set_self (List.getElem?_eq_some_iff.1 he).1] at h
    exact .inl ⟨rfl, (Option.some.inj h).symm⟩
  · rw [List.getElem?_set_ne (Ne.symm hj)] at h
    exact .inr ⟨hj, h⟩

/-- The entry of the call that is made, behind the others. -/
theorem entries_added {more : Entry χ ν} (h : (s.entries ++ [more])[j]? = some e') :
    s.entries[j]? = some e' ∨ j = s.entries.length ∧ e' = more := by
  by_cases hj : j < s.entries.length
  · rw [List.getElem?_append_left hj] at h
    exact .inl h
  · rw [List.getElem?_append_right (not_lt.1 hj)] at h
    have hmem := List.mem_of_getElem? h
    have hzero : j - s.entries.length < 1 := (List.getElem?_eq_some_iff.1 h).1
    exact .inr ⟨by omega, List.mem_singleton.1 hmem⟩

end Entries

/-! ## The table -/

section Table

variable [DecidableEq κ]

/-- The lock of a key, made if there is none; a full table is swept before one is added. -/
def State.take (max : Nat) (s : State χ κ ι ν) (key : κ) : State χ κ ι ν × Nat :=
  let s := if max ≤ s.table.entries.length ∧ s.table.lookup key = none then s.sweep (fun _ => false) else s
  match s.table.lookup key with
  | some gate => (s, gate)
  | none => ({ s with table := s.table.insert key s.made, made := s.made + 1 }, s.made)

variable {key : κ} {gate : Nat} {s : State χ κ ι ν}

theorem State.lookup_sweep (h : s.table.lookup key = some gate) (hheld : s.held gate = true)
    (keep : κ → Bool) : (s.sweep keep).table.lookup key = some gate := by
  refine (AList.lookup_retain s.table _ key).trans ?_
  rw [h]
  simp [hheld]

/-- A key's lock is taken, and no lock that is held leaves the table. -/
theorem State.take_spec (max : Nat) (s : State χ κ ι ν) (key : κ) :
    (s.take max key).1.entries = s.entries ∧ (s.take max key).1.store = s.store ∧
      (s.take max key).1.applied = s.applied ∧
      (s.take max key).1.table.lookup key = some (s.take max key).2 ∧
      ∀ k gate, s.table.lookup k = some gate → s.held gate = true →
        (s.take max key).1.table.lookup k = some gate := by
  have hswept : ∀ t : State χ κ ι ν, t = (if max ≤ s.table.entries.length ∧ s.table.lookup key = none then
      s.sweep (fun _ => false) else s) → t.entries = s.entries ∧ t.store = s.store ∧ t.applied = s.applied ∧
      ∀ k gate, s.table.lookup k = some gate → s.held gate = true → t.table.lookup k = some gate := by
    rintro t rfl
    split
    · exact ⟨rfl, rfl, rfl, fun k gate h hheld => State.lookup_sweep h hheld _⟩
    · exact ⟨rfl, rfl, rfl, fun k gate h _ => h⟩
  unfold State.take
  dsimp only
  generalize ht : (if max ≤ s.table.entries.length ∧ s.table.lookup key = none then
      s.sweep (fun _ => false) else s) = t
  obtain ⟨hentries, hstore, happlied, hkept⟩ := hswept t ht.symm
  cases hlookup : t.table.lookup key with
  | some gate => exact ⟨hentries, hstore, happlied, hlookup, hkept⟩
  | none =>
    refine ⟨hentries, hstore, happlied, AList.lookup_insert _, fun k gate h hheld => ?_⟩
    have hk := hkept k gate h hheld
    have hne : k ≠ key := by
      rintro rfl
      exact Option.some_ne_none gate (hk.symm.trans hlookup)
    exact (AList.lookup_insert_ne hne).trans hk

end Table

/-! ## What a call does -/

section Effect

variable [DecidableEq ι] {calls : Calls χ κ ι ν} {s : State χ κ ι ν} {i : Nat} {e : Entry χ ν}

/-- One call's edit of a resource. -/
def applyCall (calls : Calls χ κ ι ν) (entries : List (Entry χ ν)) (r : ι) (v : ν) (i : Nat) : ν :=
  match entries[i]?.bind (fun e => calls.work e.call) with
  | some (r', edit) => if r' = r then (edit v).getD v else v
  | none => v

theorem applyCall_set (he : s.entries[i]? = some e) (stage : Stage ν) (r : ι) :
    applyCall calls (s.entries.set i { e with stage := stage }) r = applyCall calls s.entries r := by
  funext v j
  unfold applyCall
  by_cases hj : j = i
  · subst hj
    rw [List.getElem?_set_self (List.getElem?_eq_some_iff.1 he).1, he]
    rfl
  · rw [List.getElem?_set_ne (Ne.symm hj)]

end Effect

/-! ## Steps -/

inductive Event (χ κ : Type) where
  | call (c : χ)
  | act (i : Nat)
  | sweep (keep : κ → Bool)

variable [DecidableEq κ] [DecidableEq ι]

/-- One step. A read can fail. A write can fail, and one that is not told to have landed may yet have. -/
inductive Step (calls : Calls χ κ ι ν) (max : Nat) :
    State χ κ ι ν → Event χ κ → State χ κ ι ν → Prop
  | call {s : State χ κ ι ν} {c : χ} :
      Step calls max s (.call c) { s with entries := s.entries ++ [⟨c, .called⟩] }
  | take {s : State χ κ ι ν} {i : Nat} {e : Entry χ ν} (he : s.entries[i]? = some e)
      (hstage : e.stage = .called) :
      Step calls max s (.act i)
        ((s.take max (calls.key e.call)).1.move i e (.cloned (s.take max (calls.key e.call)).2))
  | acquire {s : State χ κ ι ν} {i gate : Nat} {e : Entry χ ν} (he : s.entries[i]? = some e)
      (hstage : e.stage = .cloned gate)
      (hfree : ∀ (j : Nat) (e' : Entry χ ν), s.entries[j]? = some e' → e'.stage.lock ≠ some gate) :
      Step calls max s (.act i) (s.move i e (.locked gate))
  | read {s : State χ κ ι ν} {i gate : Nat} {e : Entry χ ν} {r : ι} {edit : ν → Option ν} {v : ν}
      (he : s.entries[i]? = some e) (hstage : e.stage = .locked gate)
      (hwork : calls.work e.call = some (r, edit)) (hedit : edit (s.store r) = some v) :
      Step calls max s (.act i) (s.move i e (.editing gate v))
  /-- There is nothing to write. -/
  | same {s : State χ κ ι ν} {i gate : Nat} {e : Entry χ ν} {r : ι} {edit : ν → Option ν}
      (he : s.entries[i]? = some e) (hstage : e.stage = .locked gate)
      (hwork : calls.work e.call = some (r, edit)) (hedit : edit (s.store r) = none) :
      Step calls max s (.act i) { s.move i e (.done gate true true) with applied := s.applied ++ [i] }
  /-- The read failed, or the call is one of those not told about. -/
  | skip {s : State χ κ ι ν} {i gate : Nat} {e : Entry χ ν} (he : s.entries[i]? = some e)
      (hstage : e.stage = .locked gate) : Step calls max s (.act i) (s.move i e (.done gate false false))
  | write {s : State χ κ ι ν} {i gate : Nat} {e : Entry χ ν} {r : ι} {edit : ν → Option ν} {v : ν}
      (he : s.entries[i]? = some e) (hstage : e.stage = .editing gate v)
      (hwork : calls.work e.call = some (r, edit)) (ok : Bool) :
      Step calls max s (.act i) { s.move i e (.done gate true ok) with
        store := Function.update s.store r v
        applied := s.applied ++ [i] }
  | writeFailed {s : State χ κ ι ν} {i gate : Nat} {e : Entry χ ν} {v : ν}
      (he : s.entries[i]? = some e) (hstage : e.stage = .editing gate v) :
      Step calls max s (.act i) (s.move i e (.done gate false false))
  | unlock {s : State χ κ ι ν} {i gate : Nat} {e : Entry χ ν} {landed ok : Bool}
      (he : s.entries[i]? = some e) (hstage : e.stage = .done gate landed ok) :
      Step calls max s (.act i) (s.move i e (.unlocked gate landed ok))
  | drop {s : State χ κ ι ν} {i gate : Nat} {e : Entry χ ν} {landed ok : Bool}
      (he : s.entries[i]? = some e) (hstage : e.stage = .unlocked gate landed ok) :
      Step calls max s (.act i) (s.move i e (.returned landed ok))
  | sweep {s : State χ κ ι ν} {keep : κ → Bool} : Step calls max s (.sweep keep) (s.sweep keep)

/-! ## The invariant -/

/-- What holds of a call: its lock is the table's, what it is about to write is its edit of what is there,
and it has taken effect or not. -/
structure EntryOk (calls : Calls χ κ ι ν) (s : State χ κ ι ν) (i : Nat) (e : Entry χ ν) : Prop where
  gate : ∀ gate, e.stage.clone = some gate → s.table.lookup (calls.key e.call) = some gate
  fresh : ∀ gate v, e.stage = .editing gate v →
    ∃ r edit, calls.work e.call = some (r, edit) ∧ edit (s.store r) = some v
  applied : i ∈ s.applied ↔ e.stage.landed = true
  told : e.stage.ok = true → e.stage.landed = true

structure StateOk (calls : Calls χ κ ι ν) (store : ι → ν) (s : State χ κ ι ν) : Prop where
  entries : ∀ i e, s.entries[i]? = some e → EntryOk calls s i e
  exclusive : ∀ (i j : Nat) (e e' : Entry χ ν) (gate : Nat), s.entries[i]? = some e →
    s.entries[j]? = some e' → e.stage.lock = some gate → e'.stage.lock = some gate → i = j
  nodup : s.applied.Nodup
  made : ∀ i ∈ s.applied, i < s.entries.length
  store : ∀ r, s.store r = s.applied.foldl (applyCall calls s.entries r) (store r)

theorem stateOk_start {calls : Calls χ κ ι ν} (store : ι → ν) : StateOk calls store (State.start store) := by
  refine ⟨?_, ?_, List.nodup_nil, ?_, fun r => rfl⟩
  · exact fun i e h => nomatch h
  · exact fun i j e e' gate h => nomatch h
  · exact fun i h => nomatch h

/-! ## A call moves on -/

section Moves

variable {calls : Calls χ κ ι ν} {s s' : State χ κ ι ν} {store : ι → ν} {i j : Nat} {e e' : Entry χ ν}
  {stage : Stage ν}

/-- A call moved on: what is to be shown is its own stage, and what the others rest on. -/
theorem StateOk.advance (h : StateOk calls store s) (he : s.entries[i]? = some e)
    (stage : Stage ν) (hentries : s'.entries = s.entries.set i { e with stage := stage })
    (htable : ∀ k gate, s.table.lookup k = some gate → s.held gate = true →
      s'.table.lookup k = some gate)
    (hgate : ∀ gate, stage.clone = some gate → s'.table.lookup (calls.key e.call) = some gate)
    (hlock : ∀ gate, stage.lock = some gate → e.stage.lock = some gate ∨
      ∀ (j : Nat) (e' : Entry χ ν), s.entries[j]? = some e' → e'.stage.lock ≠ some gate)
    (hfresh : ∀ gate v, stage = .editing gate v →
      ∃ r edit, calls.work e.call = some (r, edit) ∧ edit (s'.store r) = some v)
    (hothers : ∀ j e', j ≠ i → s.entries[j]? = some e' → ∀ gate v, e'.stage = .editing gate v →
      ∀ r edit, calls.work e'.call = some (r, edit) → s'.store r = s.store r)
    (htold : stage.ok = true → stage.landed = true)
    (happlied : s'.applied = s.applied ∧ stage.landed = e.stage.landed ∨
      s'.applied = s.applied ++ [i] ∧ e.stage.landed = false ∧ stage.landed = true)
    (hstore : ∀ r, s'.store r = s'.applied.foldl (applyCall calls s.entries r) (store r)) :
    StateOk calls store s' := by
  have hown := h.entries i e he
  have hlt : i < s.entries.length := (List.getElem?_eq_some_iff.1 he).1
  have hmem : ∀ j, j ≠ i → (j ∈ s'.applied ↔ j ∈ s.applied) := by
    intro j hj
    rcases happlied with ⟨happlied, -⟩ | ⟨happlied, -⟩
    · rw [happlied]
    · rw [happlied, List.mem_append, List.mem_singleton]
      exact or_iff_left hj
  refine ⟨?_, ?_, ?_, ?_, ?_⟩
  · intro j e' he'
    rw [hentries] at he'
    rcases entries_set he he' with ⟨rfl, rfl⟩ | ⟨hj, he'⟩
    · refine ⟨hgate, hfresh, ?_, htold⟩
      rcases happlied with ⟨happlied, hlanded⟩ | ⟨happlied, -, hlanded⟩
      · rw [happlied, hlanded]
        exact hown.applied
      · rw [happlied, hlanded]
        exact iff_of_true (List.mem_append_right _ List.mem_cons_self) rfl
    · have hok := h.entries j e' he'
      refine ⟨fun gate hclone => ?_, fun gate v hediting => ?_, ?_, hok.told⟩
      · exact htable _ _ (hok.gate gate hclone) (State.held_of_clone he' hclone)
      · obtain ⟨r, edit, hwork, hedit⟩ := hok.fresh gate v hediting
        refine ⟨r, edit, hwork, ?_⟩
        rw [hothers j e' hj he' gate v hediting r edit hwork]
        exact hedit
      · rw [hmem j hj]
        exact hok.applied
  · intro j k ej ek gate hej hek hj hk
    rw [hentries] at hej hek
    rcases entries_set he hej with ⟨rfl, rfl⟩ | ⟨-, hold⟩
    · rcases entries_set he hek with ⟨rfl, -⟩ | ⟨-, hold⟩
      · rfl
      · rcases hlock gate hj with hheld | hfree
        · exact h.exclusive _ _ _ _ gate he hold hheld hk
        · exact absurd hk (hfree k ek hold)
    · rcases entries_set he hek with ⟨rfl, rfl⟩ | ⟨-, hold'⟩
      · rcases hlock gate hk with hheld | hfree
        · exact h.exclusive _ _ _ _ gate hold he hj hheld
        · exact absurd hj (hfree j ej hold)
      · exact h.exclusive _ _ _ _ gate hold hold' hj hk
  · rcases happlied with ⟨happlied, -⟩ | ⟨happlied, hbefore, -⟩
    · rw [happlied]
      exact h.nodup
    · have hnot : i ∉ s.applied := fun hmem => Bool.noConfusion (hbefore.symm.trans (hown.applied.1 hmem))
      rw [happlied, List.nodup_append]
      refine ⟨h.nodup, List.nodup_singleton i, ?_⟩
      rintro a ha b hb rfl
      exact hnot (List.mem_singleton.1 hb ▸ ha)
  · intro j hj
    rw [hentries, List.length_set]
    by_cases hji : j = i
    · exact hji ▸ hlt
    · exact h.made j ((hmem j hji).1 hj)
  · intro r
    rw [hstore r, hentries, applyCall_set he]

/-- A step of a call that leaves the table, the resources and the calls that took effect. -/
theorem StateOk.still (h : StateOk calls store s) (he : s.entries[i]? = some e) (stage : Stage ν)
    (hclone : ∀ gate, stage.clone = some gate → e.stage.clone = some gate)
    (hlock : ∀ gate, stage.lock = some gate → e.stage.lock = some gate ∨
      ∀ (j : Nat) (e' : Entry χ ν), s.entries[j]? = some e' → e'.stage.lock ≠ some gate)
    (hfresh : ∀ gate v, stage = .editing gate v →
      ∃ r edit, calls.work e.call = some (r, edit) ∧ edit (s.store r) = some v)
    (hlanded : stage.landed = e.stage.landed) (htold : stage.ok = true → stage.landed = true) :
    StateOk calls store (s.move i e stage) := by
  refine h.advance he stage rfl (fun k gate hk _ => hk) ?_ hlock hfresh ?_ htold
    (.inl ⟨rfl, hlanded⟩) h.store
  · exact fun gate hgate => (h.entries i e he).gate gate (hclone gate hgate)
  · exact fun j e' _ _ gate v _ r edit _ => rfl

/-- Two calls that hold the lock of one resource are one. -/
theorem StateOk.alone (h : StateOk calls store s) (he : s.entries[i]? = some e)
    (he' : s.entries[j]? = some e')
    {gate gate' : Nat} (hlock : e.stage.lock = some gate) (hlock' : e'.stage.lock = some gate')
    {r : ι} {edit edit' : ν → Option ν} (hwork : calls.work e.call = some (r, edit))
    (hwork' : calls.work e'.call = some (r, edit')) : i = j := by
  have hgate := (h.entries i e he).gate gate (Stage.clone_of_lock hlock)
  have hgate' := (h.entries j e' he').gate gate' (Stage.clone_of_lock hlock')
  rw [calls.keyed hwork hwork'] at hgate
  obtain rfl := Option.some.inj (hgate.symm.trans hgate')
  exact h.exclusive i j e e' gate he he' hlock hlock'

/-- The call takes effect: what it writes is its edit of what is there. -/
theorem StateOk.land (h : StateOk calls store s) (he : s.entries[i]? = some e) {gate : Nat} (ok : Bool)
    (hlock : e.stage.lock = some gate) (hbefore : e.stage.landed = false) {r : ι} {edit : ν → Option ν}
    (hwork : calls.work e.call = some (r, edit)) {after : ι → ν}
    (hafter : ∀ r', after r' = if r = r' then (edit (s.store r')).getD (s.store r') else s.store r') :
    StateOk calls store { s.move i e (.done gate true ok) with
      store := after
      applied := s.applied ++ [i] } := by
  refine h.advance he (.done gate true ok) rfl (fun k g hk _ => hk) ?_ ?_ ?_ ?_ (fun _ => rfl)
    (.inr ⟨rfl, hbefore, rfl⟩) ?_
  · intro g hg
    obtain rfl := Option.some.inj hg
    exact (h.entries i e he).gate gate (Stage.clone_of_lock hlock)
  · exact fun g hg => .inl (hlock.trans hg)
  · exact fun g v hg => nomatch hg
  · -- another call that is about to write has the lock of another resource
    intro j e' hj he' g v hediting r' edit' hwork'
    have hne : r ≠ r' := by
      rintro rfl
      have hlock' : e'.stage.lock = some g := by rw [hediting]; rfl
      exact hj (h.alone he' he hlock' hlock hwork' hwork)
    exact (hafter r').trans (if_neg hne)
  · intro r'
    have hstep : applyCall calls s.entries r' (s.store r') i =
        if r = r' then (edit (s.store r')).getD (s.store r') else s.store r' := by
      unfold applyCall
      rw [he, Option.bind_some, hwork]
    have hbefore := h.store r'
    rw [List.foldl_append, List.foldl_cons, List.foldl_nil, ← hbefore, hstep]
    exact hafter r'

theorem StateOk.called (h : StateOk calls store s) (c : χ) :
    StateOk calls store { s with entries := s.entries ++ [⟨c, .called⟩] } := by
  have hnew : s.entries.length ∉ s.applied := fun hmem => absurd (h.made _ hmem) (Nat.lt_irrefl _)
  refine ⟨?_, ?_, h.nodup, ?_, ?_⟩
  · intro j e' he'
    rcases entries_added he' with he' | ⟨rfl, rfl⟩
    · have hok := h.entries j e' he'
      exact ⟨hok.gate, hok.fresh, hok.applied, hok.told⟩
    · exact ⟨nofun, nofun, iff_of_false hnew Bool.false_ne_true, nofun⟩
  · intro j k ej ek gate hej hek hj hk
    rcases entries_added hej with hej | ⟨rfl, rfl⟩
    · rcases entries_added hek with hek | ⟨rfl, rfl⟩
      · exact h.exclusive j k ej ek gate hej hek hj hk
      · exact nomatch hk
    · exact nomatch hj
  · intro j hj
    rw [List.length_append]
    exact Nat.lt_of_lt_of_le (h.made j hj) (Nat.le_add_right _ _)
  · intro r
    rw [h.store r]
    refine List.foldl_ext _ _ _ (fun v j hj => ?_)
    unfold applyCall
    rw [List.getElem?_append_left (h.made j hj)]

theorem StateOk.taken (h : StateOk calls store s) (max : Nat) (he : s.entries[i]? = some e)
    (hstage : e.stage = .called) :
    StateOk calls store
      ((s.take max (calls.key e.call)).1.move i e (.cloned (s.take max (calls.key e.call)).2)) := by
  obtain ⟨hentries, hstore, happlied, hlookup, hkept⟩ := s.take_spec max (calls.key e.call)
  refine h.advance he (.cloned (s.take max (calls.key e.call)).2) ?_ hkept ?_ nofun
    nofun ?_ nofun (.inl ⟨happlied, by rw [hstage]; rfl⟩) ?_
  · exact congrArg (fun es => es.set i { e with stage := .cloned (s.take max (calls.key e.call)).2 }) hentries
  · intro gate hgate
    obtain rfl := Option.some.inj hgate
    exact hlookup
  · exact fun j e' _ _ gate v _ r edit _ => congrFun hstore r
  · intro r
    have hr := h.store r
    rw [← hstore, ← happlied] at hr
    exact hr

theorem StateOk.swept (h : StateOk calls store s) (keep : κ → Bool) : StateOk calls store (s.sweep keep) := by
  refine ⟨fun j e' he' => ?_, h.exclusive, h.nodup, h.made, h.store⟩
  have hok := h.entries j e' he'
  refine ⟨fun gate hclone => ?_, hok.fresh, hok.applied, hok.told⟩
  exact State.lookup_sweep (hok.gate gate hclone) (State.held_of_clone he' hclone) keep

end Moves

/-! ## Runs -/

section Runs

variable {calls : Calls χ κ ι ν} {max : Nat} {s s' : State χ κ ι ν} {store : ι → ν}

theorem StateOk.step {ev : Event χ κ} (h : StateOk calls store s) (hstep : Step calls max s ev s') :
    StateOk calls store s' := by
  cases hstep with
  | call => exact h.called _
  | take he hstage => exact h.taken max he hstage
  | acquire he hstage hfree =>
    refine h.still he _ (by rw [hstage]; exact fun g hg => hg) ?_ nofun
      (by rw [hstage]; rfl) nofun
    intro g hg
    obtain rfl := Option.some.inj hg
    exact .inr hfree
  | read he hstage hwork hedit =>
    refine h.still he _ (by rw [hstage]; exact fun g hg => hg) ?_ ?_
      (by rw [hstage]; rfl) nofun
    · rw [hstage]
      exact fun g hg => .inl hg
    · intro g v hediting
      obtain ⟨-, rfl⟩ := Stage.editing.inj hediting
      exact ⟨_, _, hwork, hedit⟩
  | @same i gate e r edit he hstage hwork hedit =>
    refine h.land he true (by rw [hstage]; rfl) (by rw [hstage]; rfl) hwork (fun r' => ?_)
    split
    · next hr =>
      subst hr
      change s.store r = _
      rw [hedit, Option.getD_none]
    · rfl
  | skip he hstage =>
    exact h.still he _ (by rw [hstage]; exact fun g hg => hg)
      (by rw [hstage]; exact fun g hg => .inl hg) nofun (by rw [hstage]; rfl) nofun
  | @write i gate e r edit v he hstage hwork ok =>
    refine h.land he ok (by rw [hstage]; rfl) (by rw [hstage]; rfl) hwork (fun r' => ?_)
    -- it has the edit of what is there in hand
    obtain ⟨r₁, edit₁, hwork₁, hedit⟩ := (h.entries i e he).fresh gate v hstage
    obtain ⟨rfl, rfl⟩ := Prod.mk.inj (Option.some.inj (hwork.symm.trans hwork₁))
    split
    · next hr =>
      subst hr
      rw [Function.update_self, hedit, Option.getD_some]
    · next hr => exact Function.update_of_ne (Ne.symm hr) v s.store
  | writeFailed he hstage =>
    exact h.still he _ (by rw [hstage]; exact fun g hg => hg)
      (by rw [hstage]; exact fun g hg => .inl hg) nofun (by rw [hstage]; rfl) nofun
  | unlock he hstage =>
    refine h.still he _ (by rw [hstage]; exact fun g hg => hg) nofun nofun
      (by rw [hstage]; rfl) ?_
    have htold := (h.entries _ _ he).told
    rw [hstage] at htold
    exact htold
  | drop he hstage =>
    refine h.still he _ nofun nofun nofun (by rw [hstage]; rfl) ?_
    have htold := (h.entries _ _ he).told
    rw [hstage] at htold
    exact htold
  | sweep => exact h.swept _

/-- Over every run, the resources are what the calls that took effect made of them, one after the other. -/
theorem stateOk_of_run {tr : List (Event χ κ)} (hrun : Run (Step calls max) (State.start store) tr s) :
    StateOk calls store s :=
  hrun.invariant (fun _ t => StateOk calls store t) (stateOk_start store)
    (fun _ _ _ _ _ h hstep => h.step hstep)

/-- The calls that have taken effect keep their order, and another one comes behind them. -/
theorem applied_step {ev : Event χ κ} (hstep : Step calls max s ev s') : s.applied <+: s'.applied := by
  cases hstep with
  | take => exact (s.take_spec max _).2.2.1 ▸ List.prefix_rfl
  | same | write => exact List.prefix_append _ _
  | _ => exact List.prefix_rfl

theorem applied_run {tr : List (Event χ κ)} (hrun : Run (Step calls max) s tr s') :
    s.applied <+: s'.applied := by
  induction hrun with
  | nil => exact List.prefix_rfl
  | snoc _ hstep ih => exact ih.trans (applied_step hstep)

end Runs

end Gates
