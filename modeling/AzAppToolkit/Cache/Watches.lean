import AzAppToolkit.Cache.Transitions

set_option autoImplicit false

/-! # The watch table

A row of the watch table is shared by every guard on its key, and it lives exactly as long as one of
them holds a reference. First what a section can do to the guard of the call that runs it
(`Call.Next.guard_cases`), then what each effect does to the table's rows, then the invariant over runs. -/

namespace Cache

/-! ## What a section does to its call's guard -/

/-- An effect that neither registers nor releases a reference. -/
def Effect.keepsRefs : Effect → Bool
  | .generation _ _ | .release _ _ => false
  | _ => true

variable {c : Cache} {effect : Effect}

/-- A section registers a guard, or releases the reference of the guard its call owns, or leaves
    every reference where it is. -/
theorem Call.Next.guard_cases {clock : Clock} {t t' : Call} (h : Call.Next c clock t effect t') :
    (∃ f, t = .generation f ∧ effect = .generation f.kind f.key ∧
      t' = .fetching f (c.generationFor f.kind f.key).2) ∨
    (∃ w, t.guard = some w ∧ w.holdsRef = true ∧ effect = .release w.kind w.key ∧
      t'.guard = none) ∨
    (effect.keepsRefs = true ∧ (∀ id, t'.holds id = t.holds id) ∧
      ∀ w, t'.guard = some w → t.guard = some w) := by
  -- giving up a guard that may or may not hold a reference
  have giveUp : ∀ {u u' : Call} {w : IndexWatch}, u.guard = some w → u'.guard = none →
      (∃ w', u.guard = some w' ∧ w'.holdsRef = true ∧
        (if w.holdsRef then Effect.release w.kind w.key else .idle) = .release w'.kind w'.key ∧
        u'.guard = none) ∨
      ((if w.holdsRef then Effect.release w.kind w.key else .idle).keepsRefs = true ∧
        (∀ id, u'.holds id = u.holds id) ∧ ∀ w', u'.guard = some w' → u.guard = some w') := by
    intro u u' w hu hu'
    by_cases hw : w.holdsRef = true
    · exact Or.inl ⟨w, hu, hw, if_pos hw, hu'⟩
    · refine Or.inr ⟨by rw [if_neg hw]; rfl, fun id => ?_, fun w' hw' => ?_⟩
      · simp [holds, hu, hu', hw]
      · rw [hu'] at hw'
        exact absurd hw' nofun
  cases h with
  | generation f => exact Or.inl ⟨f, rfl, rfl, rfl⟩
  | stored f stamp hw => exact Or.inr (Or.inl ⟨_, rfl, hw, rfl, rfl⟩)
  | overtaken f stamp => exact Or.inr (giveUp rfl (by split <;> rfl))
  | dropped f w => exact Or.inr (giveUp rfl rfl)
  | replaceLost | keepLost | configure =>
    split <;> exact Or.inr (Or.inr ⟨rfl, fun _ => rfl, fun _ hw => hw⟩)
  | _ => exact Or.inr (Or.inr ⟨rfl, fun _ => rfl, fun _ hw => hw⟩)

/-! ## What an effect does to the table's rows -/

theorem watches_onBucket (kind : CacheKind) (ops : List Bucket.Op) (c : Cache) :
    (ops.foldl (fun c op => c.onBucket kind op) c).watches = c.watches := by
  induction ops generalizing c with
  | nil => rfl
  | cons op ops ih => exact ih _

theorem lookup_bumpWatches (c : Cache) (scope : Scope) (id : CacheKind × String) :
    (c.bumpWatches scope).watches.lookup id = (c.watches.lookup id).map (fun watch =>
      { watch with counter := watch.counter + if scope.covers id.1 id.2 then 1 else 0 }) := by
  unfold bumpWatches
  rw [AList.lookup_mapRows]
  congr 1
  funext watch
  split <;> rfl

theorem lookup_releaseWatch (c : Cache) (kind : CacheKind) (key : String)
    (id : CacheKind × String) :
    (c.releaseWatch kind key).1.watches.lookup id
      = if id = (kind, key) then
          (c.watches.lookup id).bind (fun watch =>
            if watch.refs - 1 = 0 then none else some { watch with refs := watch.refs - 1 })
        else c.watches.lookup id := by
  unfold releaseWatch
  by_cases hid : id = (kind, key)
  · subst hid
    rw [if_pos rfl]
    split
    · next h => simp [h]
    · next watch h =>
      split
      · next hrefs => simp [h, hrefs]
      · next hrefs => simp [h, hrefs]
  · rw [if_neg hid]
    repeat' split
    all_goals simp [hid]

/-- `generation_for` joins a watched key, refuses when the table is full, or adds a row. -/
theorem generationFor_cases (c : Cache) (kind : CacheKind) (key : String) :
    (∃ watch, c.watches.lookup (kind, key) = some watch ∧
      c.generationFor kind key = ({ c with
        watches := c.watches.insert (kind, key) { watch with refs := watch.refs + 1 } },
        ⟨kind, key, watch.counter, true⟩)) ∨
    (c.watches.lookup (kind, key) = none ∧ maxWatches ≤ c.watches.entries.length ∧
      c.generationFor kind key = (c, ⟨kind, key, watchUnavailable, false⟩)) ∨
    (c.watches.lookup (kind, key) = none ∧ c.watches.entries.length < maxWatches ∧
      c.generationFor kind key = ({ c with watches := c.watches.insert (kind, key) ⟨0, 1⟩ },
        ⟨kind, key, 0, true⟩)) := by
  unfold generationFor
  split
  · next watch h => exact Or.inl ⟨watch, h, rfl⟩
  · next h =>
    split
    · next hfull => exact Or.inr (Or.inl ⟨h, hfull, rfl⟩)
    · next hroom => exact Or.inr (Or.inr ⟨h, by omega, rfl⟩)

theorem generationFor_id (c : Cache) (kind : CacheKind) (key : String) :
    (c.generationFor kind key).2.kind = kind ∧ (c.generationFor kind key).2.key = key := by
  rcases generationFor_cases c kind key with ⟨watch, -, heq⟩ | ⟨-, -, heq⟩ | ⟨-, -, heq⟩ <;>
    · rw [heq]
      exact ⟨rfl, rfl⟩

/-- A row that outlives an effect keeps its counter, but for a covering bump, which adds one. -/
theorem Effect.counter_run {id : CacheKind × String}
    {watch watch' : Watch} (h : c.watches.lookup id = some watch)
    (h' : (effect.run c).watches.lookup id = some watch') :
    watch'.counter = watch.counter + if effect.bumps id.1 id.2 then 1 else 0 := by
  cases effect with
  | idle | configure =>
    rw [show (Effect.run c _).watches = c.watches from rfl, h] at h'
    rw [← Option.some.inj h']
    rfl
  | bucket kind ops =>
    rw [show (Effect.run c (.bucket kind ops)).watches = c.watches from watches_onBucket kind ops c,
      h] at h'
    rw [← Option.some.inj h']
    rfl
  | bump scope =>
    rw [Effect.run, lookup_bumpWatches, h] at h'
    rw [← Option.some.inj h']
    rfl
  | release kind key =>
    rw [Effect.run, lookup_releaseWatch, h] at h'
    split at h'
    · simp only [Option.bind_some] at h'
      split at h'
      · exact absurd h' nofun
      · rw [← Option.some.inj h']
        rfl
    · rw [← Option.some.inj h']
      rfl
  | generation kind key =>
    rw [Effect.run] at h'
    rcases generationFor_cases c kind key with ⟨w, hw, heq⟩ | ⟨-, -, heq⟩ | ⟨hn, -, heq⟩
    · rw [heq, AList.lookup_insert_eq] at h'
      split at h'
      · next hid =>
        subst hid
        rw [hw] at h
        rw [← Option.some.inj h', ← Option.some.inj h]
        rfl
      · rw [h] at h'
        rw [← Option.some.inj h']
        rfl
    · rw [heq, h] at h'
      rw [← Option.some.inj h']
      rfl
    · rw [heq, AList.lookup_insert_eq] at h'
      split at h'
      · next hid =>
        subst hid
        exact absurd (hn.symm.trans h) nofun
      · rw [h] at h'
        rw [← Option.some.inj h']
        rfl

/-! ## References -/

/-- Each row counts the guards on its key, and a key without guards has no row. -/
def RefsExact (watches : Table (CacheKind × String) Watch) (guards : CacheKind × String → Nat) :
    Prop :=
  ∀ id, match watches.lookup id with
    | some watch => watch.refs = guards id ∧ 0 < guards id
    | none => guards id = 0

theorem RefsExact.mem_iff {watches : Table (CacheKind × String) Watch}
    {guards : CacheKind × String → Nat} (h : RefsExact watches guards) (id : CacheKind × String) :
    (∃ watch, watches.lookup id = some watch) ↔ 0 < guards id := by
  have hid := h id
  cases hl : watches.lookup id with
  | none =>
    rw [hl] at hid
    simp only at hid
    simp [hid]
  | some watch =>
    rw [hl] at hid
    exact ⟨fun _ => hid.2, fun _ => ⟨watch, rfl⟩⟩

theorem RefsExact.generation {guards : CacheKind × String → Nat}
    (h : RefsExact c.watches guards) (kind : CacheKind) (key : String) :
    RefsExact (c.generationFor kind key).1.watches (fun id => guards id +
      if (c.generationFor kind key).2.holdsRef ∧ id = (kind, key) then 1 else 0) := by
  intro id
  have hid := h id
  rcases generationFor_cases c kind key with ⟨w, hw, heq⟩ | ⟨-, -, heq⟩ | ⟨hn, -, heq⟩
  · rw [heq]
    simp only [AList.lookup_insert_eq]
    by_cases hk : id = (kind, key)
    · subst hk
      rw [hw] at hid
      simp only at hid
      simp [hid.1]
    · simpa [hk] using hid
  · rw [heq]
    simpa using hid
  · rw [heq]
    simp only [AList.lookup_insert_eq]
    by_cases hk : id = (kind, key)
    · subst hk
      rw [hn] at hid
      simp only at hid
      simp [hid]
    · simpa [hk] using hid

theorem RefsExact.release {guards : CacheKind × String → Nat}
    (h : RefsExact c.watches guards) {kind : CacheKind} {key : String} (hheld : 0 < guards (kind, key)) :
    RefsExact (c.releaseWatch kind key).1.watches (fun id => guards id -
      if id = (kind, key) then 1 else 0) := by
  intro id
  have hid := h id
  rw [lookup_releaseWatch]
  by_cases hk : id = (kind, key)
  · subst hk
    obtain ⟨watch, hw⟩ := (h.mem_iff (kind, key)).2 hheld
    rw [hw] at hid
    simp only at hid
    simp only [if_true, hw, Option.bind_some, hid.1]
    by_cases hone : guards (kind, key) - 1 = 0
    · simp [hone]
    · simp [hone]
      omega
  · simpa [hk] using hid

theorem RefsExact.bump {guards : CacheKind × String → Nat} (h : RefsExact c.watches guards) (scope : Scope) :
    RefsExact (c.bumpWatches scope).watches guards := by
  intro id
  have hid := h id
  rw [lookup_bumpWatches]
  cases hl : c.watches.lookup id with
  | none | some watch =>
    rw [hl] at hid
    exact hid

/-! ## The invariant over runs -/

/-- How many calls hold a reference on `id`. -/
def State.guards (s : State) (id : CacheKind × String) : Nat := s.calls.countP (Call.holds id)

theorem guards_set {s : State} {i : Nat} {t : Call} (hcall : s.calls[i]? = some t) (t' : Call)
    (id : CacheKind × String) :
    (s.calls.set i t').countP (Call.holds id) + (if t.holds id then 1 else 0)
      = s.guards id + if t'.holds id then 1 else 0 := by
  obtain ⟨hi, rfl⟩ := List.getElem?_eq_some_iff.1 hcall
  have hle : (if s.calls[i].holds id then 1 else 0) ≤ s.calls.countP (Call.holds id) := by
    split
    · next hp => exact List.countP_pos_iff.2 ⟨_, List.getElem_mem hi, hp⟩
    · exact Nat.zero_le _
  rw [List.countP_set hi, State.guards]
  omega

/-- A call that holds a reference is counted. -/
theorem guards_pos {s : State} {i : Nat} {t : Call} {w : IndexWatch} (hcall : s.calls[i]? = some t)
    (hguard : t.guard = some w) (hw : w.holdsRef = true) : 0 < s.guards (w.kind, w.key) :=
  List.countP_pos_iff.2 ⟨t, List.mem_of_getElem? hcall, by simp [Call.holds, hguard, hw]⟩

/-- The counter of call `i`'s guard is where it was when the guard was registered, plus the
    covering bumps since: it was never reset. -/
def Tracked (tr : List Event) (c : Cache) (i : Nat) (w : IndexWatch) : Prop :=
  ∃ watch before after, c.watches.lookup (w.kind, w.key) = some watch ∧
    tr = before ++ ⟨i, .generation w.kind w.key⟩ :: after ∧
    watch.counter = w.since + after.countP (fun e => e.effect.bumps w.kind w.key)

/-- A tracked guard stays tracked as long as its row does not go away. -/
theorem Tracked.step {tr : List Event} {i j : Nat} {w : IndexWatch}
    (h : Tracked tr c i w) (hrow : ∃ watch, (effect.run c).watches.lookup (w.kind, w.key) = some watch) :
    Tracked (tr ++ [⟨j, effect⟩]) (effect.run c) i w := by
  obtain ⟨watch, before, after, hlookup, rfl, hcount⟩ := h
  obtain ⟨watch', hlookup'⟩ := hrow
  refine ⟨watch', before, after ++ [⟨j, effect⟩], hlookup', by simp, ?_⟩
  rw [Effect.counter_run hlookup hlookup', hcount, List.countP_append, List.countP_singleton]
  exact Nat.add_assoc _ _ _

structure WatchInv (tr : List Event) (s : State) : Prop where
  refs : RefsExact s.cache.watches s.guards
  size_le : s.cache.watches.entries.length ≤ maxWatches
  tracked : ∀ i t w, s.calls[i]? = some t → t.guard = some w → w.holdsRef = true →
    Tracked tr s.cache i w

theorem length_generationFor_le (h : c.watches.entries.length ≤ maxWatches)
    (kind : CacheKind) (key : String) :
    (c.generationFor kind key).1.watches.entries.length ≤ maxWatches := by
  rcases generationFor_cases c kind key with ⟨w, hw, heq⟩ | ⟨-, -, heq⟩ | ⟨hn, hroom, heq⟩ <;> rw [heq]
  · rw [AList.length_insert, AList.length_erase _ _ _ hw]
    exact h
  · exact h
  · rw [AList.length_insert, AList.erase_of_lookup_none _ _ hn]
    exact hroom

theorem length_releaseWatch_le (h : c.watches.entries.length ≤ maxWatches) (kind : CacheKind) (key : String) :
    (c.releaseWatch kind key).1.watches.entries.length ≤ maxWatches := by
  unfold releaseWatch
  split
  · exact h
  · next watch hw =>
    have hlen := AList.length_erase _ _ _ hw
    split
    · simp only
      omega
    · simp only [AList.length_insert, hlen]
      exact h

theorem Effect.length_run_le (h : c.watches.entries.length ≤ maxWatches)
    (effect : Effect) : (effect.run c).watches.entries.length ≤ maxWatches := by
  cases effect with
  | idle | configure => exact h
  | generation kind key => exact length_generationFor_le h kind key
  | bump scope => simpa [Effect.run, bumpWatches] using h
  | release kind key => exact length_releaseWatch_le h kind key
  | bucket kind ops => rw [Effect.run, watches_onBucket]; exact h

/-- An effect that keeps the references keeps their count exact. -/
theorem RefsExact.keeps {guards : CacheKind × String → Nat}
    (h : RefsExact c.watches guards) (heff : effect.keepsRefs = true) :
    RefsExact (effect.run c).watches guards := by
  cases effect with
  | idle | configure => exact h
  | generation | release => exact absurd heff nofun
  | bump scope => exact h.bump scope
  | bucket kind ops => rw [Effect.run, watches_onBucket]; exact h

/-- A call's section moves the references of the table and of the guards together. -/
theorem RefsExact.step {s : State} (h : RefsExact s.cache.watches s.guards) {i : Nat} {t t' : Call}
    {clock : Clock} (hcall : s.calls[i]? = some t) (hnext : Call.Next s.cache clock t effect t') :
    RefsExact (effect.run s.cache).watches
      (State.guards ⟨effect.run s.cache, s.calls.set i t'⟩) := by
  have hset := guards_set hcall t'
  rcases hnext.guard_cases with ⟨f, rfl, rfl, rfl⟩ | ⟨w, hguard, hw, rfl, hnone⟩ |
    ⟨hkeeps, hholds, -⟩
  · have hgen := h.generation f.kind f.key
    have hid := generationFor_id s.cache f.kind f.key
    refine cast ?_ hgen
    congr 1
    funext id
    have := hset id
    simp only [Call.holds, Call.guard, hid, Bool.and_eq_true, decide_eq_true_eq] at this
    simp only [State.guards] at this ⊢
    simp only [eq_comm (a := id)]
    simpa using this.symm
  · have hrel := h.release (guards_pos hcall hguard hw)
    refine cast ?_ hrel
    congr 1
    funext id
    have := hset id
    simp only [Call.holds, hguard, hnone, hw, Bool.true_and, decide_eq_true_eq] at this
    simp only [State.guards] at this ⊢
    simp only [eq_comm (a := id)]
    simp only [Bool.false_eq_true, if_false] at this
    omega
  · refine cast ?_ (h.keeps hkeeps)
    congr 1
    funext id
    have := hset id
    rw [hholds id] at this
    simp only [State.guards] at this ⊢
    omega

theorem Call.guard_of_isStart {t : Call} (h : t.isStart = true) : t.guard = none := by
  cases t <;> first | rfl | exact absurd h nofun

theorem WatchInv.step {tr : List Event} {s u : State} {ev : Event} (h : WatchInv tr s)
    (hstep : Step s ev u) : WatchInv (tr ++ [ev]) u := by
  cases hstep with
  | call t hstart =>
    have hguard := Call.guard_of_isStart hstart
    have hguards : State.guards ⟨s.cache, s.calls ++ [t]⟩ = s.guards := by
      funext id
      simp [State.guards, Call.holds, hguard]
    refine ⟨hguards ▸ h.refs, h.size_le, fun i t' w hcall hw href => ?_⟩
    simp only [List.getElem?_append] at hcall
    split at hcall
    · have htracked := h.tracked i t' w hcall hw href
      have hrow : ∃ watch, (Effect.run s.cache .idle).watches.lookup (w.kind, w.key) = some watch := by
        obtain ⟨watch, -, -, hlookup, -⟩ := htracked
        exact ⟨watch, hlookup⟩
      exact htracked.step hrow
    · rw [List.getElem?_singleton] at hcall
      split at hcall
      · rw [← Option.some.inj hcall, hguard] at hw
        exact absurd hw nofun
      · exact absurd hcall nofun
  | @act i t t' effect clock hcall hstep =>
    have hnext := Call.next_of_step hstep
    have hrefs := h.refs.step hcall hnext
    refine ⟨hrefs, Effect.length_run_le h.size_le effect, fun j t'' w hcall' hw href => ?_⟩
    -- the row is still there because the guard counts
    have hrow := (hrefs.mem_iff (w.kind, w.key)).2 (guards_pos hcall' hw href)
    have hold : ∀ t₀, s.calls[j]? = some t₀ → t₀.guard = some w →
        Tracked (tr ++ [⟨i, effect⟩]) (effect.run s.cache) j w :=
      fun t₀ ht₀ hg => (h.tracked j t₀ w ht₀ hg href).step hrow
    by_cases hij : i = j
    · subst hij
      obtain ⟨hi, -⟩ := List.getElem?_eq_some_iff.1 hcall
      simp only [List.getElem?_set_self hi, Option.some.injEq] at hcall'
      subst hcall'
      rcases hnext.guard_cases with ⟨f, rfl, rfl, rfl⟩ | ⟨-, -, -, -, hnone⟩ | ⟨-, -, hsame⟩
      · -- a fresh guard has seen no bump yet
        obtain rfl : (s.cache.generationFor f.kind f.key).2 = w := Option.some.inj hw
        have hid := generationFor_id s.cache f.kind f.key
        obtain ⟨watch, hlookup⟩ := hrow
        refine ⟨watch, tr, [], hlookup, by rw [hid.1, hid.2], ?_⟩
        rw [hid.1, hid.2] at hlookup
        rcases generationFor_cases s.cache f.kind f.key with ⟨w₀, -, heq⟩ | ⟨-, -, heq⟩ |
          ⟨-, -, heq⟩
        · simp only [Effect.run, heq, AList.lookup_insert, Option.some.injEq] at hlookup
          simp [heq, ← hlookup]
        · rw [heq] at href
          exact absurd href nofun
        · simp only [Effect.run, heq, AList.lookup_insert, Option.some.injEq] at hlookup
          simp [heq, ← hlookup]
      · rw [hnone] at hw
        exact absurd hw nofun
      · exact hold t hcall (hsame w hw)
    · rw [List.getElem?_set_ne hij] at hcall'
      exact hold t'' hcall' hw

theorem watchInv_init : WatchInv [] State.init where
  refs := fun id => rfl
  size_le := Nat.zero_le _
  tracked := fun i t w hcall => absurd hcall (by simp [State.init])

/-- Every run keeps the watch table exact. -/
theorem watchInv_run {tr : List Event} {s : State} (hrun : Runs tr s) : WatchInv tr s :=
  hrun.invariant WatchInv watchInv_init (fun _ _ _ _ _ hinv hstep => hinv.step hstep)

/-! ## A guard that could not be registered -/

/-- The call cannot end in a successful guarded store any more. -/
def Call.Refusing (t : Call) : Prop :=
  (∃ w, t.guard = some w ∧ w.holdsRef = false) ∨ (∃ f stamp, t = .rollback f stamp) ∨
    ∃ f stamp, t = .returned f stamp false

theorem Call.Refusing.next {clock : Clock} {t t' : Call}
    (h : t.Refusing) (hnext : Call.Next c clock t effect t') : t'.Refusing := by
  rcases h with ⟨w, hguard, hw⟩ | ⟨f, stamp, rfl⟩ | ⟨f, stamp, rfl⟩
  · cases hnext with
    | stored f stamp hw' =>
      obtain rfl := Option.some.inj hguard
      rw [hw] at hw'
      exact absurd hw' nofun
    | overtaken f stamp =>
      cases stamp with
      | none => exact Or.inr (Or.inr ⟨f, none, rfl⟩)
      | some stamp => exact Or.inr (Or.inl ⟨f, stamp, rfl⟩)
    | dropped f w' => exact Or.inr (Or.inr ⟨f, none, rfl⟩)
    | fetched | abandoned | current | stale | allowed | declined | inserted =>
      exact Or.inl ⟨w, hguard, hw⟩
    | _ => exact absurd hguard nofun
  · cases hnext
    exact Or.inr (Or.inr ⟨f, some stamp, rfl⟩)
  · exact absurd hnext nofun

/-- A call keeps its place in the list, and only its own sections move it on. -/
theorem Step.call_of_call {s u : State} {ev : Event} (hstep : Step s ev u) {i : Nat} {t : Call}
    (hcall : s.calls[i]? = some t) :
    u.calls[i]? = some t ∨ ∃ clock effect t', t.step s.cache clock = some (effect, t') ∧
      ev = ⟨i, effect⟩ ∧ u = ⟨effect.run s.cache, s.calls.set i t'⟩ ∧ u.calls[i]? = some t' := by
  obtain ⟨hi, -⟩ := List.getElem?_eq_some_iff.1 hcall
  cases hstep with
  | call t' hstart => exact Or.inl (by simp only [List.getElem?_append_left hi]; exact hcall)
  | @act j t₀ t' effect clock hcall' hstep =>
    by_cases hij : j = i
    · subst hij
      rw [hcall] at hcall'
      obtain rfl := Option.some.inj hcall'
      exact Or.inr ⟨clock, effect, t', hstep, rfl, rfl, List.getElem?_set_self hi⟩
    · exact Or.inl (by simp only [List.getElem?_set_ne hij]; exact hcall)

theorem refusing_run {s u : State} {tr : List Event} (hrun : Run Step s tr u) {i : Nat}
    (h : ∃ t, s.calls[i]? = some t ∧ t.Refusing) : ∃ t, u.calls[i]? = some t ∧ t.Refusing := by
  refine hrun.invariant (fun _ v => ∃ t, v.calls[i]? = some t ∧ t.Refusing) h ?_
  rintro - v ev v' - ⟨t, hcall, href⟩ hstep
  rcases hstep.call_of_call hcall with hsame | ⟨clock, effect, t', hrun', -, -, hcall'⟩
  · exact ⟨t, hsame, href⟩
  · exact ⟨t', hcall', href.next (Call.next_of_step hrun')⟩

/-! ## Results -/

/-- **The watch table is exact in every reachable state.** It has a row for a key exactly when some
    call holds a guard with a reference on it, the row counts these guards, and there are at most
    `MAX_WATCHES` rows. A guard's `since` is at most the live counter, which has moved since the
    registration by the covering bumps alone and by nothing else as long as the guard lives. So the
    table is empty when no guard is alive, and a guard that found the table full and its key
    unwatched never makes a store succeed. -/
theorem watch_table_exact {tr : List Event} {s : State} (hrun : Runs tr s) :
    (∀ id, id ∈ s.cache.watches ↔
      ∃ (t : Call) (w : IndexWatch), t ∈ s.calls ∧ t.guard = some w ∧ w.holdsRef = true ∧
        (w.kind, w.key) = id) ∧
    (∀ id watch, s.cache.watches.lookup id = some watch → watch.refs = s.guards id) ∧
    s.cache.watches.entries.length ≤ maxWatches ∧
    (∀ (i : Nat) t w, s.calls[i]? = some t → t.guard = some w → w.holdsRef = true →
      ∃ watch before after, s.cache.watches.lookup (w.kind, w.key) = some watch ∧
        tr = before ++ ⟨i, .generation w.kind w.key⟩ :: after ∧
        watch.counter = w.since + after.countP (fun e => e.effect.bumps w.kind w.key) ∧
        ∀ ev u t' watch', Step s ev u → u.calls[i]? = some t' → t'.guard = some w →
          u.cache.watches.lookup (w.kind, w.key) = some watch' →
          watch'.counter = watch.counter + if ev.effect.bumps w.kind w.key then 1 else 0) ∧
    ((∀ t ∈ s.calls, ∀ w, t.guard = some w → w.holdsRef = false) → s.cache.watches = ∅) ∧
    (∀ i kind key s₁ tr₁ u f stamp, maxWatches ≤ s.cache.watches.entries.length →
      (kind, key) ∉ s.cache.watches → Step s ⟨i, .generation kind key⟩ s₁ → Run Step s₁ tr₁ u →
      u.calls[i]? ≠ some (.returned f stamp true)) := by
  have hinv := watchInv_run hrun
  have hmem : ∀ id, id ∈ s.cache.watches ↔
      ∃ (t : Call) (w : IndexWatch), t ∈ s.calls ∧ t.guard = some w ∧ w.holdsRef = true ∧
        (w.kind, w.key) = id := by
    intro id
    rw [AList.mem_iff_lookup, hinv.refs.mem_iff id, State.guards, List.countP_pos_iff]
    constructor
    · rintro ⟨t, ht, hholds⟩
      simp only [Call.holds] at hholds
      split at hholds
      · next w hw =>
        simp only [Bool.and_eq_true, decide_eq_true_eq] at hholds
        exact ⟨t, w, ht, hw, hholds.1, hholds.2⟩
      · exact absurd hholds nofun
    · rintro ⟨t, w, ht, hw, href, hid⟩
      exact ⟨t, ht, by simp [Call.holds, hw, href, hid]⟩
  refine ⟨hmem, ?_, hinv.size_le, ?_, ?_, ?_⟩
  · intro id watch hlookup
    have := hinv.refs id
    rw [hlookup] at this
    exact this.1
  · intro i t w hcall hguard hw
    obtain ⟨watch, before, after, hlookup, htr, hcount⟩ := hinv.tracked i t w hcall hguard hw
    refine ⟨watch, before, after, hlookup, htr, hcount, ?_⟩
    intro ev u t' watch' hstep _ _ hlookup'
    cases hstep with
    | call t₀ hstart =>
      rw [show State.cache ⟨s.cache, s.calls ++ [t₀]⟩ = s.cache from rfl, hlookup] at hlookup'
      rw [← Option.some.inj hlookup']
      rfl
    | act clock hcall' hstep' => exact Effect.counter_run hlookup hlookup'
  · intro hdead
    have hnone : ∀ id, s.cache.watches.lookup id = none := by
      intro id
      rw [AList.lookup_eq_none, hmem id]
      rintro ⟨t, w, ht, hw, href, -⟩
      rw [hdead t ht w hw] at href
      exact absurd href nofun
    refine AList.ext (List.eq_nil_iff_forall_not_mem.2 (fun r hr => ?_))
    have := (AList.mem_entries_iff _ r.1 r.2).1 hr
    rw [hnone] at this
    exact absurd this nofun
  · intro i kind key s₁ tr₁ u f stamp hfull hunwatched hstep hrest hret
    -- right after the step the call owns a guard without a reference
    have hrefusing : ∃ t, s₁.calls[i]? = some t ∧ t.Refusing := by
      cases hstep with
      | @act _ t t' _ clock hcall hstep =>
        obtain ⟨hi, -⟩ := List.getElem?_eq_some_iff.1 hcall
        refine ⟨t', List.getElem?_set_self hi, ?_⟩
        rcases (Call.next_of_step hstep).guard_cases with ⟨f', rfl, heff, rfl⟩ |
          ⟨_, _, _, heff, _⟩ | ⟨heff, -, -⟩
        · simp only [Effect.generation.injEq] at heff
          obtain ⟨rfl, rfl⟩ := heff
          refine Or.inl ⟨_, rfl, ?_⟩
          have hnone := AList.lookup_eq_none.2 hunwatched
          rcases generationFor_cases s.cache f'.kind f'.key with ⟨w, hw, -⟩ | ⟨-, -, heq⟩ |
            ⟨-, hroom, -⟩
          · exact absurd (hnone.symm.trans hw) nofun
          · rw [heq]
          · omega
        · exact absurd heff nofun
        · exact absurd heff nofun
    obtain ⟨t, ht, href⟩ := refusing_run hrest hrefusing
    rw [hret] at ht
    obtain rfl := Option.some.inj ht
    rcases href with ⟨w, hw, -⟩ | ⟨f, stamp, h⟩ | ⟨f, stamp, h⟩
    · exact absurd hw nofun
    · exact absurd h nofun
    · simp at h

/-- Two fetches of one key, an invalidation, and the first is dropped. -/
def twoFetches : List Choice :=
  [.call (.generation ⟨.lists, "t|sp_index", none⟩), .act 0 (.still 0),
    .call (.generation ⟨.lists, "t|sp_index", none⟩), .act 1 (.still 1)]

def oneDropped : List Choice :=
  twoFetches ++ [.call (.bump (.invalidate .lists "t|sp_index")), .act 2 (.still 2), .act 0 (.still 3),
    .act 0 (.still 4)]

/-- The row has two references, and one after the drop. -/
theorem watch_table_exact_two_fetches : ∃ tr s tr' u, Runs tr s ∧ Runs tr' u ∧
    s.guards (.lists, "t|sp_index") = 2 ∧ u.guards (.lists, "t|sp_index") = 1 ∧
      (∀ watch, s.cache.watches.lookup (.lists, "t|sp_index") = some watch → watch.refs = 2) ∧
      (.lists, "t|sp_index") ∈ u.cache.watches ∧
      ∀ watch, u.cache.watches.lookup (.lists, "t|sp_index") = some watch → watch.refs = 1 := by
  have hrun : Runs _ _ := State.run_of_playAll (rfl : State.init.playAll twoFetches = _)
  have hrun' : Runs _ _ := State.run_of_playAll (rfl : State.init.playAll oneDropped = _)
  refine ⟨_, _, _, _, hrun, hrun', by decide, by decide, fun watch hlookup => ?_, ?_, fun watch hlookup => ?_⟩
  · rw [(watch_table_exact hrun).2.1 _ _ hlookup]
    decide
  · exact ((watch_table_exact hrun').1 _).2 ⟨_, _, .tail _ (.head _), rfl, rfl, rfl⟩
  · rw [(watch_table_exact hrun').2.1 _ _ hlookup]
    decide

/-! A guard that joins a watched key is registered even when the table is full: `generation_for`
looks for the key before it looks at the size. -/

/-- The keys that fill the table. -/
def fillerKey (n : Nat) : String := String.ofList (List.replicate n 'k')

theorem fillerKey_inj {m n : Nat} (h : fillerKey m = fillerKey n) : m = n := by
  have := congrArg (fun k => k.toList.length) h
  simpa [fillerKey] using this

/-- The table can be filled with guards that saw no bump. -/
theorem fill_watches (n : Nat) (hn : n ≤ maxWatches) :
    ∃ tr s, Runs tr s ∧ s.cache.config = .default ∧ s.cache.watches.entries.length = n ∧
      (∀ m, n ≤ m → s.cache.watches.lookup (.lists, fillerKey m) = none) ∧
      (0 < n → ∃ refs, s.cache.watches.lookup (.lists, fillerKey 0) = some ⟨0, refs⟩) := by
  induction n with
  | zero => exact ⟨[], State.init, .nil, rfl, rfl, fun _ _ => rfl, fun h => absurd h (by omega)⟩
  | succ n ih =>
    obtain ⟨tr, s, hrun, hconfig, hlen, hnone, hzero⟩ := ih (by omega)
    have hcall : Step s _ _ := .call (.generation ⟨.lists, fillerKey n, none⟩) rfl
    have hact : Step ⟨s.cache, s.calls ++ [.generation ⟨.lists, fillerKey n, none⟩]⟩ _ _ :=
      .act_last (.still 0) rfl
    have hgen : s.cache.generationFor .lists (fillerKey n)
        = ({ s.cache with watches := s.cache.watches.insert (.lists, fillerKey n) ⟨0, 1⟩ },
          ⟨.lists, fillerKey n, 0, true⟩) := by
      rw [generationFor, hnone n (Nat.le_refl n)]
      simp only [hlen, show ¬ maxWatches ≤ n by omega, if_false]
    refine ⟨_, _, .snoc (.snoc hrun hcall) hact, ?_, ?_, ?_, ?_⟩
    · simp only [Effect.run, hgen]
      exact hconfig
    · simp only [Effect.run, hgen, AList.length_insert,
        AList.erase_of_lookup_none _ _ (hnone n (Nat.le_refl n)), hlen]
    · intro m hm
      have hne : ((CacheKind.lists, fillerKey m) : CacheKind × String) ≠ (.lists, fillerKey n) := by
        intro h
        have := fillerKey_inj (Prod.mk.inj h).2
        omega
      simp only [Effect.run, hgen, AList.lookup_insert_eq, hne, if_false]
      exact hnone m (by omega)
    · intro _
      simp only [Effect.run, hgen, AList.lookup_insert_eq]
      split
      · exact ⟨1, rfl⟩
      · next hne =>
        refine hzero (Nat.pos_of_ne_zero (fun h0 => hne ?_))
        rw [h0]

/-- A fetch whose key is not bumped stores, when it runs alone to its end and caching is on. -/
theorem fetch_alone_stores {calls : List Call} {f : Fetch} {w : IndexWatch}
    {store : Store} {payload : Payload} (hstore : f.store = some store)
    (hpayload : store.payload = some payload) (henabled : c.config.enabled = true)
    (hw : w.holdsRef = true) (hpeek : c.peekWatch w.kind w.key = some w.since) :
    ∃ tr u stamp, Run Step ⟨c, calls ++ [.fetching f w]⟩ tr u ∧
      u.calls[calls.length]? = some (.returned f (some stamp) true) := by
  let maxSize := capFor f.kind c.config.maxSize
  let ttl := c.config.ttlFor f.kind
  let inserted : Effect := .bucket f.kind (Call.putOps f.key payload maxSize ttl (.still 0))
  let stamp := Call.putStamp c f.kind f.key payload (.still 0)
  have hfetch : (Call.fetching f w).step c (.still 0) = some (.idle, .preCheck f w store) := by
    simp only [Call.step, hstore]
  have hcheck : (Call.preCheck f w store).step c (.still 0)
      = some (.idle, .storeLimits f w store) := by
    simp only [Call.step, current, hw, hpeek, if_true]
  have hlimits : (Call.storeLimits f w store).step c (.still 0)
      = some (.idle, .storeInsert f w payload maxSize ttl) := by
    simp only [Call.step, limitsIfEnabled, henabled, hpayload, if_true, maxSize, ttl]
  have hinsert : (Call.storeInsert f w payload maxSize ttl).step c (.still 0)
      = some (inserted, .release f w (some stamp)) := rfl
  -- the insert is no bump, so the second look finds the counter where it was
  have hagain : (Effect.run c inserted).peekWatch w.kind w.key = some w.since := by
    rw [peekWatch, show (Effect.run c inserted).watches = c.watches from watches_onBucket _ _ c]
    exact hpeek
  have hrelease : (Call.release f w (some stamp)).step (Effect.run c inserted) (.still 0)
      = some (.release w.kind w.key, .returned f (some stamp) true) := by
    simp only [Call.step, hw, if_true, releaseWatch_snd, hagain, Call.afterRelease]
    rfl
  exact ⟨_, _, stamp, .snoc (.snoc (.snoc (.snoc (.snoc .nil (.act_last _ hfetch))
    (.act_last _ hcheck)) (.act_last _ hlimits)) (.act_last _ hinsert)) (.act_last _ hrelease),
    by simp⟩

/-- A guard created while the table was full does make a store succeed when it joins a watch. -/
theorem full_table_joined_guard_stores :
    ¬ ∀ tr s i kind key s₁ tr₁ u f stamp, Runs tr s →
      maxWatches ≤ s.cache.watches.entries.length → Step s ⟨i, .generation kind key⟩ s₁ →
      Run Step s₁ tr₁ u → u.calls[i]? ≠ some (.returned f stamp true) := by
  intro hclaim
  obtain ⟨tr, s, hrun, hconfig, hlen, -, hzero⟩ := fill_watches maxWatches (Nat.le_refl _)
  obtain ⟨refs, hwatch⟩ := hzero (by decide)
  let f : Fetch := ⟨.lists, fillerKey 0, some (.typed 0 1 true)⟩
  let w : IndexWatch := ⟨.lists, fillerKey 0, 0, true⟩
  have hgen : s.cache.generationFor .lists (fillerKey 0) = ({ s.cache with
      watches := s.cache.watches.insert (.lists, fillerKey 0) (Watch.mk 0 (refs + 1)) }, w) := by
    rw [generationFor, hwatch]
  have hstep : (Call.generation f).step s.cache (.still 0)
      = some (.generation .lists (fillerKey 0), .fetching f w) := by
    show some (Effect.generation _ _, Call.fetching f (s.cache.generationFor .lists _).2) = _
    rw [hgen]
  obtain ⟨tr₁, u, stamp, hrest, hret⟩ := @fetch_alone_stores
    (Effect.run s.cache (.generation .lists (fillerKey 0))) s.calls f w _ _
    rfl rfl (by rw [Effect.run, hgen, hconfig]; rfl) rfl
    (by rw [Effect.run, hgen]; simp [peekWatch, w])
  exact hclaim _ _ _ _ _ _ _ _ f (some stamp) (.snoc hrun (.call (.generation f) rfl))
    (Nat.le_of_eq hlen.symm) (.act_last _ hstep) hrest hret

end Cache
