import AzAppToolkit.Cache.Bucket

set_option autoImplicit false

/-! # The bucket's bookkeeping stays exact

First what each operation does to the entry under a key, one equation per operation; everything
else about a bucket is read off these. Then the invariant `Bucket.Consistent` that ties the pinned
count, the LRU index, the ticks and the stamps to the live entries, and its preservation by every
operation and by every sequence of operations. -/

namespace Bucket

/-! ## What an operation does to the entry under a key -/

@[simp] theorem get_new (k : String) : new.get k = none := rfl

theorem get_touch (b : Bucket) (key k : String) :
    (b.touch key).get k
      = if k = key then (b.get key).map (fun e => { e with lastAccess := b.tick + 1 })
        else b.get k := by
  unfold touch get
  split
  · next h =>
    by_cases hk : k = key
    · subst hk; simp [h]
    · simp [hk]
  · next e h => by_cases hk : k = key <;> simp [AList.lookup_insert_eq, hk, h]

theorem get_insert (b : Bucket) (key k : String) (value : Arc) (typed : Option Arc) (pinned : Bool)
    (inserted : Instant) :
    (b.insert key value typed pinned inserted).1.get k
      = if k = key then some ⟨value, typed, inserted, b.tick + 1, pinned, b.nextStamp + 1⟩
        else b.get k := by
  simp [insert, get, AList.lookup_insert_eq]

theorem get_remove (b : Bucket) (key k : String) :
    (b.remove key).1.get k = if k = key then none else b.get k := by
  unfold remove get
  split
  · simp [AList.lookup_erase_eq]
  · next h =>
    by_cases hk : k = key
    · subst hk; simpa using h
    · simp [hk]

theorem get_removeIfStamp (b : Bucket) (key k : String) (stamp : Nat) :
    (b.removeIfStamp key stamp).1.get k
      = if k = key then (b.get key).filter (fun e => e.stamp ≠ stamp) else b.get k := by
  unfold removeIfStamp
  split
  · next e h =>
    have hget : b.get key = some e := h
    split
    · next hs => rw [get_remove, hget]; simp [Option.filter, hs]
    · next hs =>
      by_cases hk : k = key
      · subst hk; simp [Option.filter, hget, hs]
      · simp [hk]
  · next h =>
    have hget : b.get key = none := h
    by_cases hk : k = key
    · subst hk; simp [hget]
    · simp [hk]

theorem get_replaceTypedIfSame (b : Bucket) (key k : String) (expected next : Arc) :
    (b.replaceTypedIfSame key expected next).1.get k
      = if k = key then (b.get key).map (fun e =>
        if e.typed = some expected then { e with typed := some next } else e)
        else b.get k := by
  unfold replaceTypedIfSame get
  split
  · next e h =>
    split
    · next ht => by_cases hk : k = key <;> simp [AList.lookup_insert_eq, hk, h, ht]
    · next ht =>
      by_cases hk : k = key
      · subst hk; simp [h, ht]
      · simp [hk]
  · next h =>
    by_cases hk : k = key
    · subst hk; simp [h]
    · simp [hk]

theorem get_retain (b : Bucket) (keep : String → Bool) (k : String) :
    (b.retain keep).get k = if keep k then b.get k else none := by
  show (AList.retain b.entries (fun key _ => keep key)).lookup k = _
  rw [AList.lookup_retain]
  cases hk : keep k <;> cases h : b.entries.lookup k <;> simp [get, h, Option.filter]

@[simp] theorem get_clear (b : Bucket) (k : String) : b.clear.get k = none := rfl

theorem get_evictExpired (b : Bucket) (clock : Clock) (ttl : Duration) (k : String) :
    (b.evictExpired clock ttl).get k
      = (b.get k).filter (fun e => e.inserted.elapsed (clock.visit k) ≤ ttl) := by
  show (AList.retain b.entries _).lookup k = _
  rw [AList.lookup_retain]
  rfl

/-! ## The invariant -/

/-- The LRU index holds exactly the rows `(last access, key)` of the live entries. -/
def LruExact (entries : Table String Entry) (lru : Table Nat String) : Prop :=
  ∀ tick key, lru.lookup tick = some key ↔ ∃ e, entries.lookup key = some e ∧ e.lastAccess = tick

/-- The bookkeeping a bucket keeps by hand agrees with its live entries. -/
structure Consistent (b : Bucket) : Prop where
  pinned_eq : b.pinned = b.entries.countRows (·.pinned)
  lru_exact : LruExact b.entries b.lru
  tick_le : ∀ key e, b.get key = some e → e.lastAccess ≤ b.tick
  stamp_le : ∀ key e, b.get key = some e → e.stamp ≤ b.nextStamp

variable {entries : Table String Entry} {lru : Table Nat String}

theorem LruExact.ticks_inj
    (h : LruExact entries lru) {k k' : String} {e e' : Entry} (hk : entries.lookup k = some e)
    (hk' : entries.lookup k' = some e') (ht : e.lastAccess = e'.lastAccess) : k = k' := by
  have h1 := (h e.lastAccess k).2 ⟨e, hk, rfl⟩
  have h2 := (h e.lastAccess k').2 ⟨e', hk', ht.symm⟩
  rw [h1] at h2
  exact Option.some.inj h2

/-- Putting an entry with a fresh tick under `key`: its row comes in, the previous entry's row
    goes. -/
theorem LruExact.insert (h : LruExact entries lru) (key : String) (e : Entry)
    (hfresh : ∀ k e', entries.lookup k = some e' → e'.lastAccess < e.lastAccess) :
    LruExact (entries.insert key e)
      ((match entries.lookup key with
        | some previous => lru.erase previous.lastAccess
        | none => lru).insert e.lastAccess key) := by
  intro tick k
  rw [AList.lookup_insert_eq, AList.lookup_insert_eq]
  by_cases ht : tick = e.lastAccess
  · subst ht
    rw [if_pos rfl, Option.some.injEq]
    constructor
    · rintro rfl
      exact ⟨e, if_pos rfl, rfl⟩
    · rintro ⟨e', he', hla⟩
      by_contra hne
      rw [if_neg (fun hk => hne hk.symm)] at he'
      have := hfresh k e' he'
      omega
  · rw [if_neg ht]
    by_cases hk : k = key
    · subst hk
      rw [if_pos rfl]
      constructor
      · intro hl
        exfalso
        split at hl
        · next previous hp =>
          rw [AList.lookup_erase_eq] at hl
          split at hl
          · exact absurd hl (by simp)
          · next hne =>
            obtain ⟨e', he', hla⟩ := (h tick k).1 hl
            rw [hp] at he'
            exact hne (by rw [← hla, ← Option.some.inj he'])
        · next hp =>
          obtain ⟨e', he', -⟩ := (h tick k).1 hl
          rw [hp] at he'
          exact absurd he' (by simp)
      · rintro ⟨e', he', hla⟩
        exact absurd (by rw [← hla, Option.some.inj he']) ht
    · rw [if_neg hk, ← h tick k]
      split
      · next previous hp =>
        rw [AList.lookup_erase_eq]
        split
        · next heq =>
          -- the erased row is the previous entry's, whose key is not `k`
          have hrow := (h tick key).2 ⟨previous, hp, heq.symm⟩
          rw [hrow]
          simpa using Ne.symm hk
        · rfl
      · rfl

theorem LruExact.erase
    (h : LruExact entries lru) (key : String) (e : Entry) (he : entries.lookup key = some e) :
    LruExact (entries.erase key) (lru.erase e.lastAccess) := by
  intro tick k
  rw [AList.lookup_erase_eq, AList.lookup_erase_eq]
  by_cases hk : k = key
  · subst hk
    rw [if_pos rfl]
    constructor
    · intro hl
      split at hl
      · exact absurd hl (by simp)
      · next hne =>
        obtain ⟨e', he', hla⟩ := (h tick k).1 hl
        rw [he] at he'
        exact absurd (by rw [← hla, ← Option.some.inj he']) hne
    · rintro ⟨e', he', -⟩
      exact absurd he' (by simp)
  · rw [if_neg hk, ← h tick k]
    split
    · next heq =>
      have hrow := (h tick key).2 ⟨e, he, heq.symm⟩
      rw [hrow]
      simpa using Ne.symm hk
    · rfl

/-- Pruning restores exactness after entries were dropped in bulk. -/
theorem LruExact.prune {entries kept : Table String Entry} (h : LruExact entries lru)
    (hsub : ∀ k e, kept.lookup k = some e → entries.lookup k = some e) :
    LruExact kept (lru.retain (fun tick key =>
      match kept.lookup key with
      | some e => e.lastAccess == tick
      | none => false)) := by
  intro tick k
  rw [AList.lookup_retain, Option.filter_eq_some_iff, h tick k]
  constructor
  · rintro ⟨⟨e, he, hla⟩, hkeep⟩
    split at hkeep
    · next e' he' => exact ⟨e', he', by simpa using hkeep⟩
    · exact absurd hkeep (by simp)
  · rintro ⟨e, he, hla⟩
    exact ⟨⟨e, hsub k e he, hla⟩, by simp [he, hla]⟩

/-! ## Preservation, operation by operation -/

theorem consistent_new : Consistent new where
  pinned_eq := rfl
  lru_exact := fun tick key => by simp [new]
  tick_le := fun key e h => by simp at h
  stamp_le := fun key e h => by simp at h

variable {b : Bucket}

theorem Consistent.touch (h : Consistent b) (key : String) : Consistent (b.touch key) := by
  have hget := get_touch b key
  have hfresh : ∀ k e', b.entries.lookup k = some e' → e'.lastAccess < b.tick + 1 :=
    fun k e' he' => Nat.lt_succ_of_le (h.tick_le k e' he')
  cases hkey : b.entries.lookup key with
  | none =>
    have hb : b.touch key = { b with tick := b.tick + 1 } := by simp [Bucket.touch, hkey]
    rw [hb]
    exact ⟨h.pinned_eq, h.lru_exact, fun k e he => Nat.le_succ_of_le (h.tick_le k e he),
      h.stamp_le⟩
  | some e =>
    have hb : b.touch key = { b with
        tick := b.tick + 1
        entries := b.entries.insert key { e with lastAccess := b.tick + 1 }
        lru := (b.lru.erase e.lastAccess).insert (b.tick + 1) key } := by
      simp [Bucket.touch, hkey]
    refine ⟨?_, ?_, ?_, ?_⟩
    · rw [hb]
      show b.pinned = _
      rw [h.pinned_eq, AList.countRows_insert, AList.countRows_erase b.entries _ key e hkey]
    · rw [hb]
      have := h.lru_exact.insert key { e with lastAccess := b.tick + 1 } hfresh
      simpa only [hkey] using this
    · intro k e' he'
      rw [hget] at he'
      rw [hb]
      split at he'
      · obtain ⟨e₀, -, rfl⟩ := Option.map_eq_some_iff.1 he'
        exact Nat.le_refl _
      · exact Nat.le_succ_of_le (h.tick_le k e' he')
    · intro k e' he'
      rw [hget] at he'
      rw [hb]
      split at he'
      · obtain ⟨e₀, he₀, rfl⟩ := Option.map_eq_some_iff.1 he'
        exact h.stamp_le key e₀ he₀
      · exact h.stamp_le k e' he'

theorem Consistent.insert (h : Consistent b) (key : String) (value : Arc)
    (typed : Option Arc) (pinned : Bool) (inserted : Instant) :
    Consistent (b.insert key value typed pinned inserted).1 := by
  have hget := fun k => get_insert b key k value typed pinned inserted
  have hfresh : ∀ k e', b.entries.lookup k = some e' → e'.lastAccess < b.tick + 1 :=
    fun k e' he' => Nat.lt_succ_of_le (h.tick_le k e' he')
  have hlru := h.lru_exact.insert key ⟨value, typed, inserted, b.tick + 1, pinned, b.nextStamp + 1⟩
    hfresh
  refine ⟨?_, hlru, ?_, ?_⟩
  · show (match b.entries.lookup key with
      | some p => if p.pinned then (if pinned then b.pinned + 1 else b.pinned) - 1
          else if pinned then b.pinned + 1 else b.pinned
      | none => if pinned then b.pinned + 1 else b.pinned) = _
    rw [h.pinned_eq]
    simp only [Bucket.insert, AList.countRows_insert]
    split
    · next p hp =>
      rw [AList.countRows_erase b.entries _ key p hp]
      cases p.pinned <;> cases pinned <;> simp
    · next hp =>
      rw [AList.erase_of_lookup_none _ _ hp]
      cases pinned <;> simp
  · intro k e he
    rw [hget] at he
    show e.lastAccess ≤ b.tick + 1
    split at he
    · rw [← Option.some.inj he]
    · exact Nat.le_succ_of_le (h.tick_le k e he)
  · intro k e he
    rw [hget] at he
    show e.stamp ≤ b.nextStamp + 1
    split at he
    · rw [← Option.some.inj he]
    · exact Nat.le_succ_of_le (h.stamp_le k e he)

theorem Consistent.remove (h : Consistent b) (key : String) : Consistent (b.remove key).1 := by
  unfold Bucket.remove
  split
  · next e he =>
    have hsub : ∀ k e', (b.entries.erase key).lookup k = some e' → b.get k = some e' := by
      intro k e' hk
      rw [AList.lookup_erase_eq] at hk
      split at hk
      · exact absurd hk (by simp)
      · exact hk
    refine ⟨?_, h.lru_exact.erase key e he, fun k e' hk => h.tick_le k e' (hsub k e' hk),
      fun k e' hk => h.stamp_le k e' (hsub k e' hk)⟩
    have hsplit := AList.countRows_erase b.entries (·.pinned) key e he
    simp only [h.pinned_eq, hsplit]
    cases e.pinned <;> simp
  · exact h

theorem Consistent.removeIfStamp (h : Consistent b) (key : String) (stamp : Nat) :
    Consistent (b.removeIfStamp key stamp).1 := by
  unfold Bucket.removeIfStamp
  split
  · split
    · exact h.remove key
    · exact h
  · exact h

theorem Consistent.replaceTypedIfSame (h : Consistent b) (key : String)
    (expected next : Arc) : Consistent (b.replaceTypedIfSame key expected next).1 := by
  unfold Bucket.replaceTypedIfSame
  split
  · next e he =>
    split
    · -- the swapped entry keeps its tick, pin and stamp, so every clause reads as before
      have hold : ∀ k e', (b.entries.insert key { e with typed := some next }).lookup k = some e' →
          ∃ e₀, b.get k = some e₀ ∧ e₀.lastAccess = e'.lastAccess ∧ e₀.stamp = e'.stamp := by
        intro k e' hk
        rw [AList.lookup_insert_eq] at hk
        split at hk
        · next heq =>
          subst heq
          exact ⟨e, he, by rw [← Option.some.inj hk], by rw [← Option.some.inj hk]⟩
        · exact ⟨e', hk, rfl, rfl⟩
      refine ⟨?_, ?_, ?_, ?_⟩
      · show b.pinned = _
        rw [h.pinned_eq, AList.countRows_insert, AList.countRows_erase b.entries _ key e he]
      · intro tick k
        rw [h.lru_exact tick k, AList.lookup_insert_eq]
        by_cases hk : k = key
        · subst hk; simp [he]
        · simp [hk]
      · intro k e' hk
        obtain ⟨e₀, he₀, hla, -⟩ := hold k e' hk
        rw [← hla]
        exact h.tick_le k e₀ he₀
      · intro k e' hk
        obtain ⟨e₀, he₀, -, hst⟩ := hold k e' hk
        rw [← hst]
        exact h.stamp_le k e₀ he₀
    · exact h
  · exact h

theorem Consistent.retain (h : Consistent b) (keep : String → Bool) : Consistent (b.retain keep) := by
  have hsub : ∀ k e, (b.retain keep).get k = some e → b.get k = some e := by
    intro k e hk
    rw [get_retain] at hk
    split at hk
    · exact hk
    · exact absurd hk (by simp)
  refine ⟨?_, h.lru_exact.prune hsub, fun k e hk => h.tick_le k e (hsub k e hk),
    fun k e hk => h.stamp_le k e (hsub k e hk)⟩
  have hsplit := AList.countRows_retain b.entries (fun key _ => keep key) (·.pinned)
  show b.pinned - _ = _
  rw [h.pinned_eq, hsplit]
  simp [Bucket.retain, pruneLru]

theorem Consistent.clear (_ : Consistent b) : Consistent b.clear where
  pinned_eq := rfl
  lru_exact := fun tick key => by simp [Bucket.clear]
  tick_le := fun key e h => by simp at h
  stamp_le := fun key e h => by simp at h

theorem Consistent.evictExpired (h : Consistent b) (clock : Clock) (ttl : Duration) :
    Consistent (b.evictExpired clock ttl) := by
  have hsub : ∀ k e, (b.evictExpired clock ttl).get k = some e → b.get k = some e := by
    intro k e hk
    rw [get_evictExpired] at hk
    exact (Option.filter_eq_some_iff.1 hk).1
  exact ⟨rfl, h.lru_exact.prune hsub, fun k e hk => h.tick_le k e (hsub k e hk),
    fun k e hk => h.stamp_le k e (hsub k e hk)⟩

/-! ## LRU eviction

The loop works on a bucket whose LRU index lacks the rows already set aside, so its invariant is
`Consistent` with the index read together with `skipped`. -/

/-- `Consistent`, with the rows in `skipped` counted as part of the index. -/
structure LoopInv (b : Bucket) (skipped : List (Nat × String)) : Prop where
  pinned_eq : b.pinned = b.entries.countRows (·.pinned)
  rows : ∀ tick key, (b.lru.lookup tick = some key ∨ (tick, key) ∈ skipped) ↔
    ∃ e, b.entries.lookup key = some e ∧ e.lastAccess = tick
  ticks_inj : ∀ k k' e e', b.entries.lookup k = some e → b.entries.lookup k' = some e' →
    e.lastAccess = e'.lastAccess → k = k'
  skipped_pinned : ∀ tick key, (tick, key) ∈ skipped → ∃ e, b.entries.lookup key = some e ∧ e.pinned

theorem Consistent.loopInv (h : Consistent b) : LoopInv b [] where
  pinned_eq := h.pinned_eq
  rows := fun tick key => by simpa using h.lru_exact tick key
  ticks_inj := fun _ _ _ _ hk hk' ht => h.lru_exact.ticks_inj hk hk' ht
  skipped_pinned := fun _ _ hmem => absurd hmem (by simp)

/-- Setting the oldest row aside when its entry is pinned. -/
theorem LoopInv.skip {skipped : List (Nat × String)} (h : LoopInv b skipped)
    {tick : Nat} {key : String} {e : Entry} (hrow : b.lru.lookup tick = some key)
    (he : b.entries.lookup key = some e) (hp : e.pinned = true) :
    LoopInv { b with lru := b.lru.erase tick } (skipped ++ [(tick, key)]) where
  pinned_eq := h.pinned_eq
  rows := by
    intro t k
    rw [← h.rows t k]
    simp only [AList.lookup_erase_eq, List.mem_append, List.mem_singleton, Prod.mk.injEq]
    by_cases ht : t = tick
    · subst ht
      simp only [if_true, hrow, Option.some.injEq, true_and]
      constructor
      · rintro (h' | h' | rfl)
        · exact absurd h' (by simp)
        · exact Or.inr h'
        · exact Or.inl rfl
      · rintro (rfl | h')
        · exact Or.inr (Or.inr rfl)
        · exact Or.inr (Or.inl h')
    · simp [ht]
  ticks_inj := h.ticks_inj
  skipped_pinned := by
    intro t k hmem
    rcases List.mem_append.1 hmem with hmem | hmem
    · exact h.skipped_pinned t k hmem
    · simp only [List.mem_singleton, Prod.mk.injEq] at hmem
      obtain ⟨rfl, rfl⟩ := hmem
      exact ⟨e, he, hp⟩

/-- Dropping the entry of the oldest row when it is not pinned. -/
theorem LoopInv.drop {skipped : List (Nat × String)} (h : LoopInv b skipped)
    {tick : Nat} {key : String} {e : Entry} (hrow : b.lru.lookup tick = some key)
    (he : b.entries.lookup key = some e) (hp : e.pinned = false) :
    LoopInv { b with lru := b.lru.erase tick, entries := b.entries.erase key } skipped where
  pinned_eq := by
    have hsplit := AList.countRows_erase b.entries (·.pinned) key e he
    simp only [h.pinned_eq, hsplit, hp]
    simp
  rows := by
    intro t k
    have htick : e.lastAccess = tick := by
      obtain ⟨e', he', hla⟩ := (h.rows tick key).1 (Or.inl hrow)
      rw [he] at he'
      rw [Option.some.inj he', hla]
    simp only [AList.lookup_erase_eq]
    by_cases hk : k = key
    · subst hk
      simp only [if_true]
      constructor
      · rintro (hl | hmem)
        · split at hl
          · exact absurd hl (by simp)
          · next hne =>
            obtain ⟨e', he', hla⟩ := (h.rows t k).1 (Or.inl hl)
            rw [he] at he'
            exact absurd (by rw [← hla, ← Option.some.inj he', htick]) hne
        · obtain ⟨e', he', hp'⟩ := h.skipped_pinned t k hmem
          rw [he] at he'
          rw [← Option.some.inj he', hp] at hp'
          exact absurd hp' (by simp)
      · rintro ⟨e', he', -⟩
        exact absurd he' (by simp)
    · rw [if_neg hk, ← h.rows t k]
      by_cases ht : t = tick
      · subst ht
        have hne : ¬ key = k := fun h' => hk h'.symm
        simp [hrow, hne]
      · simp [ht]
  ticks_inj := by
    intro k k' e₁ e₂ hk hk' ht
    rw [AList.lookup_erase_eq] at hk hk'
    split at hk
    · exact absurd hk (by simp)
    · split at hk'
      · exact absurd hk' (by simp)
      · exact h.ticks_inj k k' e₁ e₂ hk hk' ht
  skipped_pinned := by
    intro t k hmem
    obtain ⟨e', he', hp'⟩ := h.skipped_pinned t k hmem
    have hk : k ≠ key := by
      rintro rfl
      rw [he] at he'
      rw [← Option.some.inj he', hp] at hp'
      exact absurd hp' (by simp)
    exact ⟨e', by rw [AList.lookup_erase_eq, if_neg hk]; exact he', hp'⟩

/-- With exact rows the oldest row is never stale, so one turn of the loop skips it or drops its
    entry. -/
theorem LoopInv.row {skipped : List (Nat × String)} (h : LoopInv b skipped)
    {tick : Nat} {key : String} (hrow : b.lru.lookup tick = some key) :
    ∃ e, b.entries.lookup key = some e ∧ e.lastAccess = tick :=
  (h.rows tick key).1 (Or.inl hrow)

/-- What the loop leaves behind: a bucket whose rows are exact again once the skipped ones are put
    back, in which an entry is gone only if it was unpinned, the cap was exceeded, and no unpinned
    entry that is left was used before it. Each drop happens above the cap, so the loop never goes
    under it. -/
structure LoopPost (maxSize : Nat) (b b' : Bucket) (skipped' : List (Nat × String)) : Prop where
  inv : LoopInv b' skipped'
  tick_eq : b'.tick = b.tick
  stamp_eq : b'.nextStamp = b.nextStamp
  oldest_eq : b'.oldestInsert = b.oldestInsert
  kept : ∀ k e, b'.entries.lookup k = some e → b.entries.lookup k = some e
  floor : maxSize ≤ b.unpinnedLen → maxSize ≤ b'.unpinnedLen
  victim : ∀ k e, b.entries.lookup k = some e → b'.entries.lookup k = none →
    e.pinned = false ∧ maxSize < b.unpinnedLen ∧
      ∀ k' e', b'.entries.lookup k' = some e' → e'.pinned = false → e.lastAccess < e'.lastAccess

theorem evictLruLoop_post (maxSize : Nat) :
    ∀ (turns : Nat) (b : Bucket) (skipped : List (Nat × String)), LoopInv b skipped →
      LoopPost maxSize b (evictLruLoop maxSize turns b skipped).1
        (evictLruLoop maxSize turns b skipped).2 := by
  -- a turn that does nothing leaves the bucket as it is
  have hstop : ∀ (b : Bucket) (skipped : List (Nat × String)), LoopInv b skipped →
      LoopPost maxSize b b skipped := fun b skipped h =>
    ⟨h, rfl, rfl, rfl, fun _ _ hk => hk, fun hle => hle,
      fun k e hk hn => by rw [hk] at hn; exact absurd hn (by simp)⟩
  intro turns
  induction turns with
  | zero => exact hstop
  | succ turns ih =>
    intro b skipped h
    rw [evictLruLoop]
    split
    · next hover =>
      split
      · exact hstop b skipped h
      · next tick key lru hpop =>
        obtain ⟨hrow, rfl, hleast⟩ := AList.popFirst_eq_some _ _ _ _ hpop
        obtain ⟨e, he, hla⟩ := h.row hrow
        simp only [he, hla, ne_eq, not_true_eq_false, if_false]
        split
        · next hp =>
          have post := ih _ _ (h.skip hrow he hp)
          exact ⟨post.inv, post.tick_eq, post.stamp_eq, post.oldest_eq, post.kept,
            post.floor, post.victim⟩
        · next hp =>
          have hp : e.pinned = false := by simpa using hp
          have post := ih _ _ (h.drop hrow he hp)
          have hkept : ∀ k e', (b.entries.erase key).lookup k = some e' →
              b.entries.lookup k = some e' := by
            intro k e' hk
            rw [AList.lookup_erase_eq] at hk
            split at hk
            · exact absurd hk (by simp)
            · exact hk
          have hlen : maxSize ≤ unpinnedLen
              { b with lru := b.lru.erase tick, entries := b.entries.erase key } := by
            have := AList.length_erase b.entries key e he
            simp only [unpinnedLen] at hover ⊢
            omega
          refine ⟨post.inv, post.tick_eq, post.stamp_eq, post.oldest_eq,
            fun k e' hk => hkept k e' (post.kept k e' hk), fun _ => post.floor hlen, ?_⟩
          intro k e₁ hk hgone
          by_cases hkk : k = key
          · subst hkk
            rw [he] at hk
            obtain rfl := Option.some.inj hk
            refine ⟨hp, hover, fun k' e' hk' hp' => ?_⟩
            -- a survivor's row is still in the index, and the popped row was the least
            have hin := post.kept k' e' hk'
            rcases (h.drop hrow he hp).rows e'.lastAccess k' |>.2 ⟨e', hin, rfl⟩ with hl | hs
            · rw [hla]
              exact hleast _ _ hl
            · obtain ⟨e₂, he₂, hp₂⟩ := h.skipped_pinned _ _ hs
              rw [hkept k' e' hin] at he₂
              rw [← Option.some.inj he₂, hp'] at hp₂
              exact absurd hp₂ (by simp)
          · have hk' : (b.entries.erase key).lookup k = some e₁ := by
              rw [AList.lookup_erase_eq, if_neg hkk]
              exact hk
            obtain ⟨hun, hmax, hold⟩ := post.victim k e₁ hk' hgone
            exact ⟨hun, hover, hold⟩
    · exact hstop b skipped h

/-- Putting the skipped rows back into the index. -/
theorem lookup_putBack (rows : List (Nat × String)) (lru : Table Nat String) (tick : Nat) (key : String)
    (hfun : ∀ t k k', (lru.lookup t = some k ∨ (t, k) ∈ rows) →
      (lru.lookup t = some k' ∨ (t, k') ∈ rows) → k = k') :
    (rows.foldl (fun lru row => lru.insert row.1 row.2) lru).lookup tick = some key ↔
      lru.lookup tick = some key ∨ (tick, key) ∈ rows := by
  induction rows generalizing lru with
  | nil => simp
  | cons r rest ih =>
    obtain ⟨t₀, k₀⟩ := r
    have hstep : ∀ t k, ((lru.insert t₀ k₀).lookup t = some k ∨ (t, k) ∈ rest) ↔
        (lru.lookup t = some k ∨ (t, k) ∈ (t₀, k₀) :: rest) := by
      intro t k
      rw [AList.lookup_insert_eq]
      by_cases ht : t = t₀
      · subst ht
        rw [if_pos rfl]
        simp only [Option.some.injEq, List.mem_cons, Prod.mk.injEq, true_and]
        constructor
        · rintro (rfl | h)
          · exact Or.inr (Or.inl rfl)
          · exact Or.inr (Or.inr h)
        · rintro (h | rfl | h)
          · exact Or.inl (hfun t k₀ k (Or.inr List.mem_cons_self) (Or.inl h))
          · exact Or.inl rfl
          · exact Or.inr h
      · rw [if_neg ht]
        simp [ht]
    rw [List.foldl_cons, ih (lru.insert t₀ k₀), hstep tick key]
    intro t k k' hk hk'
    exact hfun t k k' ((hstep t k).1 hk) ((hstep t k').1 hk')

/-- What `evictLru` does to a consistent bucket. -/
theorem evictLru_post (h : Consistent b) (maxSize : Nat) :
    LoopPost maxSize b (evictLruLoop maxSize b.lru.entries.length b []).1
      (evictLruLoop maxSize b.lru.entries.length b []).2 :=
  evictLruLoop_post maxSize _ b [] h.loopInv

theorem Consistent.evictLru (h : Consistent b) (maxSize : Nat) : Consistent (b.evictLru maxSize) := by
  have post := evictLru_post h maxSize
  refine ⟨post.inv.pinned_eq, ?_, ?_, ?_⟩
  · intro tick key
    refine (lookup_putBack _ _ tick key ?_).trans (post.inv.rows tick key)
    intro t k k' hk hk'
    obtain ⟨e, he, hla⟩ := (post.inv.rows t k).1 hk
    obtain ⟨e', he', hla'⟩ := (post.inv.rows t k').1 hk'
    exact post.inv.ticks_inj k k' e e' he he' (hla.trans hla'.symm)
  · intro k e he
    exact (h.tick_le k e (post.kept k e he)).trans (Nat.le_of_eq post.tick_eq.symm)
  · intro k e he
    exact (h.stamp_le k e (post.kept k e he)).trans (Nat.le_of_eq post.stamp_eq.symm)

/-- The put path's eviction pass does nothing, or makes room, or sweeps and then makes room. -/
theorem evictIfNeeded_cases (b : Bucket) (clock : Clock) (ttl : Duration) (maxSize : Nat) :
    b.evictIfNeeded clock ttl maxSize = b ∨
    b.evictIfNeeded clock ttl maxSize = b.evictLru maxSize ∨
    b.evictIfNeeded clock ttl maxSize = (b.evictExpired clock ttl).evictLru maxSize := by
  unfold evictIfNeeded
  extract_lets overCap exactAllowed limit anythingExpired
  by_cases hidle : (!anythingExpired && !overCap) = true
  · rw [if_pos hidle]
    exact Or.inl rfl
  · rw [if_neg hidle]
    by_cases hexpired : anythingExpired = true
    · rw [if_pos hexpired]
      exact Or.inr (Or.inr rfl)
    · rw [if_neg hexpired]
      exact Or.inr (Or.inl rfl)

theorem Consistent.evictIfNeeded (h : Consistent b) (clock : Clock) (ttl : Duration)
    (maxSize : Nat) : Consistent (b.evictIfNeeded clock ttl maxSize) := by
  rcases evictIfNeeded_cases b clock ttl maxSize with heq | heq | heq <;> rw [heq]
  · exact h
  · exact h.evictLru maxSize
  · exact (h.evictExpired clock ttl).evictLru maxSize

/-- Every operation keeps the bookkeeping exact. -/
theorem Consistent.apply (h : Consistent b) (op : Op) : Consistent (b.apply op) := by
  cases op with
  | insert key value typed pinned inserted => exact h.insert key value typed pinned inserted
  | touch key => exact h.touch key
  | remove key => exact h.remove key
  | removeIfStamp key stamp => exact h.removeIfStamp key stamp
  | replaceTypedIfSame key expected next => exact h.replaceTypedIfSame key expected next
  | retain keep => exact h.retain keep
  | clear => exact h.clear
  | evictExpired clock ttl => exact h.evictExpired clock ttl
  | evictLru maxSize => exact h.evictLru maxSize
  | evictIfNeeded clock ttl maxSize => exact h.evictIfNeeded clock ttl maxSize

theorem Consistent.applyAll (h : Consistent b) (ops : List Op) : Consistent (b.applyAll ops) := by
  induction ops generalizing b with
  | nil => exact h
  | cons op ops ih => exact ih (h.apply op)

/-! ## Where an entry comes from -/

/-- `evictLru` only drops entries. -/
theorem get_of_get_evictLru (h : Consistent b) {maxSize : Nat} {k : String} {e : Entry}
    (hk : (b.evictLru maxSize).get k = some e) : b.get k = some e :=
  (evictLru_post h maxSize).kept k e hk

/-- `evictIfNeeded` only drops entries. -/
theorem get_of_get_evictIfNeeded (h : Consistent b) {clock : Clock} {ttl : Duration}
    {maxSize : Nat} {k : String} {e : Entry}
    (hk : (b.evictIfNeeded clock ttl maxSize).get k = some e) : b.get k = some e := by
  rcases evictIfNeeded_cases b clock ttl maxSize with heq | heq | heq <;> rw [heq] at hk
  · exact hk
  · exact get_of_get_evictLru h hk
  · have hk := get_of_get_evictLru (h.evictExpired clock ttl) hk
    rw [get_evictExpired] at hk
    exact (Option.filter_eq_some_iff.1 hk).1

/-- An entry after a call was there before under the same key, with the same stamp, pin and insert
    time, or the call is the insert that issued its stamp. -/
theorem apply_origin (h : Consistent b) (op : Op) {k : String} {e' : Entry}
    (hk : (b.apply op).get k = some e') :
    (∃ e, b.get k = some e ∧ e.stamp = e'.stamp ∧ e.inserted = e'.inserted) ∨
    (b.issued op = some e'.stamp ∧ op.insertedAt = some e'.inserted) := by
  -- calls that only drop entries
  have kept : ∀ e, b.get k = some e → (∃ e₀, b.get k = some e₀ ∧ e₀.stamp = e.stamp ∧
      e₀.inserted = e.inserted) := fun e he => ⟨e, he, rfl, rfl⟩
  cases op with
  | insert key value typed pinned inserted =>
    rw [Bucket.apply, get_insert] at hk
    split at hk
    · rw [← Option.some.inj hk]
      exact Or.inr ⟨rfl, rfl⟩
    · exact Or.inl (kept e' hk)
  | touch key =>
    rw [Bucket.apply, get_touch] at hk
    split at hk
    · next heq =>
      subst heq
      obtain ⟨e, he, rfl⟩ := Option.map_eq_some_iff.1 hk
      exact Or.inl ⟨e, he, rfl, rfl⟩
    · exact Or.inl (kept e' hk)
  | remove key =>
    rw [Bucket.apply, get_remove] at hk
    split at hk
    · exact absurd hk (by simp)
    · exact Or.inl (kept e' hk)
  | removeIfStamp key stamp =>
    rw [Bucket.apply, get_removeIfStamp] at hk
    split at hk
    · next heq =>
      subst heq
      exact Or.inl (kept e' (Option.filter_eq_some_iff.1 hk).1)
    · exact Or.inl (kept e' hk)
  | replaceTypedIfSame key expected next =>
    rw [Bucket.apply, get_replaceTypedIfSame] at hk
    split at hk
    · next heq =>
      subst heq
      obtain ⟨e, he, rfl⟩ := Option.map_eq_some_iff.1 hk
      exact Or.inl ⟨e, he, by split <;> rfl, by split <;> rfl⟩
    · exact Or.inl (kept e' hk)
  | retain keep =>
    rw [Bucket.apply, get_retain] at hk
    split at hk
    · exact Or.inl (kept e' hk)
    · exact absurd hk (by simp)
  | clear => exact absurd hk (by simp [Bucket.apply])
  | evictExpired clock ttl =>
    rw [Bucket.apply, get_evictExpired] at hk
    exact Or.inl (kept e' (Option.filter_eq_some_iff.1 hk).1)
  | evictLru maxSize => exact Or.inl (kept e' (get_of_get_evictLru h hk))
  | evictIfNeeded clock ttl maxSize => exact Or.inl (kept e' (get_of_get_evictIfNeeded h hk))

@[simp] theorem nextStamp_evictLru (h : Consistent b) (maxSize : Nat) :
    (b.evictLru maxSize).nextStamp = b.nextStamp :=
  (evictLru_post h maxSize).stamp_eq

/-- Only an insert advances `next_stamp`, to the stamp it issues. -/
theorem nextStamp_apply (h : Consistent b) (op : Op) :
    (b.apply op).nextStamp = (b.issued op).getD b.nextStamp := by
  cases op with
  | insert key value typed pinned inserted => rfl
  | touch key => simp only [apply, touch, issued]; split <;> rfl
  | remove key => simp only [apply, remove, issued]; split <;> rfl
  | removeIfStamp key stamp =>
    simp only [apply, removeIfStamp, remove, issued]
    repeat' split
    all_goals rfl
  | replaceTypedIfSame key expected next =>
    simp only [apply, replaceTypedIfSame, issued]
    repeat' split
    all_goals rfl
  | retain keep | clear | evictExpired clock ttl => rfl
  | evictLru maxSize => exact nextStamp_evictLru h maxSize
  | evictIfNeeded clock ttl maxSize =>
    show (b.evictIfNeeded clock ttl maxSize).nextStamp = b.nextStamp
    rcases evictIfNeeded_cases b clock ttl maxSize with heq | heq | heq <;> rw [heq]
    · exact nextStamp_evictLru h maxSize
    · exact nextStamp_evictLru (h.evictExpired clock ttl) maxSize

theorem issued_eq {op : Op} {s : Nat} (h : b.issued op = some s) : s = b.nextStamp + 1 := by
  cases op <;> simp only [issued, reduceCtorEq] at h
  exact (Option.some.inj h).symm

theorem nextStamp_le_apply (h : Consistent b) (op : Op) : b.nextStamp ≤ (b.apply op).nextStamp := by
  rw [nextStamp_apply h]
  cases hi : b.issued op with
  | none => exact Nat.le_refl _
  | some s => rw [issued_eq hi]; exact Nat.le_succ _

/-- The stamps a sequence issues are increasing, all past the stamps issued before it and at most
    the final `next_stamp`; a live entry's stamp is one of them or was there at the start. -/
theorem issuedAll_spec (h : Consistent b) (ops : List Op) : (issuedAll b ops).Pairwise (· < ·) ∧
    (∀ s ∈ issuedAll b ops, b.nextStamp < s ∧ s ≤ (b.applyAll ops).nextStamp) ∧
    b.nextStamp ≤ (b.applyAll ops).nextStamp ∧
    (∀ k e, (b.applyAll ops).get k = some e →
      e.stamp ∈ issuedAll b ops ∨ ∃ e₀, b.get k = some e₀ ∧ e₀.stamp = e.stamp) := by
  induction ops generalizing b with
  | nil =>
    refine ⟨List.Pairwise.nil, fun s hs => absurd hs (by simp [issuedAll]), Nat.le_refl _, ?_⟩
    exact fun k e hk => Or.inr ⟨e, hk, rfl⟩
  | cons op ops ih =>
    obtain ⟨hpair, hrange, hle, horigin⟩ := ih (h.apply op)
    have hmono := nextStamp_le_apply h op
    have hnow : ∀ s ∈ (b.issued op).toList,
        s = b.nextStamp + 1 ∧ (b.apply op).nextStamp = s := by
      intro s hs
      rw [Option.mem_toList] at hs
      exact ⟨issued_eq hs, by rw [nextStamp_apply h, hs]; rfl⟩
    refine ⟨?_, ?_, hmono.trans hle, ?_⟩
    · rw [issuedAll, List.pairwise_append]
      refine ⟨by cases b.issued op <;> simp, hpair, ?_⟩
      intro s hs s' hs'
      rw [← (hnow s hs).2]
      exact (hrange s' hs').1
    · intro s hs
      rw [issuedAll, List.mem_append] at hs
      rcases hs with hs | hs
      · obtain ⟨h1, h2⟩ := hnow s hs
        exact ⟨by omega, h2 ▸ hle⟩
      · exact ⟨Nat.lt_of_le_of_lt hmono (hrange s hs).1, (hrange s hs).2⟩
    · intro k e hk
      rw [issuedAll, List.mem_append]
      rcases horigin k e hk with hin | ⟨e₀, he₀, hst⟩
      · exact Or.inl (Or.inr hin)
      · rcases apply_origin h op he₀ with ⟨e₁, he₁, hst₁, -⟩ | ⟨hiss, -⟩
        · exact Or.inr ⟨e₁, he₁, hst₁.trans hst⟩
        · exact Or.inl (Or.inl (by rw [hst] at hiss; simpa using hiss))

/-! ## The oldest insert time -/

/-- `oldest_insert` bounds every live entry from below, and nothing is newer than `t`, the last
    insert reading. -/
structure OldestOk (t : Instant) (b : Bucket) : Prop where
  bound : ∀ k e, b.get k = some e → ∃ o, b.oldestInsert = some o ∧ o ≤ e.inserted
  inserted_le : ∀ k e, b.get k = some e → e.inserted ≤ t
  oldest_le : ∀ o, b.oldestInsert = some o → o ≤ t

/-- A call that keeps the insert times of what it leaves, and leaves `oldest_insert` alone. -/
theorem OldestOk.of_kept {t : Instant} {b b' : Bucket} (h : OldestOk t b)
    (hold : b'.oldestInsert = b.oldestInsert)
    (hkept : ∀ k e', b'.get k = some e' → ∃ e, b.get k = some e ∧ e.inserted = e'.inserted) :
    OldestOk t b' where
  bound := by
    intro k e' hk
    obtain ⟨e, he, hins⟩ := hkept k e' hk
    obtain ⟨o, ho, hle⟩ := h.bound k e he
    exact ⟨o, hold.trans ho, hins ▸ hle⟩
  inserted_le := by
    intro k e' hk
    obtain ⟨e, he, hins⟩ := hkept k e' hk
    exact hins ▸ h.inserted_le k e he
  oldest_le := fun o ho => h.oldest_le o (hold ▸ ho)

theorem OldestOk.evictExpired {t : Instant} (h : OldestOk t b) (clock : Clock)
    (ttl : Duration) : OldestOk t (b.evictExpired clock ttl) := by
  have hsub : ∀ k e, (b.evictExpired clock ttl).get k = some e → b.get k = some e := by
    intro k e hk
    rw [get_evictExpired] at hk
    exact (Option.filter_eq_some_iff.1 hk).1
  -- the recomputed `oldest_insert` is the least insert time of the kept rows
  have hmin : (b.evictExpired clock ttl).oldestInsert
      = ((b.evictExpired clock ttl).entries.entries.map (fun r => r.2.inserted)).min? := rfl
  have hmem : ∀ k e, (b.evictExpired clock ttl).get k = some e →
      e.inserted ∈ (b.evictExpired clock ttl).entries.entries.map (fun r => r.2.inserted) :=
    fun k e hk => List.mem_map.2 ⟨⟨k, e⟩, (AList.mem_entries_iff _ k e).2 hk, rfl⟩
  refine ⟨?_, fun k e hk => h.inserted_le k e (hsub k e hk), ?_⟩
  · intro k e hk
    cases ho : (b.evictExpired clock ttl).oldestInsert with
    | none =>
      rw [hmin, List.min?_eq_none_iff] at ho
      exact absurd (hmem k e hk) (by simp [ho])
    | some o =>
      rw [hmin] at ho
      exact ⟨o, rfl, (List.min?_eq_some_iff.1 ho).2 _ (hmem k e hk)⟩
  · intro o ho
    rw [hmin] at ho
    obtain ⟨r, hr, rfl⟩ := List.mem_map.1 (List.min?_eq_some_iff.1 ho).1
    exact h.inserted_le r.1 r.2 (hsub _ _ ((AList.mem_entries_iff _ r.1 r.2).1 hr))

theorem OldestOk.evictLru {t : Instant} (h : OldestOk t b) (hc : Consistent b)
    (maxSize : Nat) : OldestOk t (b.evictLru maxSize) :=
  h.of_kept (evictLru_post hc maxSize).oldest_eq
    (fun _ e hk => ⟨e, get_of_get_evictLru hc hk, rfl⟩)

/-- A call keeps the bound as long as an insert does not read the clock before the last insert
    did. -/
theorem OldestOk.apply {t : Instant} (h : OldestOk t b) (hc : Consistent b) (op : Op)
    (hclock : ∀ u, op.insertedAt = some u → t ≤ u) :
    OldestOk (op.insertedAt.getD t) (b.apply op) := by
  -- every call but an insert keeps the insert times it leaves
  have hkept (hno : op.insertedAt = none) : ∀ k e', (b.apply op).get k = some e' →
      ∃ e, b.get k = some e ∧ e.inserted = e'.inserted := by
    intro k e' hk
    rcases apply_origin hc op hk with ⟨e, he, -, hins⟩ | ⟨-, hins⟩
    · exact ⟨e, he, hins⟩
    · rw [hno] at hins
      exact absurd hins (by simp)
  cases op with
  | insert key value typed pinned inserted =>
    have hle : t ≤ inserted := hclock inserted rfl
    have hget := fun k => get_insert b key k value typed pinned inserted
    have hold : (b.apply (.insert key value typed pinned inserted)).oldestInsert
        = some (b.oldestInsert.getD inserted) := rfl
    have hold_le : b.oldestInsert.getD inserted ≤ inserted := by
      cases ho : b.oldestInsert with
      | none => exact Nat.le_refl _
      | some o => exact (h.oldest_le o ho).trans hle
    refine ⟨?_, ?_, ?_⟩
    · intro k e hk
      refine ⟨_, hold, ?_⟩
      rw [Bucket.apply, hget] at hk
      split at hk
      · rw [← Option.some.inj hk]
        exact hold_le
      · obtain ⟨o, ho, hoe⟩ := h.bound k e hk
        rw [ho]
        exact hoe
    · intro k e hk
      rw [Bucket.apply, hget] at hk
      split at hk
      · rw [← Option.some.inj hk]
        exact Nat.le_refl _
      · exact (h.inserted_le k e hk).trans hle
    · intro o ho
      rw [hold] at ho
      rw [← Option.some.inj ho]
      exact hold_le
  | touch key =>
    exact h.of_kept (by simp only [Bucket.apply, Bucket.touch]; split <;> rfl) (hkept rfl)
  | remove key =>
    exact h.of_kept (by simp only [Bucket.apply, Bucket.remove]; split <;> rfl) (hkept rfl)
  | removeIfStamp key stamp =>
    refine h.of_kept ?_ (hkept rfl)
    simp only [Bucket.apply, Bucket.removeIfStamp, Bucket.remove]
    repeat' split
    all_goals rfl
  | replaceTypedIfSame key expected next =>
    refine h.of_kept ?_ (hkept rfl)
    simp only [Bucket.apply, Bucket.replaceTypedIfSame]
    repeat' split
    all_goals rfl
  | retain keep => exact h.of_kept rfl (hkept rfl)
  | clear =>
    exact ⟨fun k e hk => absurd hk (by simp [Bucket.apply]),
      fun k e hk => absurd hk (by simp [Bucket.apply]), fun o ho => absurd ho nofun⟩
  | evictExpired clock ttl => exact h.evictExpired clock ttl
  | evictLru maxSize => exact h.evictLru hc maxSize
  | evictIfNeeded clock ttl maxSize =>
    show OldestOk t (b.evictIfNeeded clock ttl maxSize)
    rcases evictIfNeeded_cases b clock ttl maxSize with heq | heq | heq <;> rw [heq]
    · exact h
    · exact h.evictLru hc maxSize
    · exact (h.evictExpired clock ttl).evictLru (hc.evictExpired clock ttl) maxSize

theorem oldestOk_applyAll (ops : List Op) {t : Instant} (h : OldestOk t b)
    (hc : Consistent b) (hclock : (t :: ops.filterMap Op.insertedAt).Pairwise (· ≤ ·)) :
    ∃ t', OldestOk t' (b.applyAll ops) := by
  induction ops generalizing t b with
  | nil => exact ⟨t, h⟩
  | cons op ops ih =>
    rw [List.filterMap_cons] at hclock
    cases hop : op.insertedAt with
    | none =>
      rw [hop] at hclock
      have hok := h.apply hc op (fun u hu => absurd (hop.symm.trans hu) (by simp))
      rw [hop] at hok
      exact ih hok (hc.apply op) hclock
    | some u =>
      rw [hop] at hclock
      obtain ⟨hle, hrest⟩ := List.pairwise_cons.1 hclock
      have hok := h.apply hc op (fun u' hu' => by
        rw [hop] at hu'
        exact hle u' (by simp [← Option.some.inj hu']))
      rw [hop] at hok
      exact ih hok (hc.apply op) hrest

/-! ## Every sequence of calls -/

/-- The LRU rows are the live entries' `(last access, key)` pairs, one row each. -/
theorem LruExact.perm (h : LruExact entries lru) :
    lru.entries.Perm (entries.entries.map (fun r => ⟨r.2.lastAccess, r.1⟩)) := by
  have hnod : (entries.entries.map (fun r =>
    (⟨r.2.lastAccess, r.1⟩ : Sigma fun _ : Nat => String))).Nodup := by
    apply List.Nodup.of_map Sigma.snd
    rw [List.map_map]
    exact entries.nodupKeys
  rw [List.perm_ext_iff_of_nodup (List.NodupKeys.nodup lru.nodupKeys) hnod]
  rintro ⟨tick, key⟩
  rw [AList.mem_entries_iff, h tick key, List.mem_map]
  constructor
  · rintro ⟨e, he, rfl⟩
    exact ⟨⟨key, e⟩, (AList.mem_entries_iff _ key e).2 he, rfl⟩
  · rintro ⟨⟨k, e⟩, hr, heq⟩
    simp only [Sigma.mk.injEq, heq_eq_eq] at heq
    obtain ⟨rfl, rfl⟩ := heq
    exact ⟨e, (AList.mem_entries_iff _ k e).1 hr, rfl⟩

/-- **The bucket's bookkeeping is exact after every sequence of calls**, as long as the inserts
    read a clock that does not go back. A call changes `pinned` by at most one subtraction, and
    that last, so `0 ≤ (b.apply op).pinned` says that no further call can underflow it. -/
theorem bookkeeping_exact (ops : List Op)
    (hclock : (ops.filterMap Op.insertedAt).Pairwise (· ≤ ·)) :
    let b := new.applyAll ops
    (b.pinned = b.entries.countRows (·.pinned) ∧ ∀ op, 0 ≤ (b.apply op).pinned) ∧
    (b.lru.entries.Perm (b.entries.entries.map (fun r => ⟨r.2.lastAccess, r.1⟩)) ∧
      (b.entries.entries.map (fun r => r.2.lastAccess)).Nodup ∧
      ∀ k e, b.get k = some e → e.lastAccess ≤ b.tick) ∧
    ((issuedAll new ops).Nodup ∧ (∀ s ∈ issuedAll new ops, s ≤ b.nextStamp) ∧
      ∀ k e, b.get k = some e → e.stamp ∈ issuedAll new ops) ∧
    (∀ k e, b.get k = some e → ∃ o, b.oldestInsert = some o ∧ o ≤ e.inserted) := by
  intro b
  have hc : Consistent b := consistent_new.applyAll ops
  obtain ⟨hpair, hrange, -, horigin⟩ := issuedAll_spec consistent_new ops
  have hold : OldestOk 0 new :=
    ⟨fun k e hk => by simp at hk, fun k e hk => by simp at hk, fun o ho => absurd ho nofun⟩
  obtain ⟨t, hok⟩ := oldestOk_applyAll ops hold consistent_new
    (List.pairwise_cons.2 ⟨fun _ _ => Nat.zero_le _, hclock⟩)
  refine ⟨⟨hc.pinned_eq, fun op => ?_⟩, ⟨hc.lru_exact.perm, ?_, hc.tick_le⟩,
    ⟨hpair.imp (fun h => Nat.ne_of_lt h), fun s hs => (hrange s hs).2, fun k e hk => ?_⟩, hok.bound⟩
  · rw [(hc.apply op).pinned_eq]
    exact Int.natCast_nonneg _
  · have hkeys : (b.lru.entries.map Sigma.fst).Nodup := b.lru.nodupKeys
    have hmap := hc.lru_exact.perm.map Sigma.fst
    rw [List.map_map] at hmap
    exact hmap.nodup_iff.1 hkeys
  · rcases horigin k e hk with hin | ⟨e₀, he₀, -⟩
    · exact hin
    · simp at he₀

/-- Two inserts under one key, a sweep, a clear and a third insert: the third stamp is new. -/
theorem bookkeeping_exact_across_clear :
    issuedAll new [.insert "a" 1 none true 10, .insert "a" 2 none false 20,
        .evictExpired (.still 25) 3, .clear, .insert "b" 3 none false 30] = [1, 2, 3] ∧
      ([1, 2, 3] : List Nat).Nodup := by
  have hissued : issuedAll new [.insert "a" 1 none true 10, .insert "a" 2 none false 20,
      .evictExpired (.still 25) 3, .clear, .insert "b" 3 none false 30] = [1, 2, 3] := by rfl
  have h := bookkeeping_exact [.insert "a" 1 none true 10, .insert "a" 2 none false 20,
    .evictExpired (.still 25) 3, .clear, .insert "b" 3 none false 30] (by decide)
  exact ⟨hissued, hissued ▸ h.2.2.1.1⟩

end Bucket
