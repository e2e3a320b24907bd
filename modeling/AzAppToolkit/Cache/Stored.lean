import AzAppToolkit.Cache.Eviction
import AzAppToolkit.Cache.Interference

set_option autoImplicit false

/-! # A store is served

A store inserts its entry and then evicts from the same bucket. The new entry is the one used last and the
pinned ones do not count, so with a cap of at least one the eviction leaves both. -/

namespace Bucket

/-- The bucket after the locked section of a store. -/
theorem get_put {b : Bucket} (h : Consistent b) (key : String) (payload : Cache.Payload) (clock : Clock)
    (ttl : Duration) {maxSize : Nat} (hcap : 1 ≤ maxSize)
    (hlive : clock.inserted.elapsed (clock.visit key) ≤ ttl) :
    (b.applyAll (Cache.Call.putOps key payload maxSize ttl clock)).get key =
      some ⟨payload.value, payload.typed, clock.inserted, b.tick + 1, payload.pinned, b.nextStamp + 1⟩ := by
  have hinsert := h.insert key payload.value payload.typed payload.pinned clock.inserted
  have hnew := get_insert b key key payload.value payload.typed payload.pinned clock.inserted
  rw [if_pos rfl] at hnew
  have hswept := @lookup_sweptEntries _ clock ttl maxSize _ _ hnew hlive
  refine (get_evictIfNeeded hinsert clock ttl maxSize key _).2 (lookup_mostRecent.2 ⟨hswept, Or.inr ?_⟩)
  -- no entry was used after the insert's own tick
  have hnone : usedAfter ((b.insert key payload.value payload.typed payload.pinned
      clock.inserted).1.sweptEntries clock ttl maxSize) (b.tick + 1) ≤
        (∅ : Table String Entry).countRows (fun _ => true) := by
    apply countRows_le_of_lookup
    intro k e hk hafter
    simp only [Bool.and_eq_true, decide_eq_true_eq] at hafter
    have hle := hinsert.tick_le k e (of_lookup_sweptEntries hk)
    exact absurd hafter.2 (Nat.not_lt.2 hle)
  simp only [AList.countRows_empty] at hnone
  exact Nat.lt_of_le_of_lt hnone hcap

/-- The section keeps the other pinned entries that are not expired. -/
theorem get_put_pinned {b : Bucket} (h : Consistent b) {key k : String} (payload : Cache.Payload)
    (clock : Clock) (ttl : Duration) (maxSize : Nat) {e : Entry} (hk : b.get k = some e) (hne : k ≠ key)
    (hp : e.pinned = true) (hlive : e.inserted.elapsed (clock.visit k) ≤ ttl) :
    (b.applyAll (Cache.Call.putOps key payload maxSize ttl clock)).get k = some e := by
  have hinsert := h.insert key payload.value payload.typed payload.pinned clock.inserted
  have hkept := get_insert b key k payload.value payload.typed payload.pinned clock.inserted
  rw [if_neg hne, hk] at hkept
  have hswept := @lookup_sweptEntries _ clock ttl maxSize _ _ hkept hlive
  exact (get_evictIfNeeded hinsert clock ttl maxSize k e).2 (lookup_mostRecent.2 ⟨hswept, Or.inl hp⟩)

end Bucket

namespace Cache

/-! ## A store that runs alone -/

/-- The section of a store was run on the bucket, with the limits of the configuration. -/
def Stored (kind : CacheKind) (key : String) (payload : Payload) (clock : Clock) (c c' : Cache) : Prop :=
  ∃ maxSize ttl, c.limitsIfEnabled kind = some (maxSize, ttl) ∧
    c'.buckets kind = (c.buckets kind).applyAll (Call.putOps key payload maxSize ttl clock) ∧
    c'.config = c.config

/-- How far the store of a payload has come since it was called in `c`, with the clock readings so far. -/
def StorePhase (kind : CacheKind) (key : String) (payload : Payload) (c : Cache) (clocks : List Clock)
    (c' : Cache) : Call → Prop
  | .putLimits k key' store => c' = c ∧ k = kind ∧ key' = key ∧ store.payload = some payload
  | .preCheck f _ store => c' = c ∧ f.kind = kind ∧ f.key = key ∧ store.payload = some payload
  | .storeLimits f _ store => c' = c ∧ f.kind = kind ∧ f.key = key ∧ store.payload = some payload
  | .putInsert k key' p maxSize ttl => c' = c ∧ k = kind ∧ key' = key ∧ p = payload ∧
      c.limitsIfEnabled kind = some (maxSize, ttl)
  | .storeInsert f _ p maxSize ttl => c' = c ∧ f.kind = kind ∧ f.key = key ∧ p = payload ∧
      c.limitsIfEnabled kind = some (maxSize, ttl)
  | .done _ => ∃ clock ∈ clocks, Stored kind key payload clock c c'
  | .release _ _ stamp => stamp.isSome = true → ∃ clock ∈ clocks, Stored kind key payload clock c c'
  | .returned _ _ result => result = true → ∃ clock ∈ clocks, Stored kind key payload clock c c'
  | .rollback _ _ => True
  | .dropping _ _ => True
  | _ => False

/-- Releasing a watch leaves the buckets and the configuration. -/
theorem Stored.release {kind : CacheKind} {key : String} {payload : Payload} {clock : Clock}
    {c c' : Cache} (h : Stored kind key payload clock c c') (k : CacheKind) (key' : String) :
    Stored kind key payload clock c (c'.releaseWatch k key').1 := by
  obtain ⟨maxSize, ttl, hlimits, hbuckets, hconfig⟩ := h
  have hsame : (c'.releaseWatch k key').1.buckets = c'.buckets ∧
      (c'.releaseWatch k key').1.config = c'.config := by
    unfold releaseWatch
    repeat' split
    all_goals exact ⟨rfl, rfl⟩
  exact ⟨maxSize, ttl, hlimits, (congrFun hsame.1 kind).trans hbuckets, hsame.2.trans hconfig⟩

theorem stored_put {kind : CacheKind} (key : String) (payload : Payload) (clock : Clock) {c : Cache}
    {maxSize : Nat} {ttl : Duration} (hlimits : c.limitsIfEnabled kind = some (maxSize, ttl)) :
    Stored kind key payload clock c
      ((Effect.bucket kind (Call.putOps key payload maxSize ttl clock)).run c) := by
  refine ⟨maxSize, ttl, hlimits, ?_, rfl⟩
  rw [Effect.buckets_run, Effect.opsOn, if_pos rfl]

theorem StorePhase.next {kind : CacheKind} {key : String} {payload : Payload} {c c' : Cache}
    {clocks : List Clock} {clock : Clock} {t t' : Call} {effect : Effect}
    (henabled : c.config.enabled = true) (h : StorePhase kind key payload c clocks c' t)
    (hstep : t.step c' clock = some (effect, t')) :
    StorePhase kind key payload c (clocks ++ [clock]) (effect.run c') t' := by
  cases Call.next_of_step hstep with
  | current f store hcurrent => exact h
  | stale f store hstale => trivial
  | allowed w hlimits hpayload =>
    obtain ⟨rfl, rfl, rfl, hstore⟩ := h
    exact ⟨rfl, rfl, rfl, Option.some.inj (hpayload.symm.trans hstore), hlimits⟩
  | declined f w store =>
    intro hsome
    simp at hsome
  | inserted f w p maxSize ttl =>
    obtain ⟨rfl, rfl, rfl, rfl, hlimits⟩ := h
    intro _
    exact ⟨clock, by simp, stored_put f.key p clock hlimits⟩
  | stored f stamp hw hpeek =>
    intro hsome
    obtain ⟨clock', hmem, hstored⟩ := h hsome
    exact ⟨clock', List.mem_append_left _ hmem, hstored.release _ _⟩
  | overtaken f stamp =>
    cases stamp with
    | none =>
      intro hfalse
      simp at hfalse
    | some stamp => trivial
  | rolledBack f stamp | dropped f w =>
    intro hfalse
    simp at hfalse
  | putAllowed key' hlimits hpayload =>
    obtain ⟨rfl, rfl, rfl, hstore⟩ := h
    exact ⟨rfl, rfl, rfl, Option.some.inj (hpayload.symm.trans hstore), hlimits⟩
  | putDeclined k key' store =>
    -- a put declines only what does not serialize, or when caching is off
    obtain ⟨rfl, rfl, rfl, hstore⟩ := h
    simp [Call.step, limitsIfEnabled, henabled, hstore] at hstep
  | put k key' p maxSize ttl =>
    obtain ⟨rfl, rfl, rfl, rfl, hlimits⟩ := h
    exact ⟨clock, by simp, stored_put key' p clock hlimits⟩
  | _ => exact h.elim

/-- Call `i` runs its next locked section at these clock readings. -/
inductive Alone (i : Nat) : State → Clock → State → Prop
  | act {s : State} {t t' : Call} {effect : Effect} (clock : Clock) (hcall : s.calls[i]? = some t)
      (hstep : t.step s.cache clock = some (effect, t')) :
      Alone i s clock ⟨effect.run s.cache, s.calls.set i t'⟩

theorem storePhase_run {kind : CacheKind} {key : String} {payload : Payload} {s u : State} {i : Nat}
    {t : Call} {clocks : List Clock} (henabled : s.cache.config.enabled = true)
    (hcall : s.calls[i]? = some t) (h : StorePhase kind key payload s.cache [] s.cache t)
    (hrun : Run (Alone i) s clocks u) :
    ∃ t', u.calls[i]? = some t' ∧ StorePhase kind key payload s.cache clocks u.cache t' := by
  induction hrun with
  | nil => exact ⟨t, hcall, h⟩
  | snoc hpre hs ih =>
    obtain ⟨t₁, hcall₁, hphase⟩ := ih
    cases hs with
    | act clock hcall₂ hstep =>
      rw [hcall₁] at hcall₂
      obtain rfl := Option.some.inj hcall₂
      have hlt := (List.getElem?_eq_some_iff.1 hcall₁).1
      exact ⟨_, List.getElem?_set_self hlt, hphase.next henabled hstep⟩

/-! ## What a lookup finds -/

/-- A lookup of the key finds this entry. -/
def Serves (c : Cache) (kind : CacheKind) (key : String) (clock : Clock) (e : Entry) : Prop :=
  ∀ r : Read, r.kind = kind → r.key = key →
    (Call.lookup r (c.config.ttlFor kind)).step c clock =
      some (.bucket kind [.touch key], Call.afterLookup r e)

theorem serves_of_get {c : Cache} {kind : CacheKind} {key : String} {clock : Clock} {e : Entry}
    (hget : (c.buckets kind).get key = some e)
    (hlive : e.inserted.elapsed (clock.visit key) ≤ c.config.ttlFor kind) :
    Serves c kind key clock e := by
  intro r hkind hkey
  subst hkind
  subst hkey
  have hentry : Call.liveEntry c r.kind r.key (c.config.ttlFor r.kind) clock = some e := by
    simp [Call.liveEntry, hget, hlive]
  simp [Call.step, hentry]

/-- The entry a store makes. -/
def Payload.MadeAt (payload : Payload) (clock : Clock) (e : Entry) : Prop :=
  e.value = payload.value ∧ e.typed = payload.typed ∧ e.inserted = clock.inserted

/-- Where a store starts its own work: an unguarded one with its limits, a guarded one with its check. -/
inductive StartsStore : Call → CacheKind → String → Store → Prop
  | put (kind : CacheKind) (key : String) (store : Store) :
      StartsStore (.putLimits kind key store) kind key store
  | guarded (f : Fetch) (w : IndexWatch) (store : Store) :
      StartsStore (.preCheck f w store) f.kind f.key store

/-- The store has returned, a guarded one with `true`. -/
def Call.stored : Call → Bool
  | .done _ => true
  | .returned _ _ result => result
  | _ => false

/-- **A store is served**: with caching on and a cap of at least one, a lookup of the key within the TTL
    finds the value that was stored, and every other pinned entry that is not expired is found as before. -/
theorem store_is_served {tr : List Event} {clocks : List Clock} {s u : State} (hrun : Runs tr s) {i : Nat}
    {t t' : Call} {kind : CacheKind} {key : String} {store : Store} {payload : Payload}
    (hcall : s.calls[i]? = some t) (hstart : StartsStore t kind key store)
    (hvalue : store.payload = some payload) (henabled : s.cache.config.enabled = true)
    (hcap : 1 ≤ capFor kind s.cache.config.maxSize) (hstore : Run (Alone i) s clocks u)
    (hended : u.calls[i]? = some t') (hstored : t'.stored = true) :
    ∃ clock ∈ clocks, ∀ later : Clock, (∀ k, clock.visit k ≤ later.visit k) →
      (clock.inserted.elapsed (later.visit key) ≤ u.cache.config.ttlFor kind →
        ∃ e, payload.MadeAt clock e ∧ Serves u.cache kind key later e) ∧
      ∀ k e, k ≠ key → (s.cache.buckets kind).get k = some e → e.pinned = true →
        e.inserted.elapsed (later.visit k) ≤ u.cache.config.ttlFor kind →
        Serves u.cache kind k later e := by
  have hphase₀ : StorePhase kind key payload s.cache [] s.cache t := by
    cases hstart with
    | put | guarded => exact ⟨rfl, rfl, rfl, hvalue⟩
  obtain ⟨t₁, hcall₁, hphase⟩ := storePhase_run henabled hcall hphase₀ hstore
  rw [hended] at hcall₁
  obtain rfl := Option.some.inj hcall₁
  have hput : ∃ clock ∈ clocks, Stored kind key payload clock s.cache u.cache := by
    cases t' with
    | done result => exact hphase
    | returned f stamp result => exact hphase hstored
    | _ => exact absurd hstored Bool.false_ne_true
  obtain ⟨clock, hclock, maxSize, ttl, hlimits, hbuckets, hconfig⟩ := hput
  obtain ⟨rfl, rfl⟩ : capFor kind s.cache.config.maxSize = maxSize ∧ s.cache.config.ttlFor kind = ttl := by
    rw [limitsIfEnabled, henabled, if_pos rfl] at hlimits
    exact Prod.mk.inj (Option.some.inj hlimits)
  have hc := consistent_run hrun kind
  refine ⟨clock, hclock, fun later hlater => ⟨fun hlive => ?_, fun k e hne hk hp hlive => ?_⟩⟩
  · rw [hconfig] at hlive
    have hsection : clock.inserted.elapsed (clock.visit key) ≤ s.cache.config.ttlFor kind :=
      (Nat.sub_le_sub_right (hlater key) _).trans hlive
    have hget := Bucket.get_put hc key payload clock _ hcap hsection
    rw [← hbuckets] at hget
    exact ⟨_, ⟨rfl, rfl, rfl⟩, serves_of_get hget (by rw [hconfig]; exact hlive)⟩
  · rw [hconfig] at hlive
    have hsection : e.inserted.elapsed (clock.visit k) ≤ s.cache.config.ttlFor kind :=
      (Nat.sub_le_sub_right (hlater k) _).trans hlive
    have hget := Bucket.get_put_pinned hc payload clock _ (capFor kind s.cache.config.maxSize) hk hne hp
      hsection
    rw [← hbuckets] at hget
    exact serves_of_get hget (by rw [hconfig]; exact hlive)

/-- A cap of one, with a pinned entry and one other stored, and a put of a third. -/
def fullBucket : List Choice :=
  [.call (.configure ⟨none, none, none, none, none, some 1⟩), .act 0 (.still 0),
    .call (.putLimits .audit "pinned" (.typed 0 7 true)), .act 1 (.still 1), .act 1 (.still 1),
    .call (.putLimits .audit "old" (.json (some 8))), .act 2 (.still 2), .act 2 (.still 2),
    .call (.putLimits .audit "new" (.json (some 9)))]

def fullState : State := (State.init.playAll fullBucket).elim State.init Prod.snd

/-- The third is served and so is the pinned one, and the other is evicted. -/
theorem put_into_full_bucket_is_served : ∃ u,
    (∃ tr, Runs tr fullState) ∧ Run (Alone 3) fullState [.still 3, .still 3] u ∧
      (∃ e, e.value = 9 ∧ Serves u.cache .audit "new" (.still 5) e) ∧
      (∃ e, e.typed = some 7 ∧ Serves u.cache .audit "pinned" (.still 5) e) ∧
      (fullState.cache.buckets .audit).get "old" ≠ none ∧ (u.cache.buckets .audit).get "old" = none := by
  have hplay : State.init.playAll fullBucket =
      some ((State.init.playAll fullBucket).elim [] Prod.fst, fullState) := rfl
  have hruns := State.run_of_playAll hplay
  have hlimits : Alone 3 fullState (.still 3) _ := .act (.still 3) rfl rfl
  have hrun := (Run.single hlimits).snoc (.act (.still 3) rfl rfl)
  obtain ⟨clock, hclock, hserved⟩ := store_is_served hruns (i := 3) rfl (.put _ _ _) rfl rfl (by decide) hrun
    rfl rfl
  obtain rfl : clock = .still 3 := by simpa using hclock
  obtain ⟨hnew, hpinned⟩ := hserved (.still 5) (fun _ => Nat.le_add_right 3 2)
  obtain ⟨e, hmade, hserves⟩ := hnew (by decide)
  refine ⟨_, ⟨_, hruns⟩, hrun, ⟨e, hmade.1, hserves⟩, ⟨_, ?_, hpinned "pinned" _ (by decide) rfl rfl
    (by decide)⟩, by decide, by decide⟩
  rfl

/-- The cache with one call made on it. -/
def calledOnce (t : Call) : State := ⟨.new, [t]⟩

/-- A put of a value that does not serialize returns, and a lookup finds nothing. -/
theorem unserializable_put_is_not_served : ∃ u,
    Run (Alone 0) (calledOnce (.putLimits .lists "k" (.json none))) [.still 5] u ∧
      u.calls[0]? = some (.done false) ∧ u.cache.config.enabled = true ∧
      ∀ e, ¬ Serves u.cache .lists "k" (.still 5) e := by
  refine ⟨_, Run.single (.act (.still 5) rfl rfl), rfl, rfl, fun e hserves => ?_⟩
  have hlookup := hserves ⟨.lists, "k", .getTyped (fun _ => true)⟩ rfl rfl
  nomatch hlookup

end Cache
