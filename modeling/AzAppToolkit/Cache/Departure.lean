import AzAppToolkit.Cache.Interference

set_option autoImplicit false

/-! # Why an entry leaves its bucket

First for one bucket operation, then for one section of a call: which reasons an entry can have to be
gone afterwards. Of the sections that look, unlock and remove later, the rollback compares stamps,
and `get` does not: the section that drops an undecodable entry removes whatever is under its key by
then. -/

namespace Bucket

/-! ## One operation -/

/-- The entry `e` is under `k` before the operation and its stamp is not afterwards. -/
def Departs (b : Bucket) (op : Op) (k : String) (e : Entry) : Prop :=
  b.get k = some e ∧ ∀ e', (b.apply op).get k = some e' → e'.stamp ≠ e.stamp

/-- `e` is a victim of the LRU pass with this cap: it is unpinned, the unpinned entries were over the
    cap while the pass ran, and every unpinned entry it left was used later. -/
structure LruVictim (b : Bucket) (maxSize : Nat) (e : Entry) : Prop where
  unpinned : e.pinned = false
  over_before : maxSize < b.unpinnedLen
  over_after : maxSize ≤ (b.evictLru maxSize).unpinnedLen
  oldest : ∀ k' e', (b.evictLru maxSize).get k' = some e' → e'.pinned = false →
    e.lastAccess < e'.lastAccess

/-- The reasons of each operation. -/
def OpReason (b : Bucket) (k : String) (e : Entry) : Op → Prop
  | .insert key _ _ _ _ => k = key
  | .touch _ => False
  | .remove key => k = key
  | .removeIfStamp key stamp => k = key ∧ e.stamp = stamp
  | .replaceTypedIfSame _ _ _ => False
  | .retain keep => keep k = false
  | .clear => True
  | .evictExpired clock ttl => ttl < e.inserted.elapsed (clock.visit k)
  | .evictLru maxSize => LruVictim b maxSize e
  | .evictIfNeeded clock ttl maxSize => ttl < e.inserted.elapsed (clock.visit k) ∨
      LruVictim b maxSize e ∨ LruVictim (b.evictExpired clock ttl) maxSize e

theorem Departs.evictLru {b : Bucket} (h : Consistent b) {maxSize : Nat} {k : String} {e : Entry}
    (hk : b.get k = some e) (hgone : ∀ e', (b.evictLru maxSize).get k = some e' →
      e'.stamp ≠ e.stamp) : LruVictim b maxSize e := by
  have post := evictLru_post h maxSize
  have hnone : (b.evictLru maxSize).get k = none := by
    cases hk' : (b.evictLru maxSize).get k with
    | none => rfl
    | some e' =>
      have hsame := get_of_get_evictLru h hk'
      rw [hk] at hsame
      exact absurd (Option.some.inj hsame ▸ rfl) (hgone e' hk')
  obtain ⟨hpin, hover, hold⟩ := post.victim k e hk hnone
  exact ⟨hpin, hover, post.floor (Nat.le_of_lt hover), hold⟩

theorem Departs.evictExpired {b : Bucket} {clock : Clock} {ttl : Duration} {k : String} {e : Entry}
    (hk : b.get k = some e) (hgone : ∀ e', (b.evictExpired clock ttl).get k = some e' →
      e'.stamp ≠ e.stamp) : ttl < e.inserted.elapsed (clock.visit k) := by
  by_contra hle
  refine hgone e ?_ rfl
  rw [get_evictExpired, hk]
  simp [Option.filter, Nat.le_of_not_lt hle]

/-- An operation removes an entry for one of its reasons. -/
theorem Departs.reason {b : Bucket} (h : Consistent b) {op : Op} {k : String} {e : Entry}
    (hdep : Departs b op k e) : OpReason b k e op := by
  obtain ⟨hk, hgone⟩ := hdep
  cases op with
  | insert key value typed pinned inserted =>
    show k = key
    by_contra hne
    refine hgone e ?_ rfl
    rw [Bucket.apply, get_insert, if_neg hne]
    exact hk
  | touch key =>
    -- a touched entry keeps its stamp
    by_cases hkey : k = key
    · subst hkey
      exact hgone { e with lastAccess := b.tick + 1 } (by simp [Bucket.apply, get_touch, hk]) rfl
    · exact hgone e (by simp [Bucket.apply, get_touch, hkey, hk]) rfl
  | remove key =>
    show k = key
    by_contra hne
    refine hgone e ?_ rfl
    rw [Bucket.apply, get_remove, if_neg hne]
    exact hk
  | removeIfStamp key stamp =>
    by_contra hne
    refine hgone e ?_ rfl
    rw [Bucket.apply, get_removeIfStamp]
    split
    · next hkey =>
      subst hkey
      have hst : e.stamp ≠ stamp := fun hst => hne ⟨rfl, hst⟩
      simp [hk, Option.filter, hst]
    · exact hk
  | replaceTypedIfSame key expected next =>
    by_cases hkey : k = key
    · subst hkey
      by_cases ht : e.typed = some expected
      · exact hgone { e with typed := some next }
          (by simp [Bucket.apply, get_replaceTypedIfSame, hk, ht]) rfl
      · exact hgone e (by simp [Bucket.apply, get_replaceTypedIfSame, hk, ht]) rfl
    · exact hgone e (by simp [Bucket.apply, get_replaceTypedIfSame, hkey, hk]) rfl
  | retain keep =>
    by_contra hne
    refine hgone e ?_ rfl
    rw [Bucket.apply, get_retain, if_pos (by simpa [OpReason] using hne)]
    exact hk
  | clear => trivial
  | evictExpired clock ttl => exact Departs.evictExpired hk hgone
  | evictLru maxSize => exact Departs.evictLru h hk hgone
  | evictIfNeeded clock ttl maxSize =>
    rw [Bucket.apply] at hgone
    rcases evictIfNeeded_cases b clock ttl maxSize with heq | heq | heq <;> rw [heq] at hgone
    · exact absurd rfl (hgone e hk)
    · exact Or.inr (Or.inl (Departs.evictLru h hk hgone))
    · by_cases hexp : ttl < e.inserted.elapsed (clock.visit k)
      · exact Or.inl hexp
      · have hk' : (b.evictExpired clock ttl).get k = some e := by
          rw [get_evictExpired, hk]
          simp [Option.filter, Nat.le_of_not_lt hexp]
        exact Or.inr (Or.inr (Departs.evictLru (h.evictExpired clock ttl) hk' hgone))

end Bucket

namespace Cache

/-! ## One section of a call -/

/-- The TTL the call took from the settings and applies to the bucket of `kind`. -/
def Call.ttlOn (kind : CacheKind) : Call → Option Duration
  | .storeInsert f _ _ _ ttl => if f.kind = kind then some ttl else none
  | .putInsert k _ _ _ ttl | .shrink _ k ttl _ => if k = kind then some ttl else none
  | .lookup r ttl => if r.kind = kind then some ttl else none
  | _ => none

/-- The entry cap the call applies to the bucket of `kind`. -/
def Call.capOn (kind : CacheKind) : Call → Option Nat
  | .storeInsert f _ _ maxSize _ => if f.kind = kind then some maxSize else none
  | .putInsert k _ _ maxSize _ => if k = kind then some maxSize else none
  | .shrink newMax k _ _ => if k = kind then some (capFor k newMax) else none
  | _ => none

/-- The key the call inserts under. -/
def Call.insertsAt : Call → Option (CacheKind × String)
  | .storeInsert f _ _ _ _ => some (f.kind, f.key)
  | .putInsert kind key _ _ _ => some (kind, key)
  | _ => none

/-- In some state of the run the setting `read` had the value `v`. -/
def WasSet {α : Type} (tr : List Event) (s : State) (read : CacheConfig → α) (v : α) : Prop :=
  Happened Step State.init tr s (fun _ _ u => read u.cache.config = v)

/-- The insert of call `i` was handed `stamp`. -/
def WroteStamp (tr : List Event) (s : State) (i : Nat) (f : Fetch) (stamp : Nat) : Prop :=
  Happened Step State.init tr s (fun s₁ ev _ => ev.call = i ∧
    (∃ w payload maxSize ttl, s₁.calls[i]? = some (.storeInsert f w payload maxSize ttl)) ∧
    stamp = (s₁.cache.buckets f.kind).nextStamp + 1)

/-- Why the entry `e` under `key` left the bucket of `kind`, whose content was `b`, by the operation `op`
    of a section that call `i`, at `t`, ran with the clock readings `clock`. -/
inductive Reason (tr : List Event) (s : State) (i : Nat) (t : Call) (clock : Clock) (b : Bucket)
    (op : Bucket.Op) (kind : CacheKind) (key : String) (e : Entry) : Prop
  /-- An invalidation that covers the key. -/
  | invalidated (inv : Invalidation) (kinds : List CacheKind) (ht : t = .remove inv (kind :: kinds))
      (hcovers : inv.scope.covers kind key = true)
  /-- A patch of the key that could not apply. -/
  | patchFallback (p : PatchCall) (ht : t = .patchRemove p) (hkind : p.kind = kind)
      (hkey : p.key = key)
  /-- The entry was older than the TTL. -/
  | expired (ttl : Duration) (httl : t.ttlOn kind = some ttl)
      (hset : WasSet tr s (·.ttlFor kind) ttl) (hold : ttl < e.inserted.elapsed (clock.visit key))
  /-- The entry was an LRU victim, of the bucket as it was or as the sweep before it left it. -/
  | evicted (maxSize : Nat) (ttl : Duration) (hcap : t.capOn kind = some maxSize)
      (httl : t.ttlOn kind = some ttl)
      (hset : WasSet tr s (fun c => capFor kind c.maxSize) maxSize)
      (hvictim : b.LruVictim maxSize e ∨ (b.evictExpired clock ttl).LruVictim maxSize e)
  /-- A later insert under the key: the operation put a newer entry in its place. -/
  | replaced (value : Arc) (typed : Option Arc) (pinned : Bool) (inserted : Instant) (new : Entry)
      (ht : t.insertsAt = some (kind, key)) (hop : op = .insert key value typed pinned inserted)
      (hnew : (b.apply op).get key = some new) (hlater : e.stamp < new.stamp)
  /-- The rollback of the store that wrote it. -/
  | rolledBack (f : Fetch) (ht : t = .rollback f e.stamp) (hkind : f.kind = kind) (hkey : f.key = key)
      (hwrote : WroteStamp tr s i f e.stamp)
  /-- A read that failed to decode this entry. -/
  | undecodable (r : Read) (seen : Entry) (decodes : Arc → Bool) (ht : t = .dropUndecodable r seen)
      (hkind : r.kind = kind) (hkey : r.key = key) (hseen : seen.stamp = e.stamp)
      (hdoor : r.door = .get decodes) (hdecodes : decodes seen.value = false)

/-! ## What a call took from the settings, and what it wrote -/

/-- The cap a `configure` call spreads over the buckets. -/
def Call.newMax : Call → Option Nat
  | .shrinkTtl newMax _ | .shrink newMax _ _ _ => some newMax
  | _ => none

variable {tr : List Event}

theorem WasSet.snoc {α : Type} {s u : State} {ev : Event}
    {read : CacheConfig → α} {v : α} (h : WasSet tr s read v) (hstep : Step s ev u) :
    WasSet (tr ++ [ev]) u read v :=
  Happened.snoc h hstep

theorem WasSet.last {α : Type} {s u : State} {ev : Event}
    {read : CacheConfig → α} {v : α} (hrun : Runs tr s) (hstep : Step s ev u)
    (h : read (ev.effect.run s.cache).config = v) : WasSet (tr ++ [ev]) u read v :=
  Happened.last hrun hstep (by rw [hstep.cache_eq]; exact h)

variable {s : State}

theorem WasSet.map {α β : Type} {read : CacheConfig → α} {v : α}
    (h : WasSet tr s read v) (g : α → β) : WasSet tr s (fun c => g (read c)) (g v) := by
  obtain ⟨tr₁, s₁, e, u, tr₂, htr, h₁, h₂, h₃, hset⟩ := h
  exact ⟨tr₁, s₁, e, u, tr₂, htr, h₁, h₂, h₃, congrArg g hset⟩

/-- The limits a call holds were the settings' at some time. -/
def LimitsSet (tr : List Event) (s : State) (t : Call) : Prop :=
  (∀ kind ttl, t.ttlOn kind = some ttl → WasSet tr s (·.ttlFor kind) ttl) ∧
  (∀ kind cap, t.capOn kind = some cap → WasSet tr s (fun c => capFor kind c.maxSize) cap) ∧
  (∀ newMax, t.newMax = some newMax → WasSet tr s (·.maxSize) newMax)

theorem LimitsSet.of_none {t : Call} (httl : ∀ kind, t.ttlOn kind = none) (hcap : ∀ kind, t.capOn kind = none)
    (hmax : t.newMax = none) : LimitsSet tr s t :=
  ⟨fun kind _ h => absurd ((httl kind).symm.trans h) nofun,
    fun kind _ h => absurd ((hcap kind).symm.trans h) nofun,
    fun _ h => absurd (hmax.symm.trans h) nofun⟩

variable {kind : CacheKind}

/-- The two values `limits_if_enabled` returns. -/
theorem limitsIfEnabled_eq {c : Cache} {maxSize : Nat} {ttl : Duration}
    (h : c.limitsIfEnabled kind = some (maxSize, ttl)) :
    capFor kind c.config.maxSize = maxSize ∧ c.config.ttlFor kind = ttl := by
  unfold limitsIfEnabled at h
  split at h
  · simpa using h
  · exact absurd h nofun

theorem limitsSet_run (hrun : Runs tr s) {i : Nat} {t : Call}
    (hcall : s.calls[i]? = some t) : LimitsSet tr s t := by
  refine forall_calls_run (fun tr s _ t => LimitsSet tr s t) ?_ ?_ ?_ hrun hcall
  · intro tr s t u _ hstart _ _
    cases t with
    | generation | putLimits | lookupConfig | bump | patchBump | configure =>
      exact .of_none (fun _ => rfl) (fun _ => rfl) rfl
    | _ => exact absurd hstart (by simp [Call.isStart])
  · intro tr s i t clock effect t' u hpre hcall hinv hnext hstep _
    cases hnext with
    | allowed w hlimits hpayload | putAllowed key hlimits hpayload =>
      obtain ⟨hcap, httl⟩ := limitsIfEnabled_eq hlimits
      refine ⟨fun kind ttl h => ?_, fun kind cap h => ?_,
        fun newMax h => absurd h (by simp [Call.newMax])⟩
      · simp only [Call.ttlOn, Option.ite_none_right_eq_some, Option.some.injEq] at h
        obtain ⟨rfl, rfl⟩ := h
        exact .last hpre hstep httl
      · simp only [Call.capOn, Option.ite_none_right_eq_some, Option.some.injEq] at h
        obtain ⟨rfl, rfl⟩ := h
        exact .last hpre hstep hcap
    | reading r =>
      refine ⟨fun kind ttl h => ?_, fun kind cap h => absurd h (by simp [Call.capOn]),
        fun newMax h => absurd h (by simp [Call.newMax])⟩
      simp only [Call.ttlOn, Option.ite_none_right_eq_some, Option.some.injEq] at h
      obtain ⟨rfl, rfl⟩ := h
      exact .last hpre hstep rfl
    | configure upd =>
      split
      · next newMax hmax =>
        refine ⟨fun kind ttl h => absurd h (by simp [Call.ttlOn]),
          fun kind cap h => absurd h (by simp [Call.capOn]), fun m h => ?_⟩
        obtain rfl := Option.some.inj h
        exact .last hpre hstep (by simp [Effect.run, CacheConfig.update, hmax])
      · exact .of_none (fun _ => rfl) (fun _ => rfl) rfl
    | shrinkTtl newMax kind kinds =>
      have hmax := hinv.2.2 newMax rfl
      refine ⟨fun k ttl h => ?_, fun k cap h => ?_, fun m h => ?_⟩
      · simp only [Call.ttlOn, Option.ite_none_right_eq_some, Option.some.injEq] at h
        obtain ⟨rfl, rfl⟩ := h
        exact .last hpre hstep rfl
      · simp only [Call.capOn, Option.ite_none_right_eq_some, Option.some.injEq] at h
        obtain ⟨rfl, rfl⟩ := h
        exact (hmax.map (capFor kind)).snoc hstep
      · obtain rfl := Option.some.inj h
        exact hmax.snoc hstep
    | shrink newMax kind ttl kinds =>
      refine ⟨fun k ttl h => absurd h (by simp [Call.ttlOn]),
        fun k cap h => absurd h (by simp [Call.capOn]), fun m h => ?_⟩
      obtain rfl := Option.some.inj h
      exact (hinv.2.2 newMax rfl).snoc hstep
    | overtaken f stamp => cases stamp <;> exact .of_none (fun _ => rfl) (fun _ => rfl) rfl
    | replaceLost | keepLost =>
      split <;> exact .of_none (fun _ => rfl) (fun _ => rfl) rfl
    | _ => exact .of_none (fun _ => rfl) (fun _ => rfl) rfl
  · intro tr s ev u i t _ _ hinv hstep _ _
    exact ⟨fun kind ttl h => (hinv.1 kind ttl h).snoc hstep,
      fun kind cap h => (hinv.2.1 kind cap h).snoc hstep, fun m h => (hinv.2.2 m h).snoc hstep⟩

/-- The stamp a guarded store holds is the one its own insert was handed. -/
theorem wroteStamp_run (hrun : Runs tr s) {i : Nat} {t : Call}
    {f : Fetch} {stamp : Nat} (hcall : s.calls[i]? = some t) (hfetch : t.fetch = some f)
    (hwrote : t.wrote = some stamp) : WroteStamp tr s i f stamp := by
  refine forall_calls_run (fun tr s i t => ∀ f stamp, t.fetch = some f → t.wrote = some stamp →
    WroteStamp tr s i f stamp) ?_ ?_ ?_ hrun hcall f stamp hfetch hwrote
  · intro tr s t u _ hstart _ _ f stamp _ hwrote
    rw [Call.wrote_of_isStart hstart] at hwrote
    exact absurd hwrote nofun
  · intro tr s i t clock effect t' u hpre hcall hinv hnext hstep _ f stamp hfetch hwrote
    rw [hnext.fetch_eq] at hfetch
    rcases hnext.wrote_cases hwrote with hold | ⟨f', w, payload, maxSize, ttl, rfl, rfl, rfl⟩
    · exact Happened.snoc (hinv f stamp hfetch hold) hstep
    · obtain rfl : f' = f := Option.some.inj hfetch
      exact Happened.last hpre hstep ⟨rfl, ⟨w, payload, maxSize, ttl, hcall⟩, rfl⟩
  · intro tr s ev u i t _ _ hinv hstep _ _ f stamp hfetch hwrote
    exact Happened.snoc (hinv f stamp hfetch hwrote) hstep

/-! ## Results -/

/-- An invalidation removes keys it covers only. -/
theorem Invalidation.covers_of_opReason (inv : Invalidation) {b : Bucket}
    {key : String} {e : Entry} (hkind : kind ∈ inv.kinds) (h : b.OpReason key e inv.op) :
    inv.scope.covers kind key = true := by
  cases inv with
  | invalidate k key' =>
    obtain rfl : key = key' := h
    obtain rfl : kind = k := by simpa [Invalidation.kinds] using hkind
    simp [Invalidation.scope, Scope.covers, KeyMatch.matches]
  | invalidatePrefix k start =>
    have hstart : (!key.startsWith start) = false := h
    obtain rfl : kind = k := by simpa [Invalidation.kinds] using hkind
    simpa [Invalidation.scope, Scope.covers, KeyMatch.matches] using hstart
  | invalidateTenant tenantId =>
    have hstart : (!key.startsWith (tenantId ++ "|")) = false := h
    simpa [Invalidation.scope, Scope.covers, KeyMatch.matches] using hstart
  | clearKind k =>
    obtain rfl : kind = k := by simpa [Invalidation.kinds] using hkind
    simp [Invalidation.scope, Scope.covers, KeyMatch.matches]
  | clear => rfl

/-- The operations of an effect on a bucket, one by one. -/
theorem singleton_eq_append {α : Type} {x y : α} {pre post : List α} (h : [x] = pre ++ y :: post) :
    pre = [] ∧ y = x := by
  cases pre with
  | nil => exact ⟨rfl, (List.cons.inj h).1.symm⟩
  | cons _ pre => exact absurd (List.cons.inj h).2 (by simp)

theorem pair_eq_append {α : Type} {x₁ x₂ y : α} {pre post : List α}
    (h : [x₁, x₂] = pre ++ y :: post) : (pre = [] ∧ y = x₁) ∨ (pre = [x₁] ∧ y = x₂) := by
  cases pre with
  | nil => exact Or.inl ⟨rfl, (List.cons.inj h).1.symm⟩
  | cons z pre =>
    obtain ⟨rfl, h'⟩ := List.cons.inj h
    obtain ⟨rfl, rfl⟩ := singleton_eq_append h'
    exact Or.inr ⟨rfl, rfl⟩

/-- Whenever call `i` is about to drop an entry it could not decode, there is nothing under the key
    by then, or still the entry it read. -/
def DropsOwn (s : State) (i : Nat) : Prop :=
  ∀ r seen, s.calls[i]? = some (.dropUndecodable r seen) →
    ∀ e, (s.cache.buckets r.kind).get r.key = some e → e.stamp = seen.stamp

/-- The reasons of a store's section: its insert replaces, its eviction pass sweeps and makes room. -/
theorem Reason.of_put {i : Nat} {t : Call} {clock : Clock}
    {b : Bucket} {key key' : String} {payload : Payload} {maxSize : Nat}
    {ttl : Duration} {pre post : List Bucket.Op} {op : Bucket.Op} {e : Entry}
    (hlimits : LimitsSet tr s t) (hinserts : t.insertsAt = some (kind, key'))
    (httl : t.ttlOn kind = some ttl) (hcap : t.capOn kind = some maxSize)
    (hops : Call.putOps key' payload maxSize ttl clock = pre ++ op :: post) (hb : b.Consistent)
    (hget : b.get key = some e) (hreason : b.OpReason key e op) :
    Reason tr s i t clock b op kind key e := by
  rcases pair_eq_append hops with ⟨-, rfl⟩ | ⟨-, rfl⟩
  · obtain rfl : key = key' := hreason
    exact .replaced _ _ _ _ _ hinserts rfl ((Bucket.get_insert ..).trans (if_pos rfl))
      (Nat.lt_succ_of_le (hb.stamp_le _ e hget))
  · rcases hreason with hold | hvictim | hvictim
    · exact .expired ttl httl (hlimits.1 _ _ httl) hold
    · exact .evicted maxSize ttl hcap httl (hlimits.2.1 _ _ hcap) (Or.inl hvictim)
    · exact .evicted maxSize ttl hcap httl (hlimits.2.1 _ _ hcap) (Or.inr hvictim)

/-- One section: whatever it removes, it removes for one of the listed reasons, as long as a `get`
    that drops an entry finds its own. -/
theorem reason_of_departs (hrun : Runs tr s) {i : Nat} {t t' : Call}
    {clock : Clock} {effect : Effect} (hcall : s.calls[i]? = some t)
    (hnext : Call.Next s.cache clock t effect t') (hown : DropsOwn s i)
    {key : String} {e : Entry} {pre post : List Bucket.Op} {op : Bucket.Op}
    (hops : effect.opsOn kind = pre ++ op :: post)
    (hdep : ((s.cache.buckets kind).applyAll pre).Departs op key e) :
    Reason tr s i t clock ((s.cache.buckets kind).applyAll pre) op kind key e := by
  have hb := (consistent_run hrun kind).applyAll pre
  have hreason := hdep.reason hb
  have hlimits := limitsSet_run hrun hcall
  have hlocal := localOk_run hrun hcall
  cases hnext with
  | inserted f w payload maxSize ttl | put k key' payload maxSize ttl =>
    simp only [Effect.opsOn] at hops
    split at hops
    · next hk =>
      subst hk
      exact .of_put hlimits rfl (if_pos rfl) (if_pos rfl) hops hb hdep.1 hreason
    · exact absurd hops (by simp)
  | rolledBack f stamp =>
    simp only [Effect.opsOn] at hops
    split at hops
    · next hk =>
      obtain ⟨-, rfl⟩ := singleton_eq_append hops
      obtain ⟨rfl, rfl⟩ := hreason
      exact .rolledBack f rfl hk rfl (wroteStamp_run hrun hcall rfl rfl)
    · exact absurd hops (by simp)
  | @miss r ttl hlive =>
    simp only [Effect.opsOn] at hops
    split at hops
    · next hk =>
      subst hk
      obtain ⟨rfl, rfl⟩ := singleton_eq_append hops
      obtain rfl : key = r.key := hreason
      -- the entry was there and still the lookup missed, so it was too old
      refine .expired ttl (if_pos rfl) (hlimits.1 _ _ (if_pos rfl)) ?_
      have hget : (s.cache.buckets r.kind).get r.key = some e := hdep.1
      rw [Call.liveEntry, hget, Option.filter_some] at hlive
      simpa using hlive
    · exact absurd hops (by simp)
  | dropUndecodable r seen =>
    simp only [Effect.opsOn] at hops
    split at hops
    · next hk =>
      subst hk
      obtain ⟨rfl, rfl⟩ := singleton_eq_append hops
      obtain rfl : key = r.key := hreason
      obtain ⟨-, decodes, hdoor, hdecodes⟩ := hlocal.2.1 r seen rfl
      exact .undecodable r seen decodes rfl rfl rfl (hown r seen hcall e hdep.1).symm hdoor
        hdecodes
    · exact absurd hops (by simp)
  | remove inv k kinds =>
    simp only [Effect.opsOn] at hops
    split at hops
    · next hk =>
      subst hk
      obtain ⟨-, rfl⟩ := singleton_eq_append hops
      exact .invalidated inv kinds rfl (inv.covers_of_opReason
        (hlocal.2.2.2.2 inv _ rfl k List.mem_cons_self) hreason)
    · exact absurd hops (by simp)
  | patchRemove p =>
    simp only [Effect.opsOn] at hops
    split at hops
    · next hk =>
      obtain ⟨-, rfl⟩ := singleton_eq_append hops
      obtain rfl : key = p.key := hreason
      exact .patchFallback p rfl hk rfl
    · exact absurd hops (by simp)
  | shrink newMax k ttl kinds =>
    simp only [Effect.opsOn] at hops
    split at hops
    · next hk =>
      subst hk
      rcases pair_eq_append hops with ⟨-, rfl⟩ | ⟨-, rfl⟩
      · exact .expired ttl (if_pos rfl) (hlimits.1 _ _ (if_pos rfl)) hreason
      · exact .evicted _ ttl (if_pos rfl) (if_pos rfl) (hlimits.2.1 _ _ (if_pos rfl))
          (Or.inl hreason)
    · exact absurd hops (by simp)
  | hit | undecodable | replaced | replaceLost =>
    -- touching an entry or swapping its typed value removes nothing
    simp only [Effect.opsOn] at hops
    split at hops
    · obtain ⟨-, rfl⟩ := singleton_eq_append hops
      exact hreason.elim
    · exact absurd hops (by simp)
  | overtaken | dropped =>
    split at hops <;> exact absurd hops (by simp [Effect.opsOn])
  | _ => exact absurd hops (by simp [Effect.opsOn])

/-- **Every departure has a listed reason** in every run in which no `get` drops an entry other than
    the one it read. -/
theorem departures_have_reasons {tr : List Event} {s : State}
    (hrun : Run (fun s ev u => Step s ev u ∧ DropsOwn s ev.call) State.init tr s) {i : Nat}
    {t t' : Call} {clock : Clock} {effect : Effect} (hcall : s.calls[i]? = some t)
    (hstep : t.step s.cache clock = some (effect, t')) (hown : DropsOwn s i) {kind : CacheKind}
    {key : String} {e : Entry} {pre post : List Bucket.Op} {op : Bucket.Op}
    (hops : effect.opsOn kind = pre ++ op :: post)
    (hdep : ((s.cache.buckets kind).applyAll pre).Departs op key e) :
    Reason tr s i t clock ((s.cache.buckets kind).applyAll pre) op kind key e := by
  have hall : Runs tr s :=
    hrun.invariant (fun tr s => Runs tr s) .nil (fun _ _ _ _ _ hpre hs => .snoc hpre hs.1)
  exact reason_of_departs hall hcall (Call.next_of_step hstep) hown hops hdep

/-- A read that fails to decode an entry, undisturbed: the entry it removes is the one it read. -/
theorem departures_have_reasons_undecodable :
    ∃ tr s e, Run (fun s ev u => Step s ev u ∧ DropsOwn s ev.call) State.init tr s ∧
      Reason tr s 1 (.dropUndecodable ⟨.audit, "t|run", .get (· == 2)⟩ ⟨1, none, 1, 1, false, 1⟩)
        (.still 6) (s.cache.buckets .audit) (.remove "t|run") .audit "t|run" e := by
  have hplay : ∃ tr s, Run (fun s ev u => Step s ev u ∧ DropsOwn s ev.call) State.init tr s ∧
      s.calls[1]? = some (.dropUndecodable ⟨.audit, "t|run", .get (· == 2)⟩
        ⟨1, none, 1, 1, false, 1⟩) ∧
      (s.cache.buckets .audit).get "t|run" = some ⟨1, none, 1, 2, false, 1⟩ := by
    -- no call is at its drop section in any of these steps
    refine ⟨_, _, .snoc (.snoc (.snoc (.snoc (.snoc (.snoc .nil
      ⟨.call (.putLimits .audit "t|run" (.json (some 1))) rfl, fun _ _ h => ?_⟩)
      ⟨@Step.act_last _ [] _ _ _ (.still 0) rfl, fun _ _ h => ?_⟩)
      ⟨@Step.act_last _ [] _ _ _ (.still 1) rfl, fun _ _ h => ?_⟩)
      ⟨.call (.lookupConfig ⟨.audit, "t|run", .get (· == 2)⟩) rfl, fun _ _ h => ?_⟩)
      ⟨@Step.act_last _ [.done true] _ _ _ (.still 2) rfl, fun _ _ h => ?_⟩)
      ⟨@Step.act_last _ [.done true] _ _ _ (.still 3) rfl, fun _ _ h => ?_⟩, rfl, rfl⟩
    all_goals exact absurd h nofun
  obtain ⟨tr, s, hrun, hcall, hget⟩ := hplay
  have hown : DropsOwn s 1 := by
    intro r seen hcall' e he
    rw [hcall] at hcall'
    simp only [Option.some.injEq, Call.dropUndecodable.injEq] at hcall'
    obtain ⟨rfl, rfl⟩ := hcall'
    rw [hget] at he
    rw [← Option.some.inj he]
  refine ⟨tr, s, _, hrun, @departures_have_reasons _ _ hrun _ _ _ _ _ hcall rfl hown
    _ _ _ [] _ _ rfl ⟨hget, ?_⟩⟩
  intro e' he'
  simp [Bucket.apply, Bucket.get_remove] at he'

/-- A read that is about to drop an entry has no reason to remove another one. -/
theorem not_reason_of_seen {i : Nat} {r : Read} {seen e : Entry}
    {clock : Clock} {b : Bucket} {op : Bucket.Op} {key : String}
    (hne : seen.stamp ≠ e.stamp) : ¬ Reason tr s i (.dropUndecodable r seen) clock b op kind key e := by
  intro h
  cases h with
  | invalidated _ _ ht | patchFallback _ ht | expired _ ht | evicted _ _ ht | replaced _ _ _ _ _ ht
  | rolledBack _ ht => exact absurd ht nofun
  | undecodable r' seen' _ ht _ _ hseen =>
    simp only [Call.dropUndecodable.injEq] at ht
    obtain ⟨rfl, rfl⟩ := ht
    exact hne hseen

/-- **A `get` can drop an entry it never read.** A read finds an entry it cannot decode; before it
    takes the lock again, another writer stores a newer entry under the key; the read then removes
    that one. -/
theorem get_drops_newer_entry :
    ¬ ∀ tr s i t t' clock effect kind key e pre post op, Runs tr s → s.calls[i]? = some t →
      t.step s.cache clock = some (effect, t') → effect.opsOn kind = pre ++ op :: post →
      ((s.cache.buckets kind).applyAll pre).Departs op key e →
      Reason tr s i t clock ((s.cache.buckets kind).applyAll pre) op kind key e := by
  intro hclaim
  have hrace : ∃ tr s, Runs tr s ∧
      s.calls[1]? = some (.dropUndecodable ⟨.audit, "t|run", .get (· == 2)⟩
        ⟨1, none, 1, 1, false, 1⟩) ∧
      (s.cache.buckets .audit).get "t|run" = some ⟨2, none, 5, 3, false, 2⟩ :=
    ⟨_, _, State.run_of_playAll (rfl : State.init.playAll
      [.call (.putLimits .audit "t|run" (.json (some 1))), .act 0 (.still 0), .act 0 (.still 1),
        .call (.lookupConfig ⟨.audit, "t|run", .get (· == 2)⟩), .act 1 (.still 2),
        .act 1 (.still 3), .call (.putLimits .audit "t|run" (.json (some 2))), .act 2 (.still 4),
        .act 2 (.still 5)] = _), rfl, rfl⟩
  obtain ⟨tr, s, hrun, hcall, hget⟩ := hrace
  refine not_reason_of_seen (by decide) (hclaim tr s 1 _ _ (.still 6) _ .audit "t|run" _ [] []
    (.remove "t|run") hrun hcall rfl rfl ⟨hget, fun e' he' => ?_⟩)
  simp [Bucket.apply, Bucket.applyAll, Bucket.get_remove] at he'

end Cache
