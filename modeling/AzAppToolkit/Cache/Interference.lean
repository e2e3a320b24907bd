import AzAppToolkit.Cache.BucketProofs
import AzAppToolkit.Cache.Watches

set_option autoImplicit false

/-! # Reasoning about one call among the others

A property of one call is shown in two parts: its own sections establish it, and the sections of the
other calls do not break it. `forall_calls_run` is that rule. The rest of the file says what
interference a call has to expect from a bucket: entries come and go, but a stamp that is gone does
not come back, and it never moves to another key. -/

namespace Cache

/-! ## Own steps and the steps of others -/

/-- Where a call of the next state comes from: it did not move, or it was just made, or it ran its
    next section. -/
theorem Step.origin {s u : State} {ev : Event} (hstep : Step s ev u) {i : Nat} {t' : Call}
    (hcall : u.calls[i]? = some t') :
    (ev.call ≠ i ∧ s.calls[i]? = some t') ∨
    (ev = ⟨i, .idle⟩ ∧ i = s.calls.length ∧ t'.isStart = true ∧ u.cache = s.cache) ∨
    (∃ t clock effect, s.calls[i]? = some t ∧ Call.Next s.cache clock t effect t' ∧
      ev = ⟨i, effect⟩ ∧ u.cache = effect.run s.cache) := by
  cases hstep with
  | call t hstart =>
    simp only [List.getElem?_append] at hcall
    split at hcall
    · next hi => exact Or.inl ⟨by simp only [ne_eq]; omega, hcall⟩
    · rw [List.getElem?_singleton] at hcall
      split at hcall
      · next hi =>
        obtain rfl : i = s.calls.length := by omega
        obtain rfl := Option.some.inj hcall
        exact Or.inr (Or.inl ⟨rfl, rfl, hstart, rfl⟩)
      · exact absurd hcall nofun
  | @act j t t₁ effect clock hcall' hstep =>
    obtain ⟨hj, -⟩ := List.getElem?_eq_some_iff.1 hcall'
    by_cases hij : j = i
    · subst hij
      rw [List.getElem?_set_self hj] at hcall
      obtain rfl := Option.some.inj hcall
      exact Or.inr (Or.inr ⟨t, clock, effect, hcall', Call.next_of_step hstep, rfl, rfl⟩)
    · rw [List.getElem?_set_ne hij] at hcall
      exact Or.inl ⟨hij, hcall⟩

/-- What a new call satisfies, its own sections keep and the steps of others do not break holds of
    every call in every run. -/
theorem forall_calls_run (P : List Event → State → Nat → Call → Prop)
    (hstart : ∀ tr s t u, Runs tr s → t.isStart = true → Step s ⟨s.calls.length, .idle⟩ u →
      u.cache = s.cache → P (tr ++ [⟨s.calls.length, .idle⟩]) u s.calls.length t)
    (hown : ∀ tr s i t clock effect t' u, Runs tr s → s.calls[i]? = some t → P tr s i t →
      Call.Next s.cache clock t effect t' → Step s ⟨i, effect⟩ u → u.calls[i]? = some t' →
      P (tr ++ [⟨i, effect⟩]) u i t')
    (hother : ∀ tr s ev u i t, Runs tr s → s.calls[i]? = some t → P tr s i t →
      Step s ev u → ev.call ≠ i → u.calls[i]? = some t → P (tr ++ [ev]) u i t)
    {tr : List Event} {s : State} (hrun : Runs tr s) {i : Nat} {t : Call}
    (hcall : s.calls[i]? = some t) : P tr s i t := by
  have hall : ∀ i t, s.calls[i]? = some t → P tr s i t := by
    refine hrun.invariant (fun tr s => ∀ i t, s.calls[i]? = some t → P tr s i t) ?_ ?_
    · exact fun i t hcall => absurd hcall (by simp [State.init])
    · intro tr s ev u hpre hinv hstep i t hcall
      rcases hstep.origin hcall with ⟨hne, hcall'⟩ | ⟨rfl, rfl, hstart', hcache⟩ |
        ⟨t₀, clock, effect, hcall', hnext, rfl, hcache⟩
      · exact hother tr s ev u i t hpre hcall' (hinv i t hcall') hstep hne hcall
      · exact hstart tr s t u hpre hstart' hstep hcache
      · exact hown tr s i t₀ clock effect t u hpre hcall' (hinv i t₀ hcall') hnext hstep hcall
  exact hall i t hcall

/-! ## What a step does to a bucket -/

/-- The operations an effect makes on the bucket of `kind`. -/
def Effect.opsOn (kind : CacheKind) : Effect → List Bucket.Op
  | .bucket kind' ops => if kind' = kind then ops else []
  | _ => []

theorem buckets_onBucket (kind kind' : CacheKind) (ops : List Bucket.Op) (c : Cache) :
    (ops.foldl (fun c op => c.onBucket kind' op) c).buckets kind
      = (c.buckets kind).applyAll (if kind' = kind then ops else []) := by
  induction ops generalizing c with
  | nil => simp [Bucket.applyAll]
  | cons op ops ih =>
    rw [List.foldl_cons, ih]
    by_cases hk : kind' = kind
    · subst hk
      simp [onBucket, Bucket.applyAll]
    · simp [onBucket, hk, Ne.symm hk, Bucket.applyAll]

/-- A step changes a bucket by the operations of its effect and by nothing else. -/
theorem Effect.buckets_run (c : Cache) (effect : Effect) (kind : CacheKind) :
    (effect.run c).buckets kind = (c.buckets kind).applyAll (effect.opsOn kind) := by
  cases effect with
  | idle | configure | bump scope => rfl
  | generation k key =>
    rcases generationFor_cases c k key with ⟨w, -, heq⟩ | ⟨-, -, heq⟩ | ⟨-, -, heq⟩ <;>
      · rw [Effect.run, heq]
        rfl
  | release k key =>
    rw [Effect.run]
    unfold releaseWatch
    repeat' split
    all_goals rfl
  | bucket k ops => exact buckets_onBucket kind k ops c

theorem Step.cache_eq {s u : State} {ev : Event} (hstep : Step s ev u) : u.cache = ev.effect.run s.cache := by
  cases hstep <;> rfl

theorem Step.buckets {s u : State} {ev : Event} (hstep : Step s ev u) (kind : CacheKind) :
    u.cache.buckets kind = (s.cache.buckets kind).applyAll (ev.effect.opsOn kind) := by
  rw [hstep.cache_eq, Effect.buckets_run]

/-- Every bucket's bookkeeping is exact in every run. -/
theorem consistent_run {tr : List Event} {s : State} (hrun : Runs tr s) (kind : CacheKind) :
    (s.cache.buckets kind).Consistent := by
  refine hrun.invariant (fun _ s => (s.cache.buckets kind).Consistent) Bucket.consistent_new ?_
  intro _ s ev u _ hinv hstep
  rw [hstep.buckets kind]
  exact hinv.applyAll _

/-! ## Stamps -/

/-- No entry carries `stamp`. -/
def Absent (b : Bucket) (stamp : Nat) : Prop := ∀ k e, b.get k = some e → e.stamp ≠ stamp

/-- `stamp` was issued, and only the entry under `key` can carry it. -/
def Issued (b : Bucket) (stamp : Nat) (key : String) : Prop :=
  stamp ≤ b.nextStamp ∧ ∀ k e, b.get k = some e → e.stamp = stamp → k = key

/-- After any operations, an entry with an old stamp was there before, under the same key. -/
theorem get_of_get_applyAll {b : Bucket} (h : b.Consistent) {ops : List Bucket.Op} {k : String}
    {e : Entry} (hk : (b.applyAll ops).get k = some e) (hold : e.stamp ≤ b.nextStamp) :
    ∃ e₀, b.get k = some e₀ ∧ e₀.stamp = e.stamp := by
  obtain ⟨-, hrange, -, horigin⟩ := Bucket.issuedAll_spec h ops
  rcases horigin k e hk with hin | hbefore
  · have := (hrange _ hin).1
    omega
  · exact hbefore

/-- A stamp that is gone does not come back. -/
theorem Absent.applyAll {b : Bucket} (hc : b.Consistent) {stamp : Nat} (h : Absent b stamp)
    (hold : stamp ≤ b.nextStamp) (ops : List Bucket.Op) : Absent (b.applyAll ops) stamp := by
  rintro k e hk rfl
  obtain ⟨e₀, he₀, hst⟩ := get_of_get_applyAll hc hk hold
  exact h k e₀ he₀ hst

/-- A stamp stays under its key. -/
theorem Issued.applyAll {b : Bucket} (hc : b.Consistent) {stamp : Nat} {key : String}
    (h : Issued b stamp key) (ops : List Bucket.Op) : Issued (b.applyAll ops) stamp key := by
  obtain ⟨-, -, hle, -⟩ := Bucket.issuedAll_spec hc ops
  refine ⟨h.1.trans hle, ?_⟩
  rintro k e hk rfl
  obtain ⟨e₀, he₀, hst⟩ := get_of_get_applyAll hc hk h.1
  exact h.2 k e₀ he₀ hst

theorem Issued.absent {b : Bucket} {stamp : Nat} {key : String} (h : Issued b stamp key)
    (hgone : ∀ e, b.get key = some e → e.stamp ≠ stamp) : Absent b stamp := by
  intro k e hk hst
  obtain rfl := h.2 k e hk hst
  exact hgone e hk hst

/-- The stamp of a store's own insert. -/
theorem Issued.put {b : Bucket} (hc : b.Consistent) (key : String) (payload : Payload)
    (maxSize : Nat) (ttl : Duration) (clock : Clock) :
    Issued (b.applyAll (Call.putOps key payload maxSize ttl clock)) (b.nextStamp + 1) key := by
  let b₁ := b.apply (payload.insert key clock)
  have hc₁ : b₁.Consistent := hc.apply _
  have hnext : b₁.nextStamp = b.nextStamp + 1 := rfl
  have hfresh : Issued b₁ (b.nextStamp + 1) key := by
    refine ⟨Nat.le_of_eq hnext.symm, fun k e hk hst => ?_⟩
    have hk' : (b.insert key payload.value payload.typed payload.pinned clock.inserted).1.get k
        = some e := hk
    rw [Bucket.get_insert] at hk'
    split at hk'
    · next hkey => exact hkey
    · have := hc.stamp_le k e hk'
      omega
  exact hfresh.applyAll hc₁ [.evictIfNeeded clock ttl maxSize]

/-! ## What a call knows -/

/-- The fetch a call runs. -/
def Call.fetch : Call → Option Fetch
  | .generation f | .fetching f _ | .preCheck f _ _ | .storeLimits f _ _ | .storeInsert f _ _ _ _
  | .release f _ _ | .rollback f _ | .dropping f _ | .returned f _ _ => some f
  | _ => none

/-- The stamp a guarded store was handed. -/
def Call.wrote : Call → Option Nat
  | .release _ _ stamp => stamp
  | .rollback _ stamp => some stamp
  | .returned _ stamp _ => stamp
  | _ => none

/-- What the earlier sections of a call left in its local variables: a fetch's guard is on its key;
    a read that goes on to drop an entry failed to decode it and saw it untyped; a patch that goes
    on to land decided so about the value it read; the buckets an invalidation has yet to visit are
    its own. -/
def Call.LocalOk (t : Call) : Prop :=
  (∀ w, t.guard = some w → ∃ f, t.fetch = some f ∧ w.kind = f.kind ∧ w.key = f.key) ∧
  (∀ r seen, t = .dropUndecodable r seen →
    seen.typed = none ∧ ∃ decodes, r.door = .get decodes ∧ decodes seen.value = false) ∧
  (∀ p ttl attempts read next, t = .patchReplace p ttl attempts read next →
    p.patch read = .replace next) ∧
  (∀ p ttl attempts read, t = .patchKeep p ttl attempts read → p.patch read = .keep) ∧
  (∀ inv kinds, t = .remove inv kinds → ∀ kind ∈ kinds, kind ∈ inv.kinds)

theorem Call.Next.fetch_eq {c : Cache} {clock : Clock} {t t' : Call} {effect : Effect}
    (h : Call.Next c clock t effect t') : t'.fetch = t.fetch := by
  cases h with
  | overtaken | replaceLost | keepLost | configure => split <;> rfl
  | _ => rfl

/-- A call's stamp is the one its own insert was handed. -/
theorem Call.Next.wrote_cases {c : Cache} {clock : Clock} {t t' : Call} {effect : Effect}
    {stamp : Nat} (h : Call.Next c clock t effect t') (hwrote : t'.wrote = some stamp) :
    t.wrote = some stamp ∨ ∃ f w payload maxSize ttl, t = .storeInsert f w payload maxSize ttl ∧
      stamp = putStamp c f.kind f.key payload clock ∧
      effect = .bucket f.kind (putOps f.key payload maxSize ttl clock) := by
  cases h with
  | inserted f w payload maxSize ttl =>
    exact Or.inr ⟨f, w, payload, maxSize, ttl, rfl, (Option.some.inj hwrote).symm, rfl⟩
  | overtaken f stamp' =>
    cases stamp' with
    | none => exact absurd hwrote nofun
    | some stamp' => exact Or.inl hwrote
  | stored | rolledBack => exact Or.inl hwrote
  | replaceLost | keepLost | configure => split at hwrote <;> exact absurd hwrote nofun
  | _ => exact absurd hwrote nofun

theorem Call.LocalOk.next {c : Cache} {clock : Clock} {t t' : Call} {effect : Effect}
    (hok : t.LocalOk) (h : Call.Next c clock t effect t') : t'.LocalOk := by
  refine ⟨fun w hw => ?_, fun r seen ht => ?_, fun p ttl n read next ht => ?_,
    fun p ttl n read ht => ?_, fun inv kinds ht => ?_⟩
  · rcases h.guard_cases with ⟨f, rfl, -, rfl⟩ | ⟨_, _, _, _, hnone⟩ | ⟨_, _, hsame⟩
    · obtain rfl := Option.some.inj hw
      exact ⟨f, rfl, generationFor_id c f.kind f.key⟩
    · rw [hnone] at hw
      exact absurd hw nofun
    · rw [h.fetch_eq]
      exact hok.1 w (hsame w hw)
  · cases h with
    | @undecodable r' ttl e decodes hlive hdoor hdecodes htyped =>
      simp only [Call.dropUndecodable.injEq] at ht
      obtain ⟨rfl, rfl⟩ := ht
      exact ⟨htyped, decodes, hdoor, hdecodes⟩
    | overtaken | replaceLost | keepLost | configure => split at ht <;> exact absurd ht nofun
    | _ => exact absurd ht nofun
  · cases h with
    | patchReplacing ttl' n' hpatch =>
      simp only [Call.patchReplace.injEq] at ht
      obtain ⟨rfl, rfl, rfl, rfl, rfl⟩ := ht
      exact hpatch
    | overtaken | replaceLost | keepLost | configure => split at ht <;> exact absurd ht nofun
    | _ => exact absurd ht nofun
  · cases h with
    | patchKeeping ttl' n' hpatch =>
      simp only [Call.patchKeep.injEq] at ht
      obtain ⟨rfl, rfl, rfl, rfl⟩ := ht
      exact hpatch
    | overtaken | replaceLost | keepLost | configure => split at ht <;> exact absurd ht nofun
    | _ => exact absurd ht nofun
  · cases h with
    | bump inv' =>
      simp only [Call.remove.injEq] at ht
      obtain ⟨rfl, rfl⟩ := ht
      exact fun kind hkind => hkind
    | remove inv' kind kinds' =>
      simp only [Call.remove.injEq] at ht
      obtain ⟨rfl, rfl⟩ := ht
      exact fun k hk => hok.2.2.2.2 _ _ rfl k (List.mem_cons_of_mem _ hk)
    | overtaken | replaceLost | keepLost | configure => split at ht <;> exact absurd ht nofun
    | _ => exact absurd ht nofun

theorem Call.LocalOk.start {t : Call} (h : t.isStart = true) : t.LocalOk := by
  refine ⟨fun w hw => ?_, ?_, ?_, ?_, ?_⟩
  · rw [Call.guard_of_isStart h] at hw
    exact absurd hw nofun
  all_goals
    intros
    subst_vars
    exact absurd h nofun

theorem Call.wrote_of_isStart {t : Call} (h : t.isStart = true) : t.wrote = none := by
  cases t <;> first | rfl | exact absurd h nofun

theorem localOk_run {tr : List Event} {s : State} (hrun : Runs tr s) {i : Nat} {t : Call}
    (hcall : s.calls[i]? = some t) : t.LocalOk :=
  forall_calls_run (fun _ _ _ t => t.LocalOk) (fun _ _ _ _ _ hstart _ _ => .start hstart)
    (fun _ _ _ _ _ _ _ _ _ _ hok hnext _ _ => hok.next hnext)
    (fun _ _ _ _ _ _ _ _ hok _ _ _ => hok) hrun hcall

/-- The stamp a guarded store was handed is its entry's and nobody else's. -/
theorem issued_run {tr : List Event} {s : State} (hrun : Runs tr s) {i : Nat} {t : Call} {f : Fetch}
    {stamp : Nat} (hcall : s.calls[i]? = some t) (hfetch : t.fetch = some f)
    (hwrote : t.wrote = some stamp) : Issued (s.cache.buckets f.kind) stamp f.key := by
  refine forall_calls_run (fun _ s _ t => ∀ f stamp, t.fetch = some f → t.wrote = some stamp →
    Issued (s.cache.buckets f.kind) stamp f.key) ?_ ?_ ?_ hrun hcall f stamp hfetch hwrote
  · intro tr s t u hpre hstart _ _ f stamp _ hwrote
    rw [Call.wrote_of_isStart hstart] at hwrote
    exact absurd hwrote nofun
  · intro tr s i t clock effect t' u hpre hcall hinv hnext hstep _ f stamp hfetch hwrote
    rw [hstep.buckets]
    have hc := consistent_run hpre f.kind
    rw [hnext.fetch_eq] at hfetch
    rcases hnext.wrote_cases hwrote with hold | ⟨f', w, payload, maxSize, ttl, rfl, rfl, rfl⟩
    · exact (hinv f stamp hfetch hold).applyAll hc _
    · obtain rfl : f' = f := Option.some.inj hfetch
      simp only [Effect.opsOn, if_true]
      exact .put hc f'.key payload maxSize ttl clock
  · intro tr s ev u i t hpre hcall hinv hstep _ _ f stamp hfetch hwrote
    rw [hstep.buckets]
    exact (hinv f stamp hfetch hwrote).applyAll (consistent_run hpre f.kind) _

end Cache
