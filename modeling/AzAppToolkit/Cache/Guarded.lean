import AzAppToolkit.Cache.Interference

set_option autoImplicit false

/-! # Guarded stores against invalidations

A guarded store is four sections (pre-check, insert, release, rollback) and an invalidation at least
two (bump, remove), on different locks. What makes every interleaving safe is the order in which each
side uses the two locks: the store gives its reference back after its insert, and the invalidation
bumps before it removes. So a bump that comes before the release is seen by the release, and the
store undoes its own entry; a bump that comes after it comes after the insert too, and the removal
that follows takes the entry. -/

namespace Cache

/-! ## A store that reports success -/

variable {f : Fetch}

/-- A guarded store returns from its release section, having found the counter unmoved, or without
    having written, or from its rollback. -/
theorem Call.Next.returned_cases {c : Cache} {clock : Clock} {t : Call} {effect : Effect}
    {stamp : Option Nat} {result : Bool} (h : Call.Next c clock t effect (.returned f stamp result)) :
    (∃ w, t = .release f w stamp ∧ w.holdsRef = true ∧ effect = .release w.kind w.key ∧
      c.peekWatch w.kind w.key = some w.since) ∨
    (result = false ∧ stamp = none) ∨
    (result = false ∧ ∃ st, stamp = some st ∧ t = .rollback f st ∧
      effect = .bucket f.kind [.removeIfStamp f.key st]) := by
  generalize ht : Call.returned f stamp result = t' at h
  cases h with
  | stored f' stamp' hw hpeek =>
    simp only [Call.returned.injEq] at ht
    obtain ⟨rfl, rfl, -⟩ := ht
    exact Or.inl ⟨_, rfl, hw, rfl, hpeek⟩
  | overtaken f' stamp' =>
    cases stamp' with
    | none =>
      simp only [Call.returned.injEq] at ht
      exact Or.inr (Or.inl ⟨ht.2.2, ht.2.1⟩)
    | some stamp' => exact absurd ht nofun
  | rolledBack f' stamp' =>
    simp only [Call.returned.injEq] at ht
    obtain ⟨rfl, rfl, rfl⟩ := ht
    exact Or.inr (Or.inr ⟨rfl, stamp', rfl, rfl, rfl⟩)
  | dropped f' w =>
    simp only [Call.returned.injEq] at ht
    exact Or.inr (Or.inl ⟨ht.2.2, ht.2.1⟩)
  | replaceLost | keepLost | configure => split at ht <;> exact absurd ht nofun
  | _ => exact absurd ht nofun

/-- Between the registration and the release of a store that reports success there is no covering
    bump. -/
def Unbumped (tr : List Event) (i : Nat) (f : Fetch) : Prop :=
  ∃ before between after,
    tr = before ++ ⟨i, .generation f.kind f.key⟩ :: (between ++ ⟨i, .release f.kind f.key⟩ :: after) ∧
      ∀ e ∈ between, e.effect.bumps f.kind f.key = false

variable {tr : List Event}

theorem Unbumped.snoc {i : Nat} (h : Unbumped tr i f) (ev : Event) : Unbumped (tr ++ [ev]) i f := by
  obtain ⟨before, between, after, rfl, hno⟩ := h
  exact ⟨before, between, after ++ [ev], by simp, hno⟩

theorem unbumped_run {s : State} (hrun : Runs tr s) {i : Nat}
    {stamp : Option Nat} (hcall : s.calls[i]? = some (.returned f stamp true)) :
    Unbumped tr i f := by
  refine forall_calls_run (fun tr _ i t => ∀ f stamp, t = .returned f stamp true →
    Unbumped tr i f) ?_ ?_ ?_ hrun hcall f stamp rfl
  · rintro tr s t u - hstart - - f stamp rfl
    exact absurd hstart nofun
  · rintro tr s i t clock effect t' u hpre hcall - hnext - - f stamp rfl
    obtain ⟨w, rfl, hw, rfl, hpeek⟩ | ⟨hresult, -⟩ | ⟨hresult, -⟩ := hnext.returned_cases
    rotate_left
    · exact absurd hresult nofun
    · exact absurd hresult nofun
    obtain ⟨f', hf', hkind, hkey⟩ := (localOk_run hpre hcall).1 w rfl
    obtain rfl : f = f' := Option.some.inj hf'
    obtain ⟨watch, before, after, hlookup, htr, hcount⟩ :=
      (watchInv_run hpre).tracked i _ w hcall rfl hw
    -- the counter is back at `since`, so nothing was counted
    have hzero : after.countP (fun e => e.effect.bumps w.kind w.key) = 0 := by
      rw [peekWatch, hlookup, Option.map_some, Option.some.injEq] at hpeek
      omega
    rw [hkind, hkey] at htr hzero ⊢
    refine ⟨before, after, [], by rw [htr]; simp, fun e he => ?_⟩
    simpa using List.countP_eq_zero.1 hzero e he
  · intro tr s ev u i t hpre hcall hinv hstep _ _ f stamp ht
    exact (hinv f stamp ht).snoc ev

/-! ## A bump is seen by every guard registered before it -/

/-- A call is past `generation_for` once its step is in the trace. -/
theorem generated_run {s : State} (hrun : Runs tr s) {i : Nat} {kind : CacheKind}
    {key : String} (hmem : (⟨i, .generation kind key⟩ : Event) ∈ tr) :
    ∃ t, s.calls[i]? = some t ∧ ∀ f, t ≠ .generation f := by
  revert hmem
  refine hrun.invariant (fun tr s => (⟨i, .generation kind key⟩ : Event) ∈ tr →
    ∃ t, s.calls[i]? = some t ∧ ∀ f, t ≠ .generation f) (fun h => absurd h (by simp)) ?_
  intro tr s ev u hpre hinv hstep hmem
  -- no section leads back to `generation_for`
  have hpast : ∀ {t effect t' clock}, Call.Next s.cache clock t effect t' →
      ∀ f, t' ≠ .generation f := by
    intro t effect t' clock hnext f
    cases hnext with
    | overtaken | replaceLost | keepLost | configure => split <;> nofun
    | _ => nofun
  rcases List.mem_append.1 hmem with hmem | hmem
  · obtain ⟨t, hcall, hne⟩ := hinv hmem
    rcases hstep.call_of_call hcall with hsame | ⟨clock, effect, t', hnext, -, -, hcall'⟩
    · exact ⟨t, hsame, hne⟩
    · exact ⟨t', hcall', hpast (Call.next_of_step hnext)⟩
  · simp only [List.mem_singleton] at hmem
    subst hmem
    cases hstep with
    | @act _ t t' _ clock hcall hstep =>
      obtain ⟨hi, -⟩ := List.getElem?_eq_some_iff.1 hcall
      exact ⟨t', List.getElem?_set_self hi, hpast (Call.next_of_step hstep)⟩

/-- One step: the row of a guard that is kept survives, its counter does not fall, and a covering
    bump raises it. -/
theorem since_lt_step {s u : State} {ev : Event} {i j : Nat} {t t' : Call}
    {w : IndexWatch} {scope : Scope} (hpre : Runs tr s) (hcall : s.calls[i]? = some t)
    (hguard : t.guard = some w) (hstep : Step s ev u) (hcall' : u.calls[i]? = some t')
    (hguard' : t'.guard = some w) (hw : w.holdsRef = true) (hcovers : scope.covers w.kind w.key = true)
    (hinv : Precedes tr ⟨i, .generation w.kind w.key⟩ ⟨j, .bump scope⟩ →
      ∃ watch, s.cache.watches.lookup (w.kind, w.key) = some watch ∧ w.since < watch.counter)
    (hbump : Precedes (tr ++ [ev]) ⟨i, .generation w.kind w.key⟩ ⟨j, .bump scope⟩) :
    ∃ watch, u.cache.watches.lookup (w.kind, w.key) = some watch ∧ w.since < watch.counter := by
  obtain ⟨watch, _, _, hlookup, -, hcount⟩ := (watchInv_run hpre).tracked i t w hcall hguard hw
  obtain ⟨watch', _, _, hlookup', -⟩ :=
    (watchInv_run (.snoc hpre hstep)).tracked i t' w hcall' hguard' hw
  have hstepped := Effect.counter_run hlookup (hstep.cache_eq ▸ hlookup')
  refine ⟨watch', hlookup', ?_⟩
  rcases precedes_snoc.1 hbump with hold | ⟨rfl, -⟩
  · obtain ⟨watch₀, hlookup₀, hlt⟩ := hinv hold
    rw [hlookup] at hlookup₀
    obtain rfl := Option.some.inj hlookup₀
    omega
  · simp only [Effect.bumps, hcovers, if_true] at hstepped
    omega

/-- A guard that is still held has counted every covering bump since its registration. -/
theorem since_lt_of_bumped {s : State} (hrun : Runs tr s) {i j : Nat} {t : Call}
    {w : IndexWatch} {scope : Scope} (hcall : s.calls[i]? = some t) (hguard : t.guard = some w)
    (hw : w.holdsRef = true) (hcovers : scope.covers w.kind w.key = true)
    (hbump : Precedes tr ⟨i, .generation w.kind w.key⟩ ⟨j, .bump scope⟩) :
    ∃ watch, s.cache.watches.lookup (w.kind, w.key) = some watch ∧ w.since < watch.counter := by
  refine forall_calls_run (fun tr s i t => ∀ w, t.guard = some w → w.holdsRef = true →
    scope.covers w.kind w.key = true →
    Precedes tr ⟨i, .generation w.kind w.key⟩ ⟨j, .bump scope⟩ →
    ∃ watch, s.cache.watches.lookup (w.kind, w.key) = some watch ∧ w.since < watch.counter)
    ?_ ?_ ?_ hrun hcall w hguard hw hcovers hbump
  · intro tr s t u hpre hstart _ _ w hg
    rw [Call.guard_of_isStart hstart] at hg
    exact absurd hg nofun
  · intro tr s i t clock effect t' u hpre hcall hinv hnext hstep hcall' w hg hw hcovers hbump
    rcases hnext.guard_cases with ⟨f, rfl, rfl, -⟩ | ⟨_, _, _, _, hnone⟩ | ⟨_, _, hsame⟩
    · -- the guard is new, so no bump can have come after it
      rcases precedes_snoc.1 hbump with hold | ⟨heq, -⟩
      · obtain ⟨t₀, hcall₀, hne⟩ := generated_run hpre hold.mem_left
        rw [hcall] at hcall₀
        exact absurd (Option.some.inj hcall₀).symm (hne f)
      · exact absurd (congrArg Event.effect heq) nofun
    · rw [hnone] at hg
      exact absurd hg nofun
    · exact since_lt_step hpre hcall (hsame w hg) hstep hcall' hg hw hcovers
        (hinv w (hsame w hg) hw hcovers) hbump
  · intro tr s ev u i t hpre hcall hinv hstep _ hcall' w hg hw hcovers hbump
    exact since_lt_step hpre hcall hg hstep hcall' hg hw hcovers (hinv w hg hw hcovers) hbump

/-! ## What an invalidation or a patch does to the entry of a store it overtook -/

/-- An invalidation drops every key it covers from a bucket it visits. -/
theorem Invalidation.get_op (inv : Invalidation) (b : Bucket) {kind : CacheKind} {key : String}
    (h : inv.scope.covers kind key = true) : (b.apply inv.op).get key = none := by
  simp only [Scope.covers, Bool.and_eq_true] at h
  cases inv with
  | invalidate k key' =>
    obtain rfl : key = key' := by simpa [Invalidation.scope, KeyMatch.matches] using h.2
    simp [Invalidation.op, Bucket.apply, Bucket.get_remove]
  | invalidatePrefix k start =>
    have hstart : key.startsWith start = true := h.2
    simp [Invalidation.op, Bucket.apply, Bucket.get_retain, hstart]
  | invalidateTenant tenantId =>
    have hstart : key.startsWith (tenantId ++ "|") = true := h.2
    simp [Invalidation.op, Bucket.apply, Bucket.get_retain, hstart]
  | clearKind k | clear => rfl

/-- An invalidation visits the bucket of every key it covers. -/
theorem Invalidation.mem_kinds (inv : Invalidation) {kind : CacheKind} {key : String}
    (h : inv.scope.covers kind key = true) : kind ∈ inv.kinds := by
  simp only [Scope.covers, Bool.and_eq_true] at h
  cases inv with
  | invalidate k _ | invalidatePrefix k _ | clearKind k =>
    obtain rfl : k = kind := by simpa [Invalidation.scope] using h.1
    simp [Invalidation.kinds]
  | invalidateTenant _ | clear => cases kind <;> simp [Invalidation.kinds, CacheKind.all]

/-- The patch a call runs, once it has bumped and before it has returned. -/
def Call.patching : Call → Option PatchCall
  | .patchLimits p | .patchRead p _ _ | .patchReplace p _ _ _ _ | .patchKeep p _ _ _
  | .patchRemove p => some p
  | _ => none

/-- The call has bumped the key of `f` and has yet to remove or patch what is under it. -/
def Call.Removing (f : Fetch) (t : Call) : Prop :=
  (∃ inv kinds, t = .remove inv kinds ∧ f.kind ∈ kinds ∧ inv.scope.covers f.kind f.key = true) ∨
  (∃ p, t.patching = some p ∧ p.kind = f.kind ∧ p.key = f.key)

/-- The next section of `t` lands the patch `p` on the entry with `stamp`: it swaps in what the patch
    made of that entry's own value, or keeps the entry because the patch said so about it. -/
def Call.LandsOn (c : Cache) (t : Call) (p : PatchCall) (stamp : Nat) : Prop :=
  ∃ e read, (c.buckets p.kind).get p.key = some e ∧ e.stamp = stamp ∧ e.typed = some read ∧
    ((∃ ttl attempts next, t = .patchReplace p ttl attempts read next ∧
      p.patch read = .replace next) ∨
    (∃ ttl attempts, t = .patchKeep p ttl attempts read ∧ p.patch read = .keep))

theorem replaceTypedIfSame_landed {b : Bucket} {key : String} {read next : Arc}
    (h : (b.replaceTypedIfSame key read next).2 = true) :
    ∃ e, b.get key = some e ∧ e.typed = some read := by
  unfold Bucket.replaceTypedIfSame at h
  split at h
  · next e he =>
    split at h
    · next htyped => exact ⟨e, he, htyped⟩
    · exact absurd h nofun
  · exact absurd h nofun

theorem holdsTyped_landed {b : Bucket} {key : String} {read : Arc}
    (h : b.holdsTyped key read = true) : ∃ e, b.get key = some e ∧ e.typed = some read := by
  unfold Bucket.holdsTyped at h
  split at h
  · next e he => exact ⟨e, he, by simpa using h⟩
  · exact absurd h nofun

/-- A patch that lands, lands on the store's entry, or that entry is gone. -/
theorem Call.landsOn_or_absent {c : Cache} {t : Call} {p : PatchCall} {stamp : Nat} {read : Arc}
    (hissued : Issued (c.buckets p.kind) stamp p.key)
    (hheld : ∃ e, (c.buckets p.kind).get p.key = some e ∧ e.typed = some read)
    (hlands : (∃ ttl attempts next, t = .patchReplace p ttl attempts read next ∧
        p.patch read = .replace next) ∨
      (∃ ttl attempts, t = .patchKeep p ttl attempts read ∧ p.patch read = .keep)) :
    t.LandsOn c p stamp ∨ Absent (c.buckets p.kind) stamp := by
  obtain ⟨e, he, htyped⟩ := hheld
  by_cases hst : e.stamp = stamp
  · exact Or.inl ⟨e, read, he, hst, htyped, hlands⟩
  · refine Or.inr (hissued.absent (fun e' he' hst' => hst ?_))
    rw [he] at he'
    rwa [Option.some.inj he']

/-- A call that has yet to remove or patch a store's entry still has to, or has just removed it, or
    has just landed its patch on it. -/
theorem Call.Removing.next {c : Cache} {clock : Clock} {t t' : Call} {effect : Effect}
    {stamp : Nat} (h : t.Removing f) (hok : t.LocalOk) (hc : (c.buckets f.kind).Consistent)
    (hissued : Issued (c.buckets f.kind) stamp f.key) (hnext : Call.Next c clock t effect t') :
    t'.Removing f ∨ Absent ((effect.run c).buckets f.kind) stamp ∨
      ∃ p, t' = .patched p true ∧ p.kind = f.kind ∧ p.key = f.key ∧ t.LandsOn c p stamp := by
  have hkept : Absent (c.buckets f.kind) stamp →
      Absent ((effect.run c).buckets f.kind) stamp := by
    intro habsent
    rw [Effect.buckets_run]
    exact habsent.applyAll hc hissued.1 _
  rcases h with ⟨inv, kinds, rfl, hmem, hcovers⟩ | ⟨p, hp, hkind, hkey⟩
  · cases hnext with
    | invalidated => exact absurd hmem (by simp)
    | remove _ kind kinds =>
      by_cases hlater : f.kind ∈ kinds
      · exact Or.inl (Or.inl ⟨inv, kinds, rfl, hlater, hcovers⟩)
      · obtain rfl : f.kind = kind := by simpa [hlater] using hmem
        refine Or.inr (Or.inl ?_)
        rw [Effect.buckets_run]
        refine (hissued.applyAll hc _).absent (fun e he => ?_)
        simp only [Effect.opsOn, if_true, Bucket.applyAll, List.foldl_cons, List.foldl_nil,
          Invalidation.get_op inv _ hcovers] at he
        exact absurd he (by simp)
  · have still : ∀ {u : Call}, u.patching = some p → u.Removing f :=
      fun hu => Or.inr ⟨p, hu, hkind, hkey⟩
    cases hnext with
    | patchReading | patchDisabled | patchReplacing | patchKeeping | patchGivesUp =>
      exact Or.inl (still hp)
    | replaceLost | keepLost => exact Or.inl (by split <;> exact still hp)
    | @replaced p' read next ttl attempts hlanded =>
      obtain rfl : p' = p := Option.some.inj hp
      rw [← hkind, ← hkey] at hissued
      rw [← hkind] at hkept ⊢
      rcases Call.landsOn_or_absent hissued (replaceTypedIfSame_landed hlanded)
        (Or.inl ⟨ttl, attempts, next, rfl, hok.2.2.1 _ _ _ _ _ rfl⟩) with hlands | habsent
      · exact Or.inr (Or.inr ⟨p', rfl, rfl, hkey, hlands⟩)
      · exact Or.inr (Or.inl (hkept habsent))
    | @kept p' read ttl attempts hlanded =>
      obtain rfl : p' = p := Option.some.inj hp
      rw [← hkind, ← hkey] at hissued
      rw [← hkind] at hkept ⊢
      rcases Call.landsOn_or_absent hissued (holdsTyped_landed hlanded)
        (Or.inr ⟨ttl, attempts, rfl, hok.2.2.2.1 _ _ _ _ rfl⟩) with hlands | habsent
      · exact Or.inr (Or.inr ⟨p', rfl, rfl, hkey, hlands⟩)
      · exact Or.inr (Or.inl (hkept habsent))
    | patchRemove p' =>
      obtain rfl : p' = p := Option.some.inj hp
      refine Or.inr (Or.inl ?_)
      rw [Effect.buckets_run]
      refine (hissued.applyAll hc _).absent (fun e he => ?_)
      simp only [Effect.opsOn, hkind, if_true, Bucket.applyAll, List.foldl_cons, List.foldl_nil,
        Bucket.apply, Bucket.get_remove, hkey] at he
      exact absurd he (by simp)
    | _ => exact absurd hp (by simp [Call.patching])

/-! ## Results -/

/-- At some step of the run the patch call `j` landed on the entry with `stamp`. -/
def Landed (tr : List Event) (s : State) (j : Nat) (p : PatchCall) (stamp : Nat) : Prop :=
  Happened Step State.init tr s (fun s₁ ev u => ev.call = j ∧ u.calls[j]? = some (.patched p true) ∧
    ∃ t, s₁.calls[j]? = some t ∧ t.LandsOn s₁.cache p stamp)

/-- What is left of a store's entry once call `j` has bumped its key after the store registered. -/
def Settled (tr : List Event) (s : State) (f : Fetch) (stamp j : Nat) : Prop :=
  Absent (s.cache.buckets f.kind) stamp ∨
  (∃ t, s.calls[j]? = some t ∧ t.Removing f) ∨
  ∃ p, p.kind = f.kind ∧ p.key = f.key ∧ s.calls[j]? = some (.patched p true) ∧
    Landed tr s j p stamp

/-- A settled entry stays settled. -/
theorem Settled.snoc {s u : State} {ev : Event} {stamp j : Nat}
    (h : Settled tr s f stamp j) (hrun : Runs tr s) (hstep : Step s ev u)
    (hissued : Issued (s.cache.buckets f.kind) stamp f.key) :
    Settled (tr ++ [ev]) u f stamp j := by
  have hc := consistent_run hrun f.kind
  rcases h with habsent | ⟨t, hcall, hremoving⟩ | ⟨p, hkind, hkey, hcall, hlanded⟩
  · refine Or.inl ?_
    rw [hstep.buckets]
    exact habsent.applyAll hc hissued.1 _
  · rcases hstep.call_of_call hcall with hsame | ⟨clock, effect, t', hstep', rfl, hu, hcall'⟩
    · exact Or.inr (Or.inl ⟨t, hsame, hremoving⟩)
    · rcases hremoving.next (localOk_run hrun hcall) hc hissued (Call.next_of_step hstep') with
        hstill | hgone | ⟨p, rfl, hkind, hkey, hlands⟩
      · exact Or.inr (Or.inl ⟨t', hcall', hstill⟩)
      · rw [hstep.cache_eq.symm] at hgone
        exact Or.inl hgone
      · exact Or.inr (Or.inr ⟨p, hkind, hkey, hcall',
          .last hrun hstep ⟨rfl, hcall', t, hcall, hlands⟩⟩)
  · rcases hstep.call_of_call hcall with hsame | ⟨clock, effect, t', hstep', -⟩
    · exact Or.inr (Or.inr ⟨p, hkind, hkey, hsame, hlanded.snoc hstep⟩)
    · exact absurd hstep' nofun

/-- The call that bumps a key has yet to remove what is under it. -/
theorem Call.Next.removing_of_bump {c : Cache} {clock : Clock} {t t' : Call} {scope : Scope}
    (h : Call.Next c clock t (.bump scope) t')
    (hcovers : scope.covers f.kind f.key = true) : t'.Removing f := by
  generalize heff : Effect.bump scope = effect at h
  cases h with
  | bump inv =>
    obtain rfl := Effect.bump.inj heff
    exact Or.inl ⟨inv, inv.kinds, rfl, inv.mem_kinds hcovers, hcovers⟩
  | patchBump p =>
    obtain rfl := Effect.bump.inj heff
    simp only [PatchCall.scope, Scope.covers, KeyMatch.matches, Bool.and_eq_true, beq_iff_eq] at hcovers
    exact Or.inr ⟨p, rfl, hcovers.1, hcovers.2.symm⟩
  | overtaken | dropped => split at heff <;> exact absurd heff nofun
  | _ => exact absurd heff nofun

/-- A store that returned is settled by every call that bumped its key after it registered. -/
theorem settled_run {s : State} (hrun : Runs tr s) {i j : Nat} {stamp : Nat} {result : Bool} {scope : Scope}
    (hcall : s.calls[i]? = some (.returned f (some stamp) result))
    (hbump : Precedes tr ⟨i, .generation f.kind f.key⟩ ⟨j, .bump scope⟩)
    (hcovers : scope.covers f.kind f.key = true) : Settled tr s f stamp j := by
  have hall : ∀ i f stamp result, s.calls[i]? = some (.returned f (some stamp) result) →
      Precedes tr ⟨i, .generation f.kind f.key⟩ ⟨j, .bump scope⟩ →
      scope.covers f.kind f.key = true → Settled tr s f stamp j := by
    refine hrun.invariant (fun tr s => ∀ i f stamp result,
      s.calls[i]? = some (.returned f (some stamp) result) →
      Precedes tr ⟨i, .generation f.kind f.key⟩ ⟨j, .bump scope⟩ →
      scope.covers f.kind f.key = true → Settled tr s f stamp j) ?_ ?_
    · exact fun i f stamp result hcall => absurd hcall (by simp [State.init])
    · intro tr s ev u hpre hinv hstep i f stamp result hcall hbump hcovers
      rcases hstep.origin hcall with ⟨hne, hcall₀⟩ | ⟨-, -, hstart, -⟩ |
        ⟨t, clock, effect, hcall₀, hnext, rfl, hcache⟩
      · -- the store had returned before this step
        have hissued := issued_run hpre hcall₀ rfl rfl
        rcases precedes_snoc.1 hbump with hold | ⟨rfl, -⟩
        · exact (hinv i f stamp result hcall₀ hold hcovers).snoc hpre hstep hissued
        · cases hstep with
          | @act _ t t' _ clock hcall' hstep =>
            obtain ⟨hj, -⟩ := List.getElem?_eq_some_iff.1 hcall'
            exact Or.inr (Or.inl ⟨t', List.getElem?_set_self hj,
              (Call.next_of_step hstep).removing_of_bump hcovers⟩)
      · exact absurd hstart (by simp [Call.isStart])
      · -- the store returns with this step
        rcases hnext.returned_cases with ⟨w, rfl, hw, rfl, hpeek⟩ | ⟨-, hnone⟩ | ⟨-, st, hst, rfl, rfl⟩
        · -- with success: then its guard would have counted the bump
          obtain ⟨f', hf', hkind, hkey⟩ := (localOk_run hpre hcall₀).1 w rfl
          obtain rfl : f = f' := Option.some.inj hf'
          rcases precedes_snoc.1 hbump with hold | ⟨heq, -⟩
          · rw [← hkind, ← hkey] at hold hcovers
            obtain ⟨watch, hlookup, hlt⟩ := since_lt_of_bumped hpre hcall₀ rfl hw hcovers hold
            rw [peekWatch, hlookup, Option.map_some, Option.some.injEq] at hpeek
            omega
          · exact absurd (congrArg Event.effect heq) (by simp)
        · exact absurd hnone (by simp)
        · -- from its rollback, which removed what it had written
          obtain rfl := Option.some.inj hst
          have hissued := issued_run hpre hcall₀ rfl rfl
          refine Or.inl ?_
          rw [hstep.buckets]
          refine (hissued.applyAll (consistent_run hpre f.kind) _).absent (fun e he hst => ?_)
          simp only [Effect.opsOn, if_true, Bucket.applyAll, List.foldl_cons, List.foldl_nil,
            Bucket.apply, Bucket.get_removeIfStamp] at he
          exact absurd hst (by simpa using (Option.filter_eq_some_iff.1 he).2)
  exact hall i f stamp result hcall hbump hcovers

/-- **A guarded store never leaves a pre-mutation entry behind.** In every interleaving: a store that
    returned `true` saw no covering bump between its registration and its release; once an
    invalidation that bumped its key after its registration has finished, the entry it wrote is not
    in the bucket; and once a patch that bumped its key after its registration has finished, the
    entry is not in the bucket either, or the patch was landed on that very entry. -/
theorem guarded_store_safe {tr : List Event} {s : State} (hrun : Runs tr s) {i : Nat} {f : Fetch}
    {stamp : Option Nat} {result : Bool} (hcall : s.calls[i]? = some (.returned f stamp result)) :
    (result = true → ∃ before between after,
      tr = before ++ ⟨i, .generation f.kind f.key⟩ ::
        (between ++ ⟨i, .release f.kind f.key⟩ :: after) ∧
      ∀ e ∈ between, e.effect.bumps f.kind f.key = false) ∧
    (∀ st j inv, stamp = some st → s.calls[j]? = some (.invalidated inv) →
      inv.scope.covers f.kind f.key = true →
      Precedes tr ⟨i, .generation f.kind f.key⟩ ⟨j, .bump inv.scope⟩ →
      Absent (s.cache.buckets f.kind) st) ∧
    (∀ st j p landed, stamp = some st → s.calls[j]? = some (.patched p landed) →
      p.kind = f.kind → p.key = f.key →
      Precedes tr ⟨i, .generation f.kind f.key⟩ ⟨j, .bump p.scope⟩ →
      Absent (s.cache.buckets f.kind) st ∨ (landed = true ∧ Landed tr s j p st)) := by
  refine ⟨?_, ?_, ?_⟩
  · rintro rfl
    exact unbumped_run hrun hcall
  · rintro st j inv rfl hinv hcovers hbump
    rcases settled_run hrun hcall hbump hcovers with habsent | ⟨t, ht, hremoving⟩ | ⟨p, -, -, hp, -⟩
    · exact habsent
    · rw [hinv] at ht
      obtain rfl := Option.some.inj ht
      rcases hremoving with ⟨inv', kinds, h, -⟩ | ⟨p, h, -⟩ <;> exact absurd h nofun
    · rw [hinv] at hp
      exact absurd hp nofun
  · rintro st j p landed rfl hpatched hkind hkey hbump
    have hcovers : p.scope.covers f.kind f.key = true := by
      simp [PatchCall.scope, Scope.covers, KeyMatch.matches, hkind, hkey]
    rcases settled_run hrun hcall hbump hcovers with habsent | ⟨t, ht, hremoving⟩ |
      ⟨p', -, -, hp, hlanded⟩
    · exact Or.inl habsent
    · rw [hpatched] at ht
      obtain rfl := Option.some.inj ht
      rcases hremoving with ⟨inv', kinds, h, -⟩ | ⟨p, h, -⟩ <;> exact absurd h nofun
    · rw [hpatched] at hp
      simp only [Option.some.injEq, Call.patched.injEq] at hp
      obtain ⟨rfl, rfl⟩ := hp
      exact Or.inr ⟨rfl, hlanded⟩

/-- An invalidation bumps after the insert and before the release, and removes before the store's
    rollback: the entry with stamp 1 is gone, and so is it when the store runs undisturbed and
    reports success. -/
theorem guarded_store_safe_in_a_race :
    (∃ tr s, Runs tr s ∧ Absent (s.cache.buckets .lists) 1 ∧
      s.calls[0]? = some (.returned ⟨.lists, "t|sp_index", some (.typed 0 7 true)⟩ (some 1) false)) ∧
    ∃ tr s, Runs tr s ∧ Unbumped tr 0 ⟨.lists, "t|sp_index", some (.typed 0 7 true)⟩ ∧
      s.calls[0]? = some (.returned ⟨.lists, "t|sp_index", some (.typed 0 7 true)⟩ (some 1) true) := by
  constructor
  · have hrun : Runs _ _ := State.run_of_playAll (rfl : State.init.playAll
      [.call (.generation ⟨.lists, "t|sp_index", some (.typed 0 7 true)⟩),
        .call (.bump (.invalidate .lists "t|sp_index")),
        .act 0 (.still 0), .act 0 (.still 1), .act 0 (.still 2), .act 0 (.still 3),
        .act 0 (.still 4), .act 1 (.still 5), .act 0 (.still 6), .act 1 (.still 7),
        .act 1 (.still 8), .act 0 (.still 9)] = _)
    refine ⟨_, _, hrun, ?_, rfl⟩
    exact (guarded_store_safe hrun rfl).2.1 1 1 (.invalidate .lists "t|sp_index") rfl rfl rfl
      ⟨[_, _], [_, _, _, _], [_, _, _, _], rfl⟩
  · have hrun : Runs _ _ := State.run_of_playAll (rfl : State.init.playAll
      [.call (.generation ⟨.lists, "t|sp_index", some (.typed 0 7 true)⟩),
        .act 0 (.still 0), .act 0 (.still 1), .act 0 (.still 2), .act 0 (.still 3),
        .act 0 (.still 4), .act 0 (.still 5)] = _)
    exact ⟨_, _, hrun, (guarded_store_safe hrun rfl).1 rfl, rfl⟩

end Cache
