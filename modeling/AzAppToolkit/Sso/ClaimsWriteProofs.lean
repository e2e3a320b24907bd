import AzAppToolkit.Sso.ClaimsWrite

set_option autoImplicit false

/-! # Saving the claims of an application: what it leaves

Every plan keeps the other principals. The one delete of a run is of a policy in use exactly if an assign
of that policy took effect under an error. -/

namespace SavingClaims

open Prog
open Graph (GraphError)

/-! ## What the writes do to the others -/

variable {failed : Bool} {effect : Tenant → Prop}

section Others

variable {t₀ t t' : Tenant} {spId id definition : Text}

theorem OthersKept.refl (t : Tenant) : OthersKept t spId t := fun _ _ => ⟨rfl, fun _ _ => rfl⟩

theorem OthersKept.created (h : OthersKept t₀ spId t) (hcreated : Created t definition id t') :
    OthersKept t₀ spId t' := by
  obtain ⟨hfresh, hassigned, hdefinitions⟩ := hcreated
  intro p hp
  obtain ⟨hsame, hkept⟩ := h p hp
  refine ⟨by rw [hassigned, hsame], fun used hused => ?_⟩
  have hne : used ≠ id := by
    rintro rfl
    have hexists := t.exist p used (hsame.trans hused)
    rw [hfresh] at hexists
    exact Bool.noConfusion hexists
  rw [hdefinitions, Function.update_of_ne hne]
  exact hkept used hused

theorem OthersKept.assigned (h : OthersKept t₀ spId t) (hassigned : Assigned t spId id t') :
    OthersKept t₀ spId t' := by
  obtain ⟨-, hdefinitions, hassigned⟩ := hassigned
  intro p hp
  obtain ⟨hsame, hkept⟩ := h p hp
  exact ⟨by rw [hassigned, Function.update_of_ne hp, hsame], hdefinitions ▸ hkept⟩

theorem OthersKept.removed (h : OthersKept t₀ spId t) (hremoved : Removed t spId id t') :
    OthersKept t₀ spId t' := by
  obtain ⟨-, hdefinitions, hassigned⟩ := hremoved
  intro p hp
  obtain ⟨hsame, hkept⟩ := h p hp
  exact ⟨by rw [hassigned, Function.update_of_ne hp, hsame], hdefinitions ▸ hkept⟩

/-- No other principal uses the policy. -/
def Unused (t : Tenant) (spId id : Text) : Prop := ∀ p, p ≠ spId → t.assigned p ≠ some id

theorem OthersKept.updated (h : OthersKept t₀ spId t) (hunused : Unused t spId id)
    (hupdated : Updated t id definition t') : OthersKept t₀ spId t' := by
  obtain ⟨hassigned, hdefinitions⟩ := hupdated
  intro p hp
  obtain ⟨hsame, hkept⟩ := h p hp
  refine ⟨by rw [hassigned, hsame], fun used hused => ?_⟩
  have hne : used ≠ id := fun heq => hunused p hp (heq ▸ hsame.trans hused)
  rw [hdefinitions, Function.update_of_ne hne]
  exact hkept used hused

theorem OthersKept.deleted (h : OthersKept t₀ spId t) (hunused : Unused t spId id)
    (hdeleted : Deleted t id t') : OthersKept t₀ spId t' := by
  obtain ⟨hdefinitions, hassigned⟩ := hdeleted
  intro p hp
  obtain ⟨hsame, hkept⟩ := h p hp
  have hp' : t'.assigned p = t₀.assigned p := by
    rw [hassigned]
    exact (if_neg (hunused p hp)).trans hsame
  refine ⟨hp', fun used hused => ?_⟩
  have hne : used ≠ id := fun heq => hunused p hp (heq ▸ hsame.trans hused)
  rw [hdefinitions, Function.update_of_ne hne]
  exact hkept used hused

/-- What holds of a write that took no effect and of one that did. -/
theorem Writes.elim {s s' : Moment} {c : Call}
    {P : Tenant → Prop} (hwrites : Writes s c failed effect s') (hkeep : P s.tenant)
    (heffect : ∀ t, effect t → P t) : P s'.tenant := by
  obtain ⟨landed, -, -, hdone, hnot⟩ := hwrites
  cases landed with
  | true => exact heffect _ (hdone rfl)
  | false => exact hnot rfl ▸ hkeep

end Others

/-! ## The log -/

variable {id : Text}

section Log

variable {spId : Text} {log : List Entry} {s s' : Moment}

/-- Nothing was deleted yet. -/
def NoDelete (log : List Entry) : Prop := ∀ e ∈ log, ∀ id, e.call ≠ .deletePolicy id

theorem NoDelete.iff (h : NoDelete log) : DeletedInUse log ↔ Misled spId log := by
  constructor
  · rintro ⟨e, he, id, hcall, -⟩
    exact absurd hcall (h e he id)
  · rintro ⟨-, -, e, he, id, -, -, -, hcall, -⟩
    exact absurd hcall (h e he id)

theorem NoDelete.snoc (h : NoDelete log) {e : Entry} (he : ∀ id, e.call ≠ .deletePolicy id) :
    NoDelete (log ++ [e]) := by
  intro e' he'
  rcases List.mem_append.1 he' with he' | he'
  · exact h e' he'
  · exact List.mem_singleton.1 he' ▸ he

/-- The first delete: the policy is in use exactly if an assign of it took effect under an error. -/
theorem NoDelete.delete (h : NoDelete s.log) (hused : (∃ p, s.tenant.assigned p = some id) ↔
      ∃ e ∈ s.log, e.call = .assignPolicy spId id ∧ e.failed = true ∧ e.landed = true)
    (hwrites : Writes s (.deletePolicy id) failed effect s') :
    DeletedInUse s'.log ↔ Misled spId s'.log := by
  obtain ⟨landed, hlog, -⟩ := hwrites
  rw [hlog]
  constructor
  · rintro ⟨e, he, id', hcall, hlanded, hp⟩
    rcases List.mem_append.1 he with he | he
    · exact absurd hcall (h e he id')
    · obtain rfl := List.mem_singleton.1 he
      obtain rfl : id = id' := Call.deletePolicy.inj hcall
      obtain ⟨e, he, hassign, hfailed, hdone⟩ := hused.1 hp
      exact ⟨e, List.mem_append_left _ he, _, List.mem_append_right _ (List.mem_singleton_self _), id,
        hassign, hfailed, hdone, rfl, hlanded⟩
  · rintro ⟨e, he, e', he', id', hassign, hfailed, hdone, hcall, hlanded⟩
    rcases List.mem_append.1 he' with he' | he'
    · exact absurd hcall (h e' he' id')
    · obtain rfl := List.mem_singleton.1 he'
      obtain rfl : id = id' := Call.deletePolicy.inj hcall
      rcases List.mem_append.1 he with he | he
      · exact ⟨_, List.mem_append_right _ (List.mem_singleton_self _), id, rfl, hlanded,
          hused.2 ⟨e, he, hassign, hfailed, hdone⟩⟩
      · obtain rfl := List.mem_singleton.1 he
        exact Call.noConfusion hassign

/-- Nobody uses the policy, and it was never to be assigned. -/
structure Idle (spId id : Text) (s : Moment) : Prop where
  unused : ∀ p, s.tenant.assigned p ≠ some id
  unassigned : ∀ e ∈ s.log, e.call ≠ .assignPolicy spId id

/-- The policy is in use exactly if an assign of it took effect under an error. -/
def Traced (spId id : Text) (s : Moment) : Prop :=
  (∃ p, s.tenant.assigned p = some id) ↔
    ∃ e ∈ s.log, e.call = .assignPolicy spId id ∧ e.failed = true ∧ e.landed = true

theorem Idle.traced (h : Idle spId id s) : Traced spId id s := by
  constructor
  · rintro ⟨p, hp⟩
    exact absurd hp (h.unused p)
  · rintro ⟨e, he, hcall, -⟩
    exact absurd hcall (h.unassigned e he)

theorem Tenant.unused_of_fresh {t : Tenant} (h : t.definitions id = none) (p : Text) :
    t.assigned p ≠ some id := by
  intro hp
  have hexists := t.exist p id hp
  rw [h] at hexists
  exact Bool.noConfusion hexists

theorem unassigned_snoc (h : ∀ e ∈ log, e.call ≠ .assignPolicy spId id) {e : Entry}
    (he : e.call ≠ .assignPolicy spId id) :
    ∀ e' ∈ log ++ [e], e'.call ≠ .assignPolicy spId id := by
  intro e' he'
  rcases List.mem_append.1 he' with he' | he'
  · exact h e' he'
  · exact List.mem_singleton.1 he' ▸ he

theorem Idle.removed {id policyId : Text} (h : Idle spId id s)
    (hwrites : Writes s (.removePolicy spId policyId) failed (Removed s.tenant spId policyId) s') :
    Idle spId id s' := by
  refine ⟨?_, ?_⟩
  · refine hwrites.elim (P := fun t => ∀ p, t.assigned p ≠ some id) h.unused ?_
    rintro t ⟨-, -, hassigned⟩ p
    rw [hassigned, Function.update_apply]
    split
    · exact (Option.some_ne_none id).symm
    · exact h.unused p
  · obtain ⟨landed, hlog, -⟩ := hwrites
    rw [hlog]
    exact unassigned_snoc h.unassigned Call.noConfusion

theorem Idle.assigned (h : Idle spId id s)
    (hwrites : Writes s (.assignPolicy spId id) true (Assigned s.tenant spId id) s') :
    Traced spId id s' := by
  obtain ⟨landed, hlog, -, hdone, hnot⟩ := hwrites
  unfold Traced
  rw [hlog]
  cases landed with
  | true =>
    obtain ⟨-, -, hassigned⟩ := hdone rfl
    have hused : s'.tenant.assigned spId = some id := by
      rw [hassigned, Function.update_self]
    exact iff_of_true ⟨spId, hused⟩
      ⟨_, List.mem_append_right _ (List.mem_singleton_self _), rfl, rfl, rfl⟩
  | false =>
    rw [hnot rfl]
    constructor
    · rintro ⟨p, hp⟩
      exact absurd hp (h.unused p)
    · rintro ⟨e, he, hcall, -, hlanded⟩
      rcases List.mem_append.1 he with he | he
      · exact absurd hcall (h.unassigned e he)
      · obtain rfl := List.mem_singleton.1 he
        exact Bool.noConfusion hlanded

/-- The assign of another policy: it takes effect only where the principal has none. -/
theorem Traced.reassigned {id otherId : Text} (h : Traced spId id s) (hne : otherId ≠ id)
    (hwrites : Writes s (.assignPolicy spId otherId) failed (Assigned s.tenant spId otherId) s') :
    Traced spId id s' := by
  have hused : (∃ p, s'.tenant.assigned p = some id) ↔ ∃ p, s.tenant.assigned p = some id := by
    refine hwrites.elim (P := fun t => (∃ p, t.assigned p = some id) ↔
      ∃ p, s.tenant.assigned p = some id) Iff.rfl ?_
    rintro t ⟨hnone, -, hassigned⟩
    refine exists_congr (fun p => ?_)
    rw [hassigned, Function.update_apply]
    split
    · next hp => simp [hp, hnone, hne]
    · exact Iff.rfl
  obtain ⟨landed, hlog, -⟩ := hwrites
  have hcall : Call.assignPolicy spId otherId ≠ .assignPolicy spId id := by
    intro heq
    exact hne (Call.assignPolicy.inj heq).2
  unfold Traced at h ⊢
  rw [hused, h, hlog]
  constructor
  · rintro ⟨e, he, h⟩
    exact ⟨e, List.mem_append_left _ he, h⟩
  · rintro ⟨e, he, h⟩
    rcases List.mem_append.1 he with he | he
    · exact ⟨e, he, h⟩
    · obtain rfl := List.mem_singleton.1 he
      exact absurd h.1 hcall

end Log

/-! ## Every moment of a save -/

variable {r : Except GraphError Unit}

section Stages

variable {t₀ : Tenant} {spId : Text} {s s' : Moment}

/-- What holds whenever a call is made. -/
structure Good (t₀ : Tenant) (spId : Text) (s : Moment) : Prop where
  others : OthersKept t₀ spId s.tenant
  deletes : DeletedInUse s.log ↔ Misled spId s.log

/-- Before the first delete. -/
structure Stage (t₀ : Tenant) (spId : Text) (s : Moment) : Prop where
  others : OthersKept t₀ spId s.tenant
  deletes : NoDelete s.log

theorem Stage.good (h : Stage t₀ spId s) : Good t₀ spId s := ⟨h.others, h.deletes.iff⟩

theorem Stage.start (t₀ : Tenant) (spId : Text) : Stage t₀ spId ⟨t₀, []⟩ :=
  ⟨OthersKept.refl t₀, fun _ he => absurd he List.not_mem_nil⟩

/-- A write other than a delete. -/
theorem Stage.next {c : Call} (h : Stage t₀ spId s)
    (hwrites : Writes s c failed effect s') (hc : ∀ id, c ≠ .deletePolicy id)
    (heffect : ∀ t, effect t → OthersKept t₀ spId t) : Stage t₀ spId s' := by
  refine ⟨hwrites.elim h.others heffect, ?_⟩
  obtain ⟨landed, hlog, -⟩ := hwrites
  rw [hlog]
  exact h.deletes.snoc hc

theorem Stage.created {definition name : Text} {r : Except GraphError Text} (h : Stage t₀ spId s)
    (hstep : world s (.createPolicy definition name) r s') : Stage t₀ spId s' := by
  have hwrites : Writes s (.createPolicy definition name) (isError r)
      (fun t => ∃ id, (∀ made, r = .ok made → made = id) ∧ Created s.tenant definition id t) s' := hstep
  refine h.next hwrites (fun _ => Call.noConfusion) ?_
  rintro t ⟨id, -, hcreated⟩
  exact h.others.created hcreated

theorem Stage.assigned (h : Stage t₀ spId s)
    (hstep : world s (.assignPolicy spId id) r s') : Stage t₀ spId s' :=
  h.next hstep (fun _ => Call.noConfusion) (fun _ hassigned => h.others.assigned hassigned)

theorem Stage.removed (h : Stage t₀ spId s)
    (hstep : world s (.removePolicy spId id) r s') : Stage t₀ spId s' :=
  h.next hstep (fun _ => Call.noConfusion) (fun _ hremoved => h.others.removed hremoved)

theorem Stage.updated {id definition : Text} (h : Stage t₀ spId s)
    (hunused : Unused s.tenant spId id) (hstep : world s (.updatePolicy id definition) r s') :
    Stage t₀ spId s' :=
  h.next hstep (fun _ => Call.noConfusion) (fun _ hupdated => h.others.updated hunused hupdated)

/-- The delete, the last write of a run that makes one. -/
theorem Stage.deleted (h : Stage t₀ spId s) (hunused : Unused s.tenant spId id) (htraced : Traced spId id s)
    (hstep : world s (.deletePolicy id) r s') : Good t₀ spId s' :=
  ⟨hstep.elim h.others (fun _ hdeleted => h.others.deleted hunused hdeleted),
    h.deletes.delete htraced hstep⟩

/-- No other principal gains a policy that none of them had. -/
theorem OthersKept.unused {t : Tenant} (h : OthersKept t₀ spId t)
    (hunused : Unused t₀ spId id) : Unused t spId id :=
  fun p hp hused => hunused p hp ((h p hp).1.symm.trans hused)

end Stages

/-! ## The principal itself -/

section Own

variable {t₀ t : Tenant} {spId : Text} {policy : ClaimsPolicy} {s s' : Moment} {c : Call}
  {effect : Tenant → Prop} {failed : Bool}

theorem Writes.landed (hwrites : Writes s c false effect s') : effect s'.tenant := by
  obtain ⟨landed, -, hlanded, hdone, -⟩ := hwrites
  exact hdone (hlanded rfl)

/-- The writes so far, and none that failed took effect. -/
theorem Writes.honest (hwrites : Writes s c failed effect s') (hhonest : Honest s'.log) :
    Honest s.log ∧ (failed = true → s'.tenant = s.tenant) := by
  obtain ⟨landed, hlog, -, -, hnot⟩ := hwrites
  rw [hlog] at hhonest
  refine ⟨fun e he => hhonest e (List.mem_append_left _ he), fun hfailed => hnot ?_⟩
  exact hhonest _ (List.mem_append_right _ (List.mem_singleton_self _)) hfailed

theorem Untouched.refl (t : Tenant) : Untouched t spId t := ⟨rfl, fun _ _ => rfl⟩

theorem Untouched.created {definition id : Text} (h : Created t₀ definition id t) : Untouched t₀ spId t := by
  obtain ⟨hfresh, hassigned, hdefinitions⟩ := h
  refine ⟨by rw [hassigned], fun id' hexists => ?_⟩
  have hne : id' ≠ id := by
    rintro rfl
    rw [hfresh] at hexists
    exact Bool.noConfusion hexists
  rw [hdefinitions, Function.update_of_ne hne]

/-- Deleting what was created leaves what there was before it. -/
theorem Untouched.deleted {t' : Tenant} (h : Untouched t₀ spId t)
    (hfresh : t₀.definitions id = none) (hdeleted : Deleted t id t') : Untouched t₀ spId t' := by
  obtain ⟨hdefinitions, hassigned⟩ := hdeleted
  constructor
  · rw [hassigned]
    exact (if_neg (h.1 ▸ Tenant.unused_of_fresh hfresh spId)).trans h.1
  · intro id' hexists
    have hne : id' ≠ id := by
      rintro rfl
      rw [hfresh] at hexists
      exact Bool.noConfusion hexists
    rw [hdefinitions, Function.update_of_ne hne]
    exact h.2 id' hexists

/-- The discard of a new policy, from moments at which it holds that the rest is as it was. -/
theorem Untouched.discarded (h : Untouched t₀ spId s.tenant)
    (hfresh : t₀.definitions id = none) (hstep : world s (.deletePolicy id) r s') :
    Untouched t₀ spId s'.tenant :=
  hstep.elim h (fun _ hdeleted => h.deleted hfresh hdeleted)

theorem Untouched.reassigned {t₁ t₂ t₃ : Tenant} {definition id sharedId : Text}
    (hcreated : Created t₀ definition id t₁) (hremoved : Removed t₁ spId sharedId t₂)
    (hassigned : Assigned t₂ spId sharedId t₃) : Untouched t₀ spId t₃ := by
  obtain ⟨hshared, hdefinitions₂, -⟩ := hremoved
  obtain ⟨-, hdefinitions₃, hassigned⟩ := hassigned
  constructor
  · rw [hassigned, Function.update_self, ← hshared, hcreated.2.1]
  · intro id' hexists
    rw [hdefinitions₃, hdefinitions₂]
    have hbefore : Untouched t₀ spId t₁ := .created hcreated
    exact hbefore.2 id' hexists

theorem Applied.assigned {t' : Tenant} (hempty : policy.isEmpty = false)
    (hdefinition : t.definitions id = some policy.definition) (h : Assigned t spId id t') :
    Applied spId policy t' := by
  obtain ⟨-, hdefinitions, hassigned⟩ := h
  unfold Applied
  rw [hempty, if_neg Bool.false_ne_true]
  exact ⟨id, by rw [hassigned, Function.update_self], by rw [hdefinitions, hdefinition]⟩

theorem Applied.none (hempty : policy.isEmpty = true) (h : t.assigned spId = none) :
    Applied spId policy t := by
  unfold Applied
  rw [if_pos hempty]
  exact h

end Own

/-! ## The plans -/

section Plans

variable {t₀ : Tenant} {spId displayName : Text} {policy : ClaimsPolicy} {s s' : Moment}

/-- What a save, or a step of it, ends with. -/
structure Ends {ε α : Type} (t₀ : Tenant) (spId : Text) (policy : ClaimsPolicy) (s : Moment)
    (r : Except ε α) : Prop where
  good : Good t₀ spId s
  saved : ∀ result, r = .ok result → Applied spId policy s.tenant
  failed : ∀ err, r = .error err → Honest s.log → Reassigned t₀ spId s.log →
    Untouched t₀ spId s.tenant

theorem Ends.ok {ε α : Type} {a : α} (hgood : Good t₀ spId s) (h : Applied spId policy s.tenant) :
    Ends t₀ spId policy s (.ok a : Except ε α) :=
  ⟨hgood, fun _ _ => h, fun _ hr => nomatch hr⟩

theorem Ends.error {ε α : Type} {err : ε} (hgood : Good t₀ spId s)
    (h : Honest s.log → Reassigned t₀ spId s.log → Untouched t₀ spId s.tenant) :
    Ends t₀ spId policy s (.error err : Except ε α) :=
  ⟨hgood, fun _ hr => (nomatch hr), fun _ _ => h⟩

theorem Ends.map {ε α β : Type} {r : Except ε α} (f : α → β) (h : Ends t₀ spId policy s r) :
    Ends t₀ spId policy s (r.map f) := by
  cases r with
  | ok a => exact .ok h.good (h.saved a rfl)
  | error err => exact .error h.good (h.failed err rfl)

theorem Writes.before {c : Call}
    (hwrites : Writes s c failed effect s') {e : Entry} (he : e ∈ s.log) : e ∈ s'.log := by
  obtain ⟨landed, hlog, -⟩ := hwrites
  rw [hlog]
  exact List.mem_append_left _ he

theorem created_of_ok {definition name id : Text}
    (hstep : world s (.createPolicy definition name) (.ok id) s') :
    Created s.tenant definition id s'.tenant := by
  have hwrites : Writes s (.createPolicy definition name) false
      (fun t => ∃ made, (∀ id', (.ok id : Except GraphError Text) = .ok id' → id' = made) ∧
        Created s.tenant definition made t) s' := hstep
  obtain ⟨made, hmade, hcreated⟩ := hwrites.landed
  exact (hmade id rfl) ▸ hcreated

theorem create_failed {definition name : Text} {err : GraphError}
    (hstep : world s (.createPolicy definition name) (.error err) s') (hhonest : Honest s'.log) :
    s'.tenant = s.tenant := by
  have hwrites : Writes s (.createPolicy definition name) true
      (fun t => ∃ made, (∀ id', (.error err : Except GraphError Text) = .ok id' → id' = made) ∧
        Created s.tenant definition made t) s' := hstep
  exact (Writes.honest hwrites hhonest).2 rfl

theorem Idle.created {definition name id : Text} {r : Except GraphError Text}
    (hcreated : Created t₀ definition id s'.tenant)
    (hstep : world ⟨t₀, []⟩ (.createPolicy definition name) r s') : Idle spId id s' := by
  obtain ⟨landed, hlog, -⟩ := hstep
  constructor
  · rw [hcreated.2.1]
    exact Tenant.unused_of_fresh hcreated.1
  · rw [hlog]
    exact unassigned_snoc (fun _ he => absurd he List.not_mem_nil) Call.noConfusion

/-- The policy of the start was assigned again, as `Reassigned` has it. -/
theorem reassigned_landed {sharedId : Text} (hshared : t₀.assigned spId = some sharedId)
    (hstep : world s (.assignPolicy spId sharedId) r s') (h : Reassigned t₀ spId s'.log) :
    Assigned s.tenant spId sharedId s'.tenant := by
  obtain ⟨landed, hlog, hlanded, hdone, -⟩ := hstep
  rw [hlog] at h
  have hfailed : isError r = false :=
    h _ (List.mem_append_right _ (List.mem_singleton_self _)) sharedId rfl hshared
  exact hdone (hlanded hfailed)

/-- The clean-up after a failed step. -/
theorem meets_discardUnassignedClaimsPolicy {ε α : Type} {err : ε}
    (hstage : Stage t₀ spId s) (hfresh : t₀.definitions id = none) (htraced : Traced spId id s)
    (h : Honest s.log → Reassigned t₀ spId s.log → Untouched t₀ spId s.tenant) :
    Meets world (fun s _ => Good t₀ spId s)
      (fun s _ => Ends t₀ spId policy s (.error err : Except ε α)) s
      (discardUnassignedClaimsPolicy id) := by
  have hunused : Unused s.tenant spId id :=
    hstage.others.unused (fun p _ => Tenant.unused_of_fresh hfresh p)
  refine Meets.bind ⟨hstage.good, fun r s' hdelete => ?_⟩
  refine Meets.pure (.error (hstage.deleted hunused htraced hdelete) (fun hhonest hreassigned => ?_))
  have huntouched := h (Writes.honest hdelete hhonest).1
    (fun e he => hreassigned e (Writes.before hdelete he))
  exact huntouched.discarded hfresh hdelete

theorem meets_applyClaimsPolicy (hempty : policy.isEmpty = false) :
    Meets world (fun s _ => Good t₀ spId s) (Ends t₀ spId policy) ⟨t₀, []⟩
      (applyClaimsPolicy spId displayName policy) := by
  have hstart := Stage.start t₀ spId
  refine Meets.bind ⟨hstart.good, fun r s₁ hcreate => ?_⟩
  have hstage₁ := hstart.created hcreate
  cases r with
  | error err =>
    refine Meets.pure (.error hstage₁.good (fun hhonest _ => ?_))
    have hsame : s₁.tenant = t₀ := create_failed hcreate hhonest
    exact hsame ▸ Untouched.refl t₀
  | ok created =>
    have hcreated : Created t₀ policy.definition created s₁.tenant := created_of_ok hcreate
    have hidle : Idle spId created s₁ := Idle.created hcreated hcreate
    refine Meets.bind ⟨hstage₁.good, fun r s₂ hassign => ?_⟩
    have hstage₂ := hstage₁.assigned hassign
    cases r with
    | error err =>
      -- Graph may have assigned it: the delete is then of the policy the application uses.
      refine Meets.bind (meets_discardUnassignedClaimsPolicy hstage₂ hcreated.1
        (hidle.assigned hassign) (fun hhonest _ => ?_))
      have hsame : s₂.tenant = s₁.tenant := (Writes.honest hassign hhonest).2 rfl
      exact hsame ▸ Untouched.created hcreated
    | ok _ =>
      have hdefinition : s₁.tenant.definitions created = some policy.definition := by
        rw [hcreated.2.2, Function.update_self]
      exact Meets.pure (.ok hstage₂.good (.assigned hempty hdefinition (Writes.landed hassign)))

theorem meets_forkClaimsPolicy {sharedId : Text} (hempty : policy.isEmpty = false)
    (hshared : t₀.assigned spId = some sharedId) :
    Meets world (fun s _ => Good t₀ spId s) (Ends t₀ spId policy) ⟨t₀, []⟩
      (forkClaimsPolicy spId displayName policy sharedId) := by
  have hstart := Stage.start t₀ spId
  refine Meets.bind ⟨hstart.good, fun r s₁ hcreate => ?_⟩
  have hstage₁ := hstart.created hcreate
  cases r with
  | error err =>
    refine Meets.pure (.error hstage₁.good (fun hhonest _ => ?_))
    have hsame : s₁.tenant = t₀ := create_failed hcreate hhonest
    exact hsame ▸ Untouched.refl t₀
  | ok created =>
    have hcreated : Created t₀ policy.definition created s₁.tenant := created_of_ok hcreate
    have hidle : Idle spId created s₁ := Idle.created hcreated hcreate
    have hne : sharedId ≠ created := by
      rintro rfl
      exact Tenant.unused_of_fresh hcreated.1 spId hshared
    refine Meets.bind ⟨hstage₁.good, fun r s₂ hremove => ?_⟩
    have hstage₂ := hstage₁.removed hremove
    have hidle₂ : Idle spId created s₂ := hidle.removed hremove
    cases r with
    | error err =>
      refine Meets.bind (meets_discardUnassignedClaimsPolicy hstage₂ hcreated.1 hidle₂.traced
        (fun hhonest _ => ?_))
      have hsame : s₂.tenant = s₁.tenant := (Writes.honest hremove hhonest).2 rfl
      exact hsame ▸ Untouched.created hcreated
    | ok _ =>
      have hremoved : Removed s₁.tenant spId sharedId s₂.tenant := Writes.landed hremove
      refine Meets.bind ⟨hstage₂.good, fun r s₃ hassign => ?_⟩
      have hstage₃ := hstage₂.assigned hassign
      cases r with
      | error err =>
        refine Meets.bind ⟨hstage₃.good, fun r s₄ hreassign => ?_⟩
        refine Meets.bind (meets_discardUnassignedClaimsPolicy (hstage₃.assigned hreassign)
          hcreated.1 ((hidle₂.assigned hassign).reassigned hne hreassign)
          (fun hhonest hreassigned => ?_))
        obtain ⟨hhonest₃, -⟩ := Writes.honest hreassign hhonest
        have hsame : s₃.tenant = s₂.tenant := (Writes.honest hassign hhonest₃).2 rfl
        have hlanded := reassigned_landed hshared hreassign hreassigned
        exact Untouched.reassigned hcreated hremoved (hsame ▸ hlanded)
      | ok _ =>
        have hdefinition : s₂.tenant.definitions created = some policy.definition := by
          rw [hremoved.2.1, hcreated.2.2, Function.update_self]
        exact Meets.pure
          (.ok hstage₃.good (.assigned hempty hdefinition (Writes.landed hassign)))

theorem meets_patchInPlace (hempty : policy.isEmpty = false)
    (hassigned : t₀.assigned spId = some id) (hunused : Unused t₀ spId id) :
    Meets world (fun s _ => Good t₀ spId s) (Ends t₀ spId policy) ⟨t₀, []⟩
      (carryOut spId displayName policy (.patchInPlace id)) := by
  have hstart := Stage.start t₀ spId
  refine Meets.bind ⟨hstart.good, fun r s₁ hupdate => ?_⟩
  have hstage₁ := hstart.updated hunused hupdate
  refine Meets.pure (Ends.map _ ?_)
  cases r with
  | error err =>
    refine .error hstage₁.good (fun hhonest _ => ?_)
    have hsame : s₁.tenant = t₀ := (Writes.honest hupdate hhonest).2 rfl
    exact hsame ▸ Untouched.refl t₀
  | ok _ =>
    obtain ⟨hsame, hdefinitions⟩ : Updated t₀ id policy.definition s₁.tenant := Writes.landed hupdate
    refine .ok hstage₁.good ?_
    unfold Applied
    rw [hempty, if_neg Bool.false_ne_true]
    exact ⟨id, hsame ▸ hassigned, by rw [hdefinitions, Function.update_self]⟩

theorem meets_detachClaimsPolicy {delete : Bool} (hempty : policy.isEmpty = true)
    (hsole : delete = true → Unused t₀ spId id) :
    Meets world (fun s _ => Good t₀ spId s) (Ends t₀ spId policy) ⟨t₀, []⟩
      (detachClaimsPolicy spId id delete) := by
  have hstart := Stage.start t₀ spId
  refine Meets.bind ⟨hstart.good, fun r s₁ hremove => ?_⟩
  have hstage₁ := hstart.removed hremove
  cases r with
  | error err =>
    refine Meets.pure (.error hstage₁.good (fun hhonest _ => ?_))
    have hsame : s₁.tenant = t₀ := (Writes.honest hremove hhonest).2 rfl
    exact hsame ▸ Untouched.refl t₀
  | ok _ =>
    obtain ⟨-, -, hremoved⟩ : Removed t₀ spId id s₁.tenant := Writes.landed hremove
    have hnone : s₁.tenant.assigned spId = none := by rw [hremoved, Function.update_self]
    cases delete with
    | false => exact Meets.pure (.ok hstage₁.good (.none hempty hnone))
    | true =>
      have hunused := hstage₁.others.unused (hsole rfl)
      have hidle : Idle spId id s₁ := by
        refine ⟨fun p hp => ?_, ?_⟩
        · by_cases heq : p = spId
          · rw [heq, hnone] at hp
            exact absurd hp (Option.some_ne_none id).symm
          · exact hunused p heq hp
        · obtain ⟨landed, hlog, -⟩ := hremove
          rw [hlog]
          exact unassigned_snoc (fun _ he => absurd he List.not_mem_nil) Call.noConfusion
      refine Meets.bind ⟨hstage₁.good, fun r s₂ hdelete => ?_⟩
      have hnone₂ : s₂.tenant.assigned spId = none := by
        refine Writes.elim (P := fun t => t.assigned spId = none) hdelete hnone ?_
        rintro t ⟨-, hassigned⟩
        simp [hassigned, hnone]
      exact Meets.pure
        (.ok (hstage₁.deleted hunused hidle.traced hdelete) (.none hempty hnone₂))

/-! ## The command -/

theorem unused_of_isSole {l : List Text} (hl : ∀ p, p ∈ l ↔ t₀.assigned p = some id)
    (hsole : isSole spId (some l) = true) : Unused t₀ spId id := by
  intro p hp hused
  simp only [isSole, Option.any_some, Bool.and_eq_true, List.all_eq_true, beq_iff_eq] at hsole
  exact hp (hsole.2 p ((hl p).2 hused))

/-- The plan is about the policy that is assigned, and a sole subject leaves no other. -/
theorem meets_carryOut {subjects : Option (List Text)} (hsubjects : ∀ id, t₀.assigned spId = some id →
      ∃ l, subjects = some l ∧ ∀ p, p ∈ l ↔ t₀.assigned p = some id) {plan : ClaimsWrite}
    (hplan : planClaimsWrite spId (t₀.assigned spId).toList subjects policy.isEmpty = .ok plan) :
    Meets world (fun s _ => Good t₀ spId s) (Ends t₀ spId policy) ⟨t₀, []⟩
      (carryOut spId displayName policy plan) := by
  have hgood := (Stage.start t₀ spId).good
  unfold planClaimsWrite at hplan
  cases hassigned : t₀.assigned spId with
  | none =>
    simp only [hassigned, Option.toList_none] at hplan
    split at hplan
    · next hempty =>
      obtain rfl := Except.ok.inj hplan
      exact Meets.pure (.ok hgood (.none hempty hassigned))
    · next hempty =>
      obtain rfl := Except.ok.inj hplan
      refine Meets.bind ((meets_applyClaimsPolicy (Bool.not_eq_true _ ▸ hempty)).mono ?_)
      exact fun s r h => Meets.pure (h.map some)
  | some id =>
    obtain ⟨l, rfl, hl⟩ := hsubjects id hassigned
    simp only [hassigned, Option.toList_some] at hplan
    split at hplan
    · next hempty =>
      obtain rfl := Except.ok.inj hplan
      exact meets_detachClaimsPolicy hempty (unused_of_isSole hl)
    · next hempty =>
      have hempty := Bool.not_eq_true _ ▸ hempty
      split at hplan
      · next hsole =>
        obtain rfl := Except.ok.inj hplan
        exact meets_patchInPlace hempty hassigned (unused_of_isSole hl hsole)
      · next hsole =>
        obtain rfl := Except.ok.inj hplan
        refine Meets.bind ((meets_forkClaimsPolicy hempty hassigned).mono ?_)
        exact fun s r h => Meets.pure (h.map some)

theorem meets_setClaimsMappingCore (toUi : GraphError → UiError) :
    Meets world (fun s _ => Good t₀ spId s) (Ends t₀ spId policy) ⟨t₀, []⟩
      (setClaimsMappingCore toUi spId displayName policy) := by
  have hgood := (Stage.start t₀ spId).good
  have herror : ∀ err : UiError, Ends t₀ spId policy ⟨t₀, []⟩
      (.error err : Except UiError (Option Text)) :=
    fun err => .error hgood (fun _ _ => Untouched.refl t₀)
  refine Meets.bind ⟨hgood, fun r s₁ hlist => ?_⟩
  obtain ⟨rfl, hassigned⟩ := hlist
  cases r with
  | error err => exact Meets.pure (herror _)
  | ok assigned =>
    obtain rfl := hassigned assigned rfl
    have hsubjects : Meets world (fun s _ => Good t₀ spId s)
        (fun s r => s = ⟨t₀, []⟩ ∧ ∀ subjects, r = .ok subjects → ∀ id, t₀.assigned spId = some id →
          ∃ l, subjects = some l ∧ ∀ p, p ∈ l ↔ t₀.assigned p = some id) ⟨t₀, []⟩
        (subjectsOf (t₀.assigned spId).toList) := by
      cases hp : t₀.assigned spId with
      | none => exact Meets.pure ⟨rfl, by simp⟩
      | some id =>
        refine Meets.bind ⟨hgood, fun r s₂ hread => ?_⟩
        obtain ⟨rfl, htruth⟩ := hread
        refine Meets.pure ⟨rfl, ?_⟩
        cases r with
        | error err => simp [Except.map]
        | ok l =>
          rintro subjects rfl_ id' hid
          obtain rfl := Except.ok.inj rfl_
          obtain rfl := Option.some.inj hid
          exact ⟨l, rfl, htruth l rfl⟩
    refine Meets.bind (hsubjects.mono ?_)
    rintro s r ⟨rfl, hsubjects⟩
    cases r with
    | error err => exact Meets.pure (herror _)
    | ok subjects =>
      dsimp only
      cases hplan : planClaimsWrite spId (t₀.assigned spId).toList subjects policy.isEmpty with
      | error err => exact Meets.pure (herror err)
      | ok plan =>
        refine Meets.bind ((meets_carryOut (hsubjects subjects rfl) hplan).mono ?_)
        intro s r hends
        cases r with
        | error err => exact Meets.pure (.error hends.good (hends.failed err rfl))
        | ok result =>
          refine Meets.bind ⟨hends.good, fun _ s' hsame => ?_⟩
          obtain rfl : s' = s := hsame
          exact Meets.pure (.ok hends.good (hends.saved result rfl))

/-- A save keeps its promises, up to the moment of any of its calls and at its end, unless an assign
    that took effect under an error was followed by the delete of its policy. -/
theorem claims_saved_iff (toUi : GraphError → UiError) (t₀ : Tenant) (spId displayName : Text)
    (policy : ClaimsPolicy) :
    (∀ s r, Exec world ⟨t₀, []⟩ (setClaimsMappingCore toUi spId displayName policy) s r →
      (Saves t₀ spId policy s r ↔ ¬ Misled spId s.log)) ∧
    (∀ s c, Asks world ⟨t₀, []⟩ (setClaimsMappingCore toUi spId displayName policy) s c →
      OthersKept t₀ spId s.tenant ∧ (¬ DeletedInUse s.log ↔ ¬ Misled spId s.log)) := by
  have hmeets : Meets world (fun s _ => Good t₀ spId s) (Ends t₀ spId policy) ⟨t₀, []⟩
      (setClaimsMappingCore toUi spId displayName policy) := meets_setClaimsMappingCore toUi
  constructor
  · intro s r hexec
    have hends := hmeets.sound hexec
    rw [← hends.good.deletes]
    exact ⟨fun h => h.deletes, fun h => ⟨hends.good.others, h, hends.saved, hends.failed⟩⟩
  · intro s c hasks
    have hgood := hmeets.asked hasks
    exact ⟨hgood.others, not_congr hgood.deletes⟩

end Plans

/-! ## An assign whose answer is lost -/

section Lost

def newTenant : Tenant := ⟨fun _ => none, fun _ => none, fun _ _ h => nomatch h⟩

def claims : ClaimsPolicy := ⟨"claims".toList, false⟩

/-- The policy was created. -/
def createdTenant : Tenant :=
  ⟨Function.update newTenant.definitions "policy".toList (some claims.definition),
    newTenant.assigned, fun _ _ h => nomatch h⟩

/-- It was assigned. -/
def assignedTenant : Tenant :=
  ⟨createdTenant.definitions, Function.update createdTenant.assigned "sp".toList (some "policy".toList),
    by
      intro p id h
      rw [Function.update_apply] at h
      split at h
      · obtain rfl := Option.some.inj h
        rfl
      · exact nomatch h⟩

/-- The assign took effect, or did not. -/
def behindAssign (landed : Bool) : Tenant := if landed then assignedTenant else createdTenant

/-- The policy was deleted. -/
def deletedTenant (t : Tenant) : Tenant :=
  ⟨Function.update t.definitions "policy".toList none,
    fun p => if t.assigned p = some "policy".toList then none else t.assigned p,
    by
      intro p id h
      split at h
      · exact nomatch h
      · next hne =>
        have hother : id ≠ "policy".toList := by
          rintro rfl
          exact hne h
        rw [Function.update_of_ne hother]
        exact t.exist p id h⟩

def unanswered : GraphError := .network "timed out".toList

def assignLog (landed : Bool) : List Entry :=
  [⟨.createPolicy claims.definition "App".toList, newTenant, false, true⟩,
    ⟨.assignPolicy "sp".toList "policy".toList, createdTenant, true, landed⟩,
    ⟨.deletePolicy "policy".toList, behindAssign landed, false, true⟩]

def plainUi (_ : GraphError) : UiError := ⟨"graph".toList, []⟩

/-- The policy is created, the assign returns an error, and the policy is deleted. -/
theorem exec_assign_failed (landed : Bool) :
    Exec world ⟨newTenant, []⟩ (setClaimsMappingCore plainUi "sp".toList "App".toList claims)
      ⟨deletedTenant (behindAssign landed), assignLog landed⟩ (.error (plainUi unanswered)) := by
  have hlist : world ⟨newTenant, []⟩ (.listAssigned "sp".toList) (.ok []) ⟨newTenant, []⟩ :=
    ⟨rfl, fun l hl => (Except.ok.inj hl).symm⟩
  have hcreate : world ⟨newTenant, []⟩ (.createPolicy claims.definition "App".toList)
      (.ok "policy".toList) ⟨createdTenant, (assignLog landed).take 1⟩ :=
    ⟨true, rfl, fun _ => rfl, fun _ => ⟨_, fun _ h => (Except.ok.inj h).symm, rfl, rfl, rfl⟩, nofun⟩
  have hassign : world ⟨createdTenant, (assignLog landed).take 1⟩ (.assignPolicy "sp".toList "policy".toList)
      (.error unanswered) ⟨behindAssign landed, (assignLog landed).take 2⟩ := by
    cases landed with
    | true => exact ⟨true, rfl, fun _ => rfl, fun _ => ⟨rfl, rfl, rfl⟩, nofun⟩
    | false => exact ⟨false, rfl, nofun, nofun, fun _ => rfl⟩
  have hdelete : world ⟨behindAssign landed, (assignLog landed).take 2⟩ (.deletePolicy "policy".toList)
      (.ok ()) ⟨deletedTenant (behindAssign landed), assignLog landed⟩ :=
    ⟨true, rfl, fun _ => rfl, fun _ => ⟨rfl, rfl⟩, nofun⟩
  exact .ask hlist (.ask hcreate (.ask hassign (.ask hdelete (.done _ _))))

/-- If it took effect, the delete is of the policy that the application uses. -/
theorem lost_assign_deletes_in_use :
    ¬ ∀ (toUi : GraphError → UiError) (t₀ : Tenant) (spId displayName : Text) (policy : ClaimsPolicy)
      (s : Moment) (r : Except UiError (Option Text)),
      Exec world ⟨t₀, []⟩ (setClaimsMappingCore toUi spId displayName policy) s r →
        Saves t₀ spId policy s r := by
  intro h
  refine (h _ _ _ _ _ _ _ (exec_assign_failed true)).deletes
    ⟨_, .tail _ (.tail _ (.head _)), _, rfl, rfl, "sp".toList, ?_⟩
  rfl

/-- If it did not, the promises are kept: the principal is as it was, and the policy is gone. -/
theorem claims_saved_iff_refused :
    ∃ s r, Exec world ⟨newTenant, []⟩ (setClaimsMappingCore plainUi "sp".toList "App".toList claims) s r ∧
      r = .error (plainUi unanswered) ∧ s.log.length = 3 ∧ ¬ Misled "sp".toList s.log ∧
      Saves newTenant "sp".toList claims s r := by
  have hexec := exec_assign_failed false
  have hmisled : ¬ Misled "sp".toList (assignLog false) := by
    rintro ⟨e, he, -, -, -, -, hfailed, hlanded, -⟩
    simp only [assignLog, List.mem_cons, List.not_mem_nil, or_false] at he
    rcases he with rfl | rfl | rfl
    · cases hfailed
    · cases hlanded
    · cases hfailed
  exact ⟨_, _, hexec, rfl, rfl, hmisled,
    ((claims_saved_iff plainUi newTenant "sp".toList "App".toList claims).1 _ _ hexec).2 hmisled⟩

end Lost

end SavingClaims
