import AzAppToolkit.Exchange.OpathRoundTrip
import AzAppToolkit.Exchange.StrandGuard
import AzAppToolkit.Exchange.ScopeProof
import AzAppToolkit.Lib.History

set_option autoImplicit false

/-! # A consolidation is exact

Whatever Exchange answers, `consolidate_scope_group` moves a scope onto the managed group only when
the two memberships were shown to be the same: no member of the source was left behind, and none
came in with the managed group. The proof follows the run: the reads of the source groups stand
first in its trace, the read after the copy stands last, and nothing between them decides. -/

namespace Exchange

open Prog

/-! ## The keys of a membership -/

theorem mem_memberKeys {members : List ExoGroupMember} {key : Text} :
    key ∈ memberKeys members ↔ ∃ m ∈ members, ∃ sm, sourceMember m = some sm ∧ sm.key = key := by
  unfold memberKeys
  simp only [List.mem_map, List.mem_filterMap]
  constructor
  · rintro ⟨sm, ⟨m, hm, hsm⟩, hkey⟩
    exact ⟨m, hm, sm, hsm, hkey⟩
  · rintro ⟨m, hm, sm, hsm, hkey⟩
    exact ⟨sm, ⟨m, hm, hsm⟩, hkey⟩

/-- A member is kept or one with its key is there already: the keys are those of both. -/
theorem mem_addMembers_keys (found : List ExoGroupMember) :
    ∀ (members : List SourceMember) (key : Text),
      key ∈ (addMembers members found).map (·.key) ↔
        key ∈ members.map (·.key) ∨ key ∈ memberKeys found := by
  unfold addMembers
  induction found with
  | nil =>
    intro members key
    simp [memberKeys]
  | cons m rest ih =>
    intro members key
    rw [List.foldl_cons]
    cases hm : sourceMember m with
    | none =>
      have hkeys : memberKeys (m :: rest) = memberKeys rest := by simp [memberKeys, hm]
      rw [ih, hkeys]
    | some sm =>
      have hkeys : memberKeys (m :: rest) = sm.key :: memberKeys rest := by
        simp [memberKeys, hm]
      dsimp only
      rw [ih, hkeys, List.mem_cons]
      split
      · next hseen =>
        obtain ⟨m', hm', heq⟩ := List.any_eq_true.1 hseen
        have hin : sm.key ∈ members.map (·.key) :=
          List.mem_map.2 ⟨m', hm', by simpa using heq⟩
        constructor
        · exact Or.imp_right Or.inr
        · rintro (hold | rfl | hrest)
          · exact Or.inl hold
          · exact Or.inl hin
          · exact Or.inr hrest
      · rw [List.map_append, List.mem_append, or_assoc]
        simp

theorem filter_isNone_eq_nil {members : List ExoGroupMember} :
    members.filter (fun m => (sourceMember m).isNone) = [] ↔
      ∀ m ∈ members, (sourceMember m).isSome = true := by
  rw [List.filter_eq_nil_iff]
  simp [Option.isSome_iff_ne_none]

/-- No extra member: every member is identified, and its key is intended. -/
theorem extraMembers_eq_nil {intended : List SourceMember} {managed : List ExoGroupMember} :
    extraMembers intended managed = [] ↔
      ∀ m ∈ managed, ∃ sm, sourceMember m = some sm ∧ sm.key ∈ intended.map (·.key) := by
  have hextra : (addMembers [] managed).filter (fun m => !intended.any (fun i => i.key == m.key))
      = [] ↔ ∀ key ∈ memberKeys managed, key ∈ intended.map (·.key) := by
    rw [List.filter_eq_nil_iff]
    constructor
    · intro hnone key hkey
      obtain ⟨m, hm, rfl⟩ :=
        List.mem_map.1 ((mem_addMembers_keys managed [] key).2 (Or.inr hkey))
      simpa using hnone m hm
    · intro hall m hm
      have hkey := (mem_addMembers_keys managed [] m.key).1 (List.mem_map.2 ⟨m, hm, rfl⟩)
      simpa using hall m.key (hkey.resolve_left (by simp))
  have hcount : (managed.filter (fun m => (sourceMember m).isNone)).length > 0 ↔
      ¬ ∀ m ∈ managed, (sourceMember m).isSome = true := by
    rw [← filter_isNone_eq_nil, gt_iff_lt, List.length_pos_iff]
  unfold extraMembers
  rw [List.append_eq_nil_iff, List.map_eq_nil_iff, hextra]
  simp only [hcount]
  constructor
  · rintro ⟨hkeys, hnone⟩ m hm
    have hall : ∀ m ∈ managed, (sourceMember m).isSome = true := by
      by_contra hnot
      rw [if_pos hnot] at hnone
      exact absurd hnone (by simp)
    obtain ⟨sm, hsm⟩ := Option.isSome_iff_exists.1 (hall m hm)
    exact ⟨sm, hsm, hkeys sm.key (mem_memberKeys.2 ⟨m, hm, sm, hsm, rfl⟩)⟩
  · intro hall
    constructor
    · intro key hkey
      obtain ⟨m, hm, sm, hsm, rfl⟩ := mem_memberKeys.1 hkey
      obtain ⟨sm', hsm', hin⟩ := hall m hm
      obtain rfl : sm = sm' := Option.some.inj (hsm.symm.trans hsm')
      exact hin
    · rw [if_neg]
      intro hnot
      refine hnot (fun m hm => ?_)
      obtain ⟨sm, hsm, -⟩ := hall m hm
      rw [hsm]
      rfl

/-- Nothing unverified: every intended key is present. -/
theorem unverifiedMembers_eq_nil {intended : List SourceMember} {present : List Text} :
    unverifiedMembers intended present = [] ↔ ∀ key ∈ intended.map (·.key), key ∈ present := by
  unfold unverifiedMembers
  rw [List.map_eq_nil_iff, List.filter_eq_nil_iff]
  simp

/-! ## The source -/

/-- The group was read, it has members, and each of them can be identified. -/
def SourceGroupRead.Readable (read : SourceGroupRead) : Prop :=
  ∃ found, read.members = .ok found ∧ found ≠ [] ∧ ∀ m ∈ found, (sourceMember m).isSome = true

/-- The key is that of a member of a group that was read. -/
def IsSourceKey (reads : List SourceGroupRead) (key : Text) : Prop :=
  ∃ read ∈ reads, ∃ found, read.members = .ok found ∧ key ∈ memberKeys found

/-- One group more. -/
theorem planSourceGroup_spec (acc : List SourceMember × List UnreadableGroup) (read : SourceGroupRead) :
    ((planSourceGroup acc read).2 = [] ↔ acc.2 = [] ∧ read.Readable) ∧
    ∀ key, key ∈ (planSourceGroup acc read).1.map (·.key) ↔
      key ∈ acc.1.map (·.key) ∨ ∃ found, read.members = .ok found ∧ key ∈ memberKeys found := by
  obtain ⟨dn, members⟩ := read
  unfold planSourceGroup SourceGroupRead.Readable
  cases members with
  | error err => simp
  | ok found =>
    cases found with
    | nil => simp [memberKeys]
    | cons m rest =>
      dsimp only
      have hcount : ((m :: rest).filter (fun m => (sourceMember m).isNone)).length > 0 ↔
          ¬ ∀ m' ∈ m :: rest, (sourceMember m').isSome = true := by
        rw [← filter_isNone_eq_nil, gt_iff_lt, List.length_pos_iff]
      constructor
      · simp only [hcount]
        constructor
        · intro h
          by_cases hall : ∀ m' ∈ m :: rest, (sourceMember m').isSome = true
          · rw [if_neg (not_not.2 hall)] at h
            exact ⟨h, m :: rest, rfl, by simp, hall⟩
          · rw [if_pos hall] at h
            exact absurd h (by simp)
        · rintro ⟨h, found, hfound, -, hall⟩
          obtain rfl := Except.ok.inj hfound
          rw [if_neg (not_not.2 hall)]
          exact h
      · intro key
        rw [mem_addMembers_keys]
        simp

theorem planSourceMembership_fold (reads : List SourceGroupRead) :
    ∀ acc : List SourceMember × List UnreadableGroup,
      ((reads.foldl planSourceGroup acc).2 = [] ↔ acc.2 = [] ∧ ∀ read ∈ reads, read.Readable) ∧
      ∀ key, key ∈ (reads.foldl planSourceGroup acc).1.map (·.key) ↔
        key ∈ acc.1.map (·.key) ∨ IsSourceKey reads key := by
  induction reads with
  | nil =>
    intro acc
    simp [IsSourceKey]
  | cons read rest ih =>
    intro acc
    obtain ⟨hreadable, hkeys⟩ := planSourceGroup_spec acc read
    obtain ⟨hrest, hrestKeys⟩ := ih (planSourceGroup acc read)
    rw [List.foldl_cons]
    constructor
    · rw [hrest, hreadable, and_assoc, List.forall_mem_cons]
    · intro key
      rw [hrestKeys, hkeys, or_assoc]
      simp [IsSourceKey]

/-- A membership to copy: every group was readable, and the keys are those of their members. -/
theorem planSourceMembership_eq_ok {reads : List SourceGroupRead} {members : List SourceMember}
    (h : planSourceMembership reads = .ok members) :
    (∀ read ∈ reads, read.Readable) ∧
      ∀ key, key ∈ members.map (·.key) ↔ IsSourceKey reads key := by
  obtain ⟨hreadable, hkeys⟩ := planSourceMembership_fold reads ([], [])
  unfold planSourceMembership at h
  dsimp only at h
  split at h
  · next hnone =>
    obtain rfl := Except.ok.inj h
    refine ⟨(hreadable.1 hnone).2, fun key => ?_⟩
    rw [hkeys key]
    simp
  · exact absurd h (by simp)

/-! ## The managed group -/

/-- Exchange gave the managed group this distinguished name. -/
def ManagedDn (groupName : Text) (trace : Trace) (dn : Text) : Prop :=
  ∃ g, g.distinguishedName = some dn ∧
    ((⟨.getDistributionGroup groupName, .ok (some g)⟩ : Exchanged Answer) ∈ trace ∨
      ∃ groupAlias,
        (⟨.newDistributionGroup groupName groupAlias, .ok g⟩ : Exchanged Answer) ∈ trace)

theorem ManagedDn.mono {groupName dn : Text} {trace trace' : Trace}
    (h : ManagedDn groupName trace dn) (hsub : trace ⊆ trace') : ManagedDn groupName trace' dn := by
  obtain ⟨g, hdn, hmem | ⟨groupAlias, hmem⟩⟩ := h
  · exact ⟨g, hdn, Or.inl (hsub hmem)⟩
  · exact ⟨g, hdn, Or.inr ⟨groupAlias, hsub hmem⟩⟩

/-- The live scope is a pure filter that names the managed group alone. -/
def LiveNamesManaged (uni : Unicode) (params : ConsolidateParams) (trace : Trace) : Prop :=
  ∃ filter dn, params.liveFilter = some filter ∧ ManagedDn params.groupName trace dn ∧
    filterNamesOnlyGroup uni filter dn = true

theorem LiveNamesManaged.mono {uni : Unicode} {params : ConsolidateParams} {trace trace' : Trace}
    (h : LiveNamesManaged uni params trace) (hsub : trace ⊆ trace') :
    LiveNamesManaged uni params trace' := by
  obtain ⟨filter, dn, hlive, hdn, honly⟩ := h
  exact ⟨filter, dn, hlive, hdn.mono hsub, honly⟩

theorem planConsolidation_eq_ok {uni : Unicode} {currentFilter : Text} {managedDn : Option Text}
    {unverified : Nat} {extra : List Text} {plan : ConsolidationPlan}
    (h : planConsolidation uni currentFilter managedDn [] unverified extra = .ok plan) :
    ∃ dn, managedDn = some dn ∧ plan.scopeDns = [dn] ∧ unverified = 0 ∧ extra = [] := by
  unfold planConsolidation at h
  split at h
  · exact absurd h (by simp)
  · split at h
    · next hunreadable => exact absurd rfl hunreadable
    · split at h
      · exact absurd h (by simp)
      · next dn =>
        split at h
        · exact absurd h (by simp)
        · next hnone =>
          split at h
          · exact absurd h (by simp)
          · next hextra =>
            obtain rfl := Except.ok.inj h
            exact ⟨dn, rfl, rfl, by omega, not_not.1 hextra⟩

/-- A filter written for one group names that group alone. -/
theorem written_names_only {uni : Unicode} {dn : Text} (h : isBlank dn = false) :
    filterNamesOnlyGroup uni (Opath.memberOfGroupFilter [dn]) dn = true := by
  unfold filterNamesOnlyGroup
  rw [Opath.written_exact (by simp) (by simpa using h), Option.any_some, List.all_eq_true]
  intro d hd
  simpa using (Opath.mem_folded [dn] d).1 hd

/-! ## The run -/

section Consolidate

variable (uni : Unicode) (params : ConsolidateParams)

/-- The scope stays on the groups it names. -/
def KeepsSource (result : ScopeGroupConsolidation) : Prop :=
  result.consolidated = false ∧ result.scopeDns = params.sourceDns

/-- What was decided behind `base` about the members to copy. -/
def Decided (members : List SourceMember) (base trace : Trace) (result : ScopeGroupConsolidation) :
    Prop :=
  KeepsSource params result ∨ ∃ middle list dn,
    trace = base ++ middle ++ [⟨.listGroupMembers params.groupName, .ok list⟩] ∧
    ManagedDn params.groupName trace dn ∧ result.consolidated = true ∧ result.scopeDns = [dn] ∧
    (∀ key ∈ members.map (·.key), key ∈ memberKeys list) ∧
    (¬ LiveNamesManaged uni params trace →
      ∀ m ∈ list, ∃ sm, sourceMember m = some sm ∧ sm.key ∈ members.map (·.key))

variable {uni params} {members : List SourceMember} {base trace : Trace}

theorem meets_keepSource (why : KeptBecause) (unverified : List Text) :
    Meets history (fun _ _ => True) (fun _ result => KeepsSource params result) trace
      (keepSource params why unverified) :=
  Meets.bind (meets_warn trivial (Meets.pure ⟨rfl, rfl⟩))

theorem meets_refuse (why : Refusal) :
    Meets history (fun _ _ => True) (fun _ result => KeepsSource params result) trace
      (refuse params why) :=
  Meets.bind ((meets_keepSource _ _).mono (fun _ _ h => Meets.pure h))

/-- The reads stand in the trace in the order of the groups. -/
def SourceGroupRead.asked (read : SourceGroupRead) : Exchanged Answer :=
  ⟨.listGroupMembers read.dn, read.members⟩

theorem meets_readSources :
    Meets history (fun _ _ => True) (fun s (reads : List SourceGroupRead) =>
      s = reads.map SourceGroupRead.asked ∧ reads.map (·.dn) = params.sourceDns) []
      (readSources params) := by
  refine Meets.foldlM (fun before s (reads : List SourceGroupRead) =>
    s = reads.map SourceGroupRead.asked ∧ reads.map (·.dn) = before) ?_ ⟨rfl, rfl⟩
  intro before dn after s reads _ h
  obtain ⟨rfl, hdns⟩ := h
  refine Meets.bind (Meets.remember trivial (fun members => Meets.pure ?_))
  simp [SourceGroupRead.asked, hdns]

/-- The live scope was found to name the managed group. -/
theorem meets_managedIsLive :
    Meets history (fun _ _ => True) (fun s live => Grew Quiet trace s ∧
      (live = true → LiveNamesManaged uni params s)) trace (managedIsLive uni params) := by
  have hfound : Meets history (fun _ _ => True)
      (fun s live => live = true → LiveNamesManaged uni params s) trace
      (managedIsLive uni params) := by
    unfold managedIsLive
    split
    · exact Meets.pure (fun h => absurd h (by simp))
    · next filter hfilter =>
      refine Meets.bind (Meets.remember trivial (fun r => ?_))
      split
      · next g =>
        refine Meets.pure (fun honly => ?_)
        obtain ⟨dn, hdn, honly⟩ := (Option.any_eq_true _ _).1 honly
        exact ⟨filter, dn, hfilter, ⟨g, hdn, Or.inl (by simp)⟩, honly⟩
      · exact Meets.pure (fun h => absurd h (by simp))
  exact hfound.within (only_managedIsLive uni params) (fun _ _ _ => trivial)

/-- The group comes with the name Exchange gave it. -/
theorem meets_ensureSecurityGroup (name groupAlias : Text) :
    Meets history (fun _ _ => True) (OnResult (fun s g => Grew Quiet trace s ∧
      ∀ dn, g.distinguishedName = some dn → ManagedDn name s dn) (fun s _ => Grew Quiet trace s))
      trace (ensureSecurityGroup name groupAlias).run := by
  have hdns : Meets history (fun _ _ => True) (OnResult (fun s g =>
    ∀ dn, g.distinguishedName = some dn → ManagedDn name s dn) (fun _ _ => True)) trace
    (ensureSecurityGroup name groupAlias).run := by
    unfold ensureSecurityGroup
    refine Meets.tryBind (Meets.remember (c := Call.getDistributionGroup name) trivial
      (fun r => ?_))
    cases r with
    | error err => trivial
    | ok found =>
      cases found with
      | some g =>
        intro dn hdn
        exact ⟨g, hdn, Or.inl (by simp)⟩
      | none =>
        refine Meets.tryBind (Meets.remember (c := Call.newDistributionGroup name groupAlias)
          trivial (fun r => ?_))
        cases r with
        | error err => trivial
        | ok created =>
          show Meets _ _ _ _ (ite _ _ _ : AsyncResult ExchangeError ExoGroup).run
          split
          · intro dn hdn
            exact ⟨created, hdn, Or.inr ⟨groupAlias, by simp⟩⟩
          · refine Meets.tryBind (Meets.remember (c := Call.getDistributionGroup name)
              trivial (fun r => ?_))
            cases r with
            | error err => trivial
            | ok resolved =>
              cases resolved with
              | some g =>
                intro dn hdn
                exact ⟨g, hdn, Or.inl (by simp)⟩
              | none =>
                intro dn hdn
                exact ⟨created, hdn, Or.inr ⟨groupAlias, by simp⟩⟩
  refine (hdns.within (only_ensureSecurityGroup _ _) (fun _ _ _ => trivial)).mono
    (fun s result h => ?_)
  cases result with
  | ok g => exact h
  | error err => exact h.1

/-- The read after the copy decides. -/
theorem meets_verifyCopy {live : Bool} {managedDn : Option Text} (hgrew : Grew Quiet base trace)
    (hlive : live = true → LiveNamesManaged uni params trace)
    (hdn : ∀ dn, managedDn = some dn → ManagedDn params.groupName trace dn) :
    Meets history (fun _ _ => True) (Decided uni params members base) trace
      (verifyCopy uni params members live managedDn) := by
  obtain ⟨middle, rfl, -⟩ := hgrew
  unfold verifyCopy
  refine Meets.bind (Meets.remember trivial (fun r => ?_))
  cases r with
  | error err => exact (meets_keepSource _ _).mono (fun _ _ h => Or.inl h)
  | ok list =>
    dsimp only
    split
    · next plan hplan =>
      obtain ⟨dn, hmanaged, hscope, hunverified, hextra⟩ := planConsolidation_eq_ok hplan
      have hsub : base ++ middle ⊆
          base ++ middle ++ [⟨.listGroupMembers params.groupName, .ok list⟩] :=
        List.subset_append_left _ _
      refine Meets.pure (Or.inr ⟨middle, list, dn, rfl, (hdn dn hmanaged).mono hsub, rfl,
        hscope, ?_, fun hnot => ?_⟩)
      · exact unverifiedMembers_eq_nil.1 (List.length_eq_zero_iff.1 hunverified)
      · -- the check was skipped only for a live scope that names the managed group
        rw [if_neg] at hextra
        · exact extraMembers_eq_nil.1 hextra
        · rw [Bool.or_eq_true]
          rintro (hwas | hnow)
          · exact hnot ((hlive hwas).mono hsub)
          · obtain ⟨filter, hfilter, hany⟩ := (Option.any_eq_true _ _).1 hnow
            obtain ⟨dn', hdn', honly⟩ := (Option.any_eq_true _ _).1 hany
            exact hnot ⟨filter, dn', hfilter, (hdn dn' hdn').mono hsub, honly⟩
    · exact Meets.bind (meets_warn trivial (Meets.pure (Or.inl ⟨rfl, rfl⟩)))

theorem meets_copyAndVerify {live : Bool} {alreadyIn : List Text} (hgrew : Grew Quiet base trace)
    (hlive : live = true → LiveNamesManaged uni params trace) :
    Meets history (fun _ _ => True) (Decided uni params members base) trace
      (copyAndVerify uni params members live alreadyIn) := by
  unfold copyAndVerify
  refine Meets.bind (Meets.remember trivial (fun cancelled => ?_))
  have hgrew : Grew Quiet base (trace ++ [⟨.isCancelled, cancelled⟩]) := hgrew.snoc ⟨rfl, rfl⟩
  have hlive : live = true → LiveNamesManaged uni params (trace ++ [⟨.isCancelled, cancelled⟩]) :=
    fun h => (hlive h).mono (List.subset_append_left _ _)
  split
  · exact Meets.bind ((meets_keepSource _ _).mono (fun _ _ h => Meets.pure (Or.inl h)))
  · refine Meets.bind ((meets_ensureSecurityGroup _ _).mono (fun s result hs => ?_))
    cases result with
    | error err => exact (meets_keepSource _ _).mono (fun _ _ h => Or.inl h)
    | ok g =>
      obtain ⟨hensured, hdn⟩ := hs
      refine Meets.bind (((only_copyMembers _ _ _).grew (fun _ _ _ => trivial) s).mono
        (fun s₁ copy hcopied => ?_))
      refine Meets.bind (((only_warnAll quiet_warn _).grew (fun _ _ _ => trivial) s₁).mono
        (fun s₂ _ hwarned => ?_))
      refine Meets.bind (((only_copyStopped copy).grew (fun _ _ _ => trivial) s₂).mono
        (fun s₃ stopped hstopped => ?_))
      have hrest := (hcopied.trans hwarned).trans hstopped
      split
      · exact Meets.bind ((meets_keepSource _ _).mono (fun _ _ h => Meets.pure (Or.inl h)))
      · refine meets_verifyCopy ((hgrew.trans hensured).trans hrest) (fun h => ?_)
          (fun dn h => ?_)
        · exact (hlive h).mono (fun _ he => (hensured.trans hrest).mem he)
        · exact (hdn dn h).mono (fun _ he => hrest.mem he)

/-- A finished consolidation. -/
def Exact (uni : Unicode) (params : ConsolidateParams) (trace : Trace)
    (result : ScopeGroupConsolidation) : Prop :=
  ∃ (reads : List SourceGroupRead) (middle : Trace) (list : List ExoGroupMember) (dn : Text),
    trace = reads.map SourceGroupRead.asked ++ middle ++
      [⟨.listGroupMembers params.groupName, .ok list⟩] ∧
    reads.map (·.dn) = params.sourceDns ∧
    (∀ read ∈ reads, read.Readable) ∧
    (∀ key, IsSourceKey reads key → key ∈ memberKeys list) ∧
    (¬ LiveNamesManaged uni params trace →
      ∀ m ∈ list, ∃ sm, sourceMember m = some sm ∧ IsSourceKey reads sm.key) ∧
    ManagedDn params.groupName trace dn ∧ result.scopeDns = [dn] ∧
    (isBlank dn = false →
      filterNamesOnlyGroup uni (Opath.memberOfGroupFilter result.scopeDns) dn = true)

theorem meets_consolidateScopeGroup :
    Meets history (fun _ _ => True) (fun s result =>
      (result.consolidated = true → Exact uni params s result) ∧
      (result.consolidated = false → result.scopeDns = params.sourceDns)) []
      (consolidateScopeGroup uni params) := by
  have hkept : ∀ (s : Trace) (result : ScopeGroupConsolidation), KeepsSource params result →
      (result.consolidated = true → Exact uni params s result) ∧
      (result.consolidated = false → result.scopeDns = params.sourceDns) := by
    intro s result h
    exact ⟨fun hmoved => absurd (h.1.symm.trans hmoved) (by simp), fun _ => h.2⟩
  unfold consolidateScopeGroup
  refine Meets.bind (meets_readSources.mono (fun s reads hs => ?_))
  obtain ⟨rfl, hdns⟩ := hs
  split
  · exact (meets_refuse _).mono hkept
  · next members hmembers =>
    obtain ⟨hreadable, hkeys⟩ := planSourceMembership_eq_ok hmembers
    refine Meets.bind (meets_managedIsLive.mono (fun s live hs => ?_))
    obtain ⟨hgrew, hlive⟩ := hs
    refine Meets.bind (((only_readManaged params members live).grew (fun _ _ _ => trivial) s).mono
      (fun s₁ managed hmanaged => ?_))
    split
    · exact (meets_refuse _).mono hkept
    · split
      · exact Meets.pure (hkept _ _ ⟨rfl, rfl⟩)
      · refine (meets_copyAndVerify (hgrew.trans hmanaged)
          (fun h => (hlive h).mono (fun _ he => hmanaged.mem he))).mono (fun s₂ result hs => ?_)
        rcases hs with hkeeps | ⟨middle, list, dn, htrace, hdn, hmoved, hscope, hpresent, hextra⟩
        · exact hkept s₂ result hkeeps
        · refine ⟨fun _ => ⟨reads, middle, list, dn, htrace, hdns, hreadable, ?_, ?_, hdn, hscope,
            ?_⟩, fun hnot => absurd (hmoved.symm.trans hnot) (by simp)⟩
          · intro key hkey
            exact hpresent key ((hkeys key).2 hkey)
          · intro hnot m hm
            obtain ⟨sm, hsm, hkey⟩ := hextra hnot m hm
            exact ⟨sm, hsm, (hkeys sm.key).1 hkey⟩
          · intro hblank
            rw [hscope]
            exact written_names_only hblank

end Consolidate

/-- Whatever the source reads, the managed group before the copy, the answers to the adds and the
    read after it: a scope moves only when every source group was readable, with members that can
    all be identified, all of whose keys the managed group then has, and, unless the live filter
    names the managed group alone, the group has no others; the scope then names the managed group
    alone. Otherwise it stays on its source groups. -/
theorem consolidation_exact (uni : Unicode) (params : ConsolidateParams) (trace : Trace)
    (result : ScopeGroupConsolidation) (h : Exec history [] (consolidateScopeGroup uni params) trace result) :
    (result.consolidated = true → Exact uni params trace result) ∧
    (result.consolidated = false → result.scopeDns = params.sourceDns) :=
  meets_consolidateScopeGroup.sound h

/-- Two source groups; the managed group has one of their mailboxes, and Bob once he was added. -/
def twoGroups : ConsolidateParams := ⟨"managed".toList, ["CN=Sales".toList, "CN=Ops".toList], false, none⟩

def twoGroupAnswers (trace : Trace) : (c : Call) → Option (Answer c)
  | .listGroupMembers group =>
    let added := trace.any (fun e => e.1 == .addGroupMember "managed".toList "Bob@x".toList)
    some (.ok (if group = "CN=Sales".toList then [⟨some " Ann@x".toList, none⟩]
      else if group = "CN=Ops".toList then [⟨some "ANN@x".toList, none⟩, ⟨some "Bob@x".toList, none⟩]
      else ⟨some "ann@X".toList, none⟩ :: if added then [⟨some "bob@x".toList, none⟩] else []))
  | .getDistributionGroup _ => some (.ok (some ⟨some "CN=Managed".toList⟩))
  | .addGroupMember _ _ => some (.ok ())
  | .isCancelled => some false
  | .copyGate => some false
  | _ => none

theorem consolidation_exact_two_groups :
    ∃ trace result, Exec history [] (consolidateScopeGroup Opath.asciiUnicode twoGroups) trace
        result ∧ result.scopeDns = ["CN=Managed".toList] ∧
      Exact Opath.asciiUnicode twoGroups trace result := by
  obtain ⟨result, trace, hexec, hview⟩ :=
    exists_exec_of_run (history_of_remembering twoGroupAnswers)
      (show (run (remembering twoGroupAnswers)
          (consolidateScopeGroup Opath.asciiUnicode twoGroups) []).map
            (fun r => (r.1.consolidated, r.1.scopeDns))
          = some (true, ["CN=Managed".toList]) by decide)
  obtain ⟨hmoved, hscope⟩ := Prod.mk.inj hview
  exact ⟨trace, result, hexec, hscope,
    (consolidation_exact Opath.asciiUnicode twoGroups trace result hexec).1 hmoved⟩

end Exchange
