import AzAppToolkit.Exchange.Verdict

set_option autoImplicit false

/-! # Which policies the planner migrates

`group_policies_for_migration` of `azapptoolkit-exchange/src/aap.rs`, which batches the
`RestrictAccess` policies per application, next to `aap_verdict_for`, which reports what they confine.
The two fold the same list on their own; this file states that they pick the same policies. -/

namespace Exchange

abbrev Batch := Text × List ExoApplicationAccessPolicy

/-! ## The planner -/

def AapAccessRight.asStr : AapAccessRight → Text
  | .restrictAccess => "RestrictAccess".toList
  | .denyAccess => "DenyAccess".toList
  | .other text => text

/-- The line for a policy of another access right. -/
def otherRightLine (appId : Text) (right : AapAccessRight) : Text :=
  appId ++ ": skipped a ".toList ++ right.asStr ++
    (" policy — only RestrictAccess policies are migratable. A DenyAccess policy blocks its group " ++
      "and allows every other mailbox, whereas an RBAC management scope allows only what it names, " ++
      "so migrating it would invert the policy. Re-express the exclusion as a management-scope " ++
      "recipient filter instead.").toList

/-- The line for a policy without a readable one. -/
def unreadableRightLine (appId : Text) : Text :=
  appId ++ (": skipped a policy with no readable AccessRight — RestrictAccess and DenyAccess migrate " ++
    "to opposite scopes, so it can't be guessed.").toList

/-- Why a policy is left alone: the line for it, if it is not migrated. -/
def exclusion (p : ExoApplicationAccessPolicy) : Option Text :=
  match p.appId with
  | none => some "policy without an AppId skipped".toList
  | some appId =>
    match p.accessRight with
    | some .restrictAccess => none
    | some right => some (otherRightLine appId right)
    | none => some (unreadableRightLine appId)

/-- Push the policy to the first batch of its application, or open one at the end. -/
def pushToBatch (appId : Text) (p : ExoApplicationAccessPolicy) : List Batch → List Batch
  | [] => [(appId, [p])]
  | (a, batch) :: batches =>
    if a.eqIgnoreAsciiCase appId then (a, batch ++ [p]) :: batches
    else (a, batch) :: pushToBatch appId p batches

/-- One round of the loop. -/
def groupPolicy (acc : List Batch × List Text) (p : ExoApplicationAccessPolicy) :
    List Batch × List Text :=
  match exclusion p, p.appId with
  | some line, _ => (acc.1, acc.2 ++ [line])
  | none, some appId => (pushToBatch appId p acc.1, acc.2)
  | none, none => acc

def groupPoliciesForMigration (policies : List ExoApplicationAccessPolicy) :
    List Batch × List Text := policies.foldl groupPolicy ([], [])

/-! ## One batch for each application -/

/-- The policy is migrated. -/
def migratable (p : ExoApplicationAccessPolicy) : Bool := (exclusion p).isNone

theorem migratable_iff (p : ExoApplicationAccessPolicy) : migratable p = true ↔
    ∃ appId, p.appId = some appId ∧ p.isRestrictAccess = true := by
  unfold migratable exclusion ExoApplicationAccessPolicy.isRestrictAccess
  cases p.appId with
  | none => simp
  | some appId =>
    cases p.accessRight with
    | none => simp
    | some right => cases right <;> simp

/-- What the verdict reads as confining is what the planner migrates, of the same application. -/
theorem confines_iff (appId : Text) (p : ExoApplicationAccessPolicy) : confines appId p = true ↔
    migratable p = true ∧ ∃ a, p.appId = some a ∧ a.eqIgnoreAsciiCase appId = true := by
  rw [migratable_iff, confines, Bool.and_eq_true, Option.any_eq_true]
  constructor
  · rintro ⟨⟨a, ha, hsame⟩, hrestrict⟩
    exact ⟨⟨a, ha, hrestrict⟩, a, ha, hsame⟩
  · rintro ⟨⟨-, -, hrestrict⟩, a, ha, hsame⟩
    exact ⟨⟨a, ha, hsame⟩, hrestrict⟩

theorem confines_congr {a a' : Text} (h : a.eqIgnoreAsciiCase a' = true) : confines a = confines a' := by
  funext p
  rw [Text.eqIgnoreAsciiCase_iff] at h
  simp only [confines, Text.eqIgnoreAsciiCase, h]

/-- What the batches are after the policies seen so far. -/
structure Batched (seen : List ExoApplicationAccessPolicy) (batches : List Batch) : Prop where
  apart : batches.Pairwise (fun b b' => ¬ b.1.eqIgnoreAsciiCase b'.1 = true)
  exact : ∀ b ∈ batches, b.2 = seen.filter (confines b.1) ∧ b.2 ≠ []
  all : ∀ p ∈ seen, migratable p = true → ∃ b ∈ batches, confines b.1 p = true
  once : (batches.flatMap (·.2)).Perm (seen.filter migratable)

theorem Batched.nil : Batched [] [] where
  apart := List.Pairwise.nil
  exact := by simp
  all := by simp
  once := List.Perm.refl _

/-- A policy that is left alone changes no batch. -/
theorem Batched.skip {seen : List ExoApplicationAccessPolicy} {batches : List Batch}
    (h : Batched seen batches) {p : ExoApplicationAccessPolicy} (hp : migratable p = false) :
    Batched (seen ++ [p]) batches where
  apart := h.apart
  exact b hb := by
    have hnot : ¬ confines b.1 p = true := by
      rw [confines_iff, hp]
      simp
    rw [List.filter_append, List.filter_cons_of_neg hnot, List.filter_nil, List.append_nil]
    exact h.exact b hb
  all q hq hmig := by
    rcases List.mem_append.1 hq with hq | hq
    · exact h.all q hq hmig
    · rw [List.mem_singleton.1 hq, hp] at hmig
      exact absurd hmig (by simp)
  once := by
    rw [List.filter_append, List.filter_cons_of_neg (by simp [hp]), List.filter_nil,
      List.append_nil]
    exact h.once

theorem flatMap_pushToBatch (appId : Text) (p : ExoApplicationAccessPolicy) (batches : List Batch) :
    ((pushToBatch appId p batches).flatMap (·.2)).Perm (batches.flatMap (·.2) ++ [p]) := by
  induction batches with
  | nil => exact List.Perm.refl _
  | cons b batches ih =>
    obtain ⟨a, batch⟩ := b
    unfold pushToBatch
    split
    · simp only [List.flatMap_cons, List.append_assoc]
      exact List.Perm.append_left _ List.perm_append_comm
    · simp only [List.flatMap_cons, List.append_assoc]
      exact ih.append_left _

/-- A push opens a batch only for an application without one. -/
theorem keys_pushToBatch (appId : Text) (p : ExoApplicationAccessPolicy) (batches : List Batch) :
    (pushToBatch appId p batches).map (·.1) = batches.map (·.1) ++
      if batches.any (fun b => b.1.eqIgnoreAsciiCase appId) then [] else [appId] := by
  induction batches with
  | nil => rfl
  | cons b batches ih =>
    obtain ⟨a, batch⟩ := b
    unfold pushToBatch
    by_cases hsame : a.eqIgnoreAsciiCase appId = true
    · simp [hsame]
    · have hany : List.any ((a, batch) :: batches) (fun b => b.1.eqIgnoreAsciiCase appId)
          = batches.any (fun b => b.1.eqIgnoreAsciiCase appId) := by
        rw [List.any_cons, Bool.eq_false_iff.2 hsame, Bool.false_or]
      rw [if_neg hsame, hany, List.map_cons, List.map_cons, ih, List.cons_append]

/-- A batch after a push: an old one of another application, or one that got the policy. -/
theorem mem_pushToBatch {appId : Text} {p : ExoApplicationAccessPolicy} {batches : List Batch}
    (hapart : batches.Pairwise (fun b b' => ¬ b.1.eqIgnoreAsciiCase b'.1 = true)) {b : Batch}
    (hb : b ∈ pushToBatch appId p batches) :
    (b ∈ batches ∧ ¬ b.1.eqIgnoreAsciiCase appId = true) ∨
    (∃ batch, (b.1, batch) ∈ batches ∧ b.1.eqIgnoreAsciiCase appId = true ∧ b.2 = batch ++ [p]) ∨
    (b = (appId, [p]) ∧ ∀ b' ∈ batches, ¬ b'.1.eqIgnoreAsciiCase appId = true) := by
  induction batches with
  | nil =>
    rw [pushToBatch, List.mem_singleton] at hb
    exact Or.inr (Or.inr ⟨hb, by simp⟩)
  | cons first batches ih =>
    obtain ⟨a, batch⟩ := first
    obtain ⟨hfirst, hrest⟩ := List.pairwise_cons.1 hapart
    unfold pushToBatch at hb
    split at hb
    · next hsame =>
      rcases List.mem_cons.1 hb with rfl | hb
      · exact Or.inr (Or.inl ⟨batch, List.mem_cons_self, hsame, rfl⟩)
      · refine Or.inl ⟨List.mem_cons_of_mem _ hb, ?_⟩
        -- the batches are apart, so this one is of another application
        intro hother
        refine hfirst b hb ?_
        rw [Text.eqIgnoreAsciiCase_iff] at hsame hother ⊢
        exact hsame.trans hother.symm
    · next hsame =>
      rcases List.mem_cons.1 hb with rfl | hb
      · exact Or.inl ⟨List.mem_cons_self, hsame⟩
      · rcases ih hrest hb with ⟨hmem, hother⟩ | ⟨batch', hmem, hother, heq⟩ | ⟨rfl, hall⟩
        · exact Or.inl ⟨List.mem_cons_of_mem _ hmem, hother⟩
        · exact Or.inr (Or.inl ⟨batch', List.mem_cons_of_mem _ hmem, hother, heq⟩)
        · exact Or.inr (Or.inr ⟨rfl, List.forall_mem_cons.2 ⟨hsame, hall⟩⟩)

theorem sameApp_comm {a b : Text} (h : a.eqIgnoreAsciiCase b = true) : b.eqIgnoreAsciiCase a = true := by
  rw [Text.eqIgnoreAsciiCase_iff] at h ⊢
  exact h.symm

/-- A migrated policy goes to the one batch of its application. -/
theorem Batched.push {seen : List ExoApplicationAccessPolicy} {batches : List Batch}
    (h : Batched seen batches) {p : ExoApplicationAccessPolicy} (hp : migratable p = true)
    {appId : Text} (happ : p.appId = some appId) :
    Batched (seen ++ [p]) (pushToBatch appId p batches) := by
  have hconfines : ∀ a : Text, confines a p = true ↔ a.eqIgnoreAsciiCase appId = true := by
    intro a
    rw [confines_iff, happ]
    constructor
    · rintro ⟨-, a', ha', hsame⟩
      obtain rfl := Option.some.inj ha'
      exact sameApp_comm hsame
    · intro hsame
      exact ⟨hp, appId, rfl, sameApp_comm hsame⟩
  have hkeys := keys_pushToBatch appId p batches
  refine ⟨?_, ?_, ?_, ?_⟩
  · have hmap : ((pushToBatch appId p batches).map (·.1)).Pairwise
        (fun a a' => ¬ a.eqIgnoreAsciiCase a' = true) := by
      rw [hkeys]
      refine List.pairwise_append.2 ⟨List.pairwise_map.2 h.apart, ?_, ?_⟩
      · split
        · exact List.Pairwise.nil
        · exact List.pairwise_singleton _ _
      · intro a ha a' ha'
        split at ha'
        · exact absurd ha' (by simp)
        · next hnone =>
          obtain ⟨b, hb, rfl⟩ := List.mem_map.1 ha
          rw [List.mem_singleton.1 ha']
          intro hsame
          exact hnone (List.any_eq_true.2 ⟨b, hb, hsame⟩)
    exact List.pairwise_map.1 hmap
  · intro b hb
    rw [List.filter_append]
    rcases mem_pushToBatch h.apart hb with ⟨hmem, hother⟩ | ⟨batch, hmem, hsame, heq⟩ | ⟨rfl, hnone⟩
    · rw [List.filter_cons_of_neg (fun hc => hother ((hconfines b.1).1 hc)), List.filter_nil,
        List.append_nil]
      exact h.exact b hmem
    · rw [List.filter_cons_of_pos ((hconfines b.1).2 hsame), List.filter_nil, heq]
      refine ⟨?_, by simp⟩
      rw [← (h.exact _ hmem).1]
    · have hbefore : seen.filter (confines appId) = [] := by
        rw [List.filter_eq_nil_iff]
        intro q hq hc
        obtain ⟨b', hb', hc'⟩ := h.all q hq ((confines_iff appId q).1 hc).1
        refine hnone b' hb' ?_
        obtain ⟨-, a, ha, hsame⟩ := (confines_iff appId q).1 hc
        obtain ⟨-, a', ha', hsame'⟩ := (confines_iff b'.1 q).1 hc'
        obtain rfl := Option.some.inj (ha.symm.trans ha')
        rw [Text.eqIgnoreAsciiCase_iff] at hsame hsame' ⊢
        exact hsame'.symm.trans hsame
      rw [hbefore, List.filter_cons_of_pos ((hconfines appId).2 (Text.eqIgnoreAsciiCase_refl _))]
      exact ⟨rfl, by simp⟩
  · intro q hq hmig
    -- no key of the batches is lost
    have hkeep : ∀ b ∈ batches, ∃ b' ∈ pushToBatch appId p batches, b'.1 = b.1 := by
      intro b hb
      have hmem : b.1 ∈ (pushToBatch appId p batches).map (·.1) := by
        rw [hkeys]
        exact List.mem_append_left _ (List.mem_map_of_mem hb)
      exact List.mem_map.1 hmem
    rcases List.mem_append.1 hq with hq | hq
    · obtain ⟨b, hb, hc⟩ := h.all q hq hmig
      obtain ⟨b', hb', heq⟩ := hkeep b hb
      exact ⟨b', hb', heq ▸ hc⟩
    · rw [List.mem_singleton.1 hq]
      by_cases hany : batches.any (fun b => b.1.eqIgnoreAsciiCase appId) = true
      · obtain ⟨b, hb, hsame⟩ := List.any_eq_true.1 hany
        obtain ⟨b', hb', heq⟩ := hkeep b hb
        exact ⟨b', hb', (hconfines b'.1).2 (heq ▸ hsame)⟩
      · have hmem : appId ∈ (pushToBatch appId p batches).map (·.1) := by
          rw [hkeys, if_neg hany]
          exact List.mem_append_right _ (List.mem_singleton_self _)
        obtain ⟨b', hb', heq⟩ := List.mem_map.1 hmem
        exact ⟨b', hb', (hconfines b'.1).2 (heq ▸ Text.eqIgnoreAsciiCase_refl _)⟩
  · refine (flatMap_pushToBatch appId p batches).trans ?_
    rw [List.filter_append, List.filter_cons_of_pos hp, List.filter_nil]
    exact h.once.append_right _

/-! ## The planner and the verdict -/

/-- After any list of policies: one line for each that is left alone, and the rest batched. -/
theorem groupPolicies_batched (policies : List ExoApplicationAccessPolicy) :
    (groupPoliciesForMigration policies).2 = policies.filterMap exclusion ∧
      Batched policies (groupPoliciesForMigration policies).1 := by
  have hloop : ∀ (rest seen : List ExoApplicationAccessPolicy) (acc : List Batch × List Text),
      acc.2 = seen.filterMap exclusion → Batched seen acc.1 →
      (rest.foldl groupPolicy acc).2 = (seen ++ rest).filterMap exclusion ∧
        Batched (seen ++ rest) (rest.foldl groupPolicy acc).1 := by
    intro rest
    induction rest with
    | nil =>
      intro seen acc hlines hbatched
      rw [List.append_nil]
      exact ⟨hlines, hbatched⟩
    | cons p rest ih =>
      intro seen acc hlines hbatched
      rw [List.foldl_cons, List.append_cons]
      cases hp : exclusion p with
      | some line =>
        have hstep : groupPolicy acc p = (acc.1, acc.2 ++ [line]) := by
          simp only [groupPolicy, hp]
        rw [hstep]
        refine ih (seen ++ [p]) _ ?_ (hbatched.skip (by rw [migratable, hp]; rfl))
        simp [hlines, hp]
      | none =>
        have hmig : migratable p = true := by rw [migratable, hp]; rfl
        obtain ⟨appId, happ, -⟩ := (migratable_iff p).1 hmig
        have hstep : groupPolicy acc p = (pushToBatch appId p acc.1, acc.2) := by
          simp only [groupPolicy, hp, happ]
        rw [hstep]
        refine ih (seen ++ [p]) _ ?_ (hbatched.push hmig happ)
        simp [hlines, hp]
  have hall := hloop policies [] ([], []) rfl Batched.nil
  rw [List.nil_append] at hall
  exact hall

/-- Each policy gets one line or one place in one batch, in list order; no two batches are of one
    application; and there is a batch for an application exactly when the verdict finds it confined,
    of exactly the policies the verdict unites. -/
theorem planner_agrees_with_verdict (policies : List ExoApplicationAccessPolicy) :
    ((groupPoliciesForMigration policies).1.flatMap (·.2)).Perm
        (policies.filter (fun p => (exclusion p).isNone)) ∧
    (groupPoliciesForMigration policies).2 = policies.filterMap exclusion ∧
    ((groupPoliciesForMigration policies).1.flatMap (·.2)).length
        + (groupPoliciesForMigration policies).2.length = policies.length ∧
    (∀ b ∈ (groupPoliciesForMigration policies).1, b.2.Sublist policies) ∧
    (groupPoliciesForMigration policies).1.Pairwise
        (fun b b' => ¬ b.1.eqIgnoreAsciiCase b'.1 = true) ∧
    ∀ appId : Text,
      ((∃ b ∈ (groupPoliciesForMigration policies).1, b.1.eqIgnoreAsciiCase appId = true) ↔
        (aapVerdictFor policies appId).isSome = true) ∧
      ∀ b ∈ (groupPoliciesForMigration policies).1, b.1.eqIgnoreAsciiCase appId = true →
        b.2 = policies.filter (confines appId) ∧
        aapVerdictFor policies appId = some (.scoped
          (displayName (distinctNames (b.2.filterMap (fun p => p.scopeName <|> p.scopeIdentity))))
          (match b.2 with | [only] => only.description | _ => none) none
          .legacyApplicationAccessPolicy) := by
  obtain ⟨hlines, hbatched⟩ := groupPolicies_batched policies
  have hbatch : ∀ appId : Text, ∀ b ∈ (groupPoliciesForMigration policies).1,
      b.1.eqIgnoreAsciiCase appId = true →
      b.2 = policies.filter (confines appId) ∧ policies.filter (confines appId) ≠ [] := by
    intro appId b hb hsame
    obtain ⟨heq, hne⟩ := hbatched.exact b hb
    rw [confines_congr hsame] at heq
    exact ⟨heq, heq ▸ hne⟩
  refine ⟨hbatched.once, hlines, ?_, ?_, hbatched.apart, ?_⟩
  · rw [hbatched.once.length_eq, hlines]
    clear hlines hbatched hbatch
    induction policies with
    | nil => rfl
    | cons p policies ih =>
      cases hp : exclusion p with
      | none =>
        rw [List.filter_cons_of_pos (by simp [migratable, hp]), List.filterMap_cons_none hp,
          List.length_cons, List.length_cons]
        omega
      | some line =>
        rw [List.filter_cons_of_neg (by simp [migratable, hp]), List.filterMap_cons_some hp,
          List.length_cons, List.length_cons]
        omega
  · intro b hb
    rw [(hbatched.exact b hb).1]
    exact List.filter_sublist
  · intro appId
    constructor
    · constructor
      · rintro ⟨b, hb, hsame⟩
        unfold aapVerdictFor
        rw [if_neg (hbatch appId b hb hsame).2]
        rfl
      · intro hsome
        have hne : policies.filter (confines appId) ≠ [] := by
          intro hnil
          unfold aapVerdictFor at hsome
          rw [if_pos hnil] at hsome
          exact absurd hsome (by simp)
        obtain ⟨p, hp⟩ := List.exists_mem_of_ne_nil _ hne
        obtain ⟨hmem, hc⟩ := List.mem_filter.1 hp
        obtain ⟨hmig, a, ha, hsame⟩ := (confines_iff appId p).1 hc
        obtain ⟨b, hb, hcb⟩ := hbatched.all p hmem hmig
        obtain ⟨-, a', ha', hsame'⟩ := (confines_iff b.1 p).1 hcb
        obtain rfl := Option.some.inj (ha.symm.trans ha')
        refine ⟨b, hb, ?_⟩
        rw [Text.eqIgnoreAsciiCase_iff] at hsame hsame' ⊢
        exact hsame'.symm.trans hsame
    · intro b hb hsame
      obtain ⟨heq, hne⟩ := hbatch appId b hb hsame
      refine ⟨heq, ?_⟩
      rw [heq]
      unfold aapVerdictFor
      exact (if_neg hne).trans rfl

end Exchange
