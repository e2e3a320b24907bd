import AzAppToolkit.Tester.Mailbox

set_option autoImplicit false

/-! # What the mailbox verdict says

Each layer has a level, and the verdict is the higher of the two. A layer that was read has the level of
what Exchange and the directory hold; one that was not has the level of a doubt. What the verdict may say
follows by comparing the four numbers. -/

namespace Tester

open Exchange (ExchangeError ExoApplicationAccessPolicy ResourcePermission PolicyConfines isOrgWideAuthRow
  aapVerdictFor aapVerdictFor_some aapVerdictFor_none isScopableExchangeResourcePermission
  office365ExchangeOnlineAppId microsoftGraphAppId)

/-! ## What is there -/

/-- What Exchange holds on the mailbox: `rows` is `none` where the application is not in its store. -/
structure ExchangeState where
  policies : List ExoApplicationAccessPolicy
  granted : Bool
  rows : Option (List AuthorizationRow)

/-- The application holds the mail permission `p` for every mailbox. -/
def Directory.HoldsMail (dir : Directory) (p : ResourcePermission) : Prop :=
  ∃ resource, p.resourceAppId = some resource ∧
    isScopableExchangeResourcePermission (some resource) p.value = true ∧
    dir.Holds office365ExchangeOnlineAppId resource p.value

section World

variable (dir : Directory) (exo : ExchangeState) (appId : Text)

def ExchangeState.Names : Prop := ∃ p ∈ exo.policies, names appId p = true

/-- A grant that no policy governs, or one that the policies grant. -/
def EntraReaches : Prop :=
  ∃ p, dir.HoldsMail p ∧ (p.confinable = false ∨ ¬ exo.Names appId ∨ exo.granted = true)

def ExchangeState.RbacReaches : Prop := ∃ rows, exo.rows = some rows ∧ ∃ row ∈ rows, row.inScope = some true

def ExchangeState.RbacOrgWide : Prop := ∃ rows, exo.rows = some rows ∧
  ∃ row ∈ rows, row.inScope = some true ∧ isOrgWideAuthRow row.toExoAuthorizationResult = true

end World

/-! ## Answers -/

/-- Each read fails or tells the truth. That an object is missing is an answer. -/
structure MailboxReads.Truthful (reads : MailboxReads) (dir : Directory) (exo : ExchangeState) : Prop where
  roles : reads.roles.Truthful dir
  policies : Answers reads.policies exo.policies
  policyTest : ∀ granted, reads.policyTest = .ok (some granted) → granted = exo.granted
  rows : ∀ rows, reads.authorization = .ok rows → exo.rows = some rows
  absent : ∀ err, reads.authorization = .error err → err.isMissingObject = true → exo.rows = none

def GrantsUnread (reads : MailboxReads) : Prop := ∃ err, orgwideMailboxGrant reads.roles = .error err

def PolicyUnread (reads : MailboxReads) : Prop :=
  (∃ err, reads.exchangeClient = .error err) ∨ (∃ err, reads.policies = .error err) ∨
    reads.policyTest = .ok none ∨ ∃ err, reads.policyTest = .error err

def RbacUnread (reads : MailboxReads) : Prop :=
  (∃ err, reads.exchangeClient = .error err) ∨
    ∃ err, reads.authorization = .error err ∧ err.isMissingObject = false

/-- No read failed. -/
structure AllRead (reads : MailboxReads) : Prop where
  extra : ∃ sp, reads.roles.extraSp = .ok sp
  grants : ¬ GrantsUnread reads
  policy : ¬ PolicyUnread reads
  rbac : ¬ RbacUnread reads

/-- The same answers in any order, and with repetitions. -/
structure MailboxReads.Same (reads reads' : MailboxReads) : Prop where
  exchangeClient : reads.exchangeClient = reads'.exchangeClient
  roles : reads.roles.Same reads'.roles
  policies : SameRead SameMembers reads.policies reads'.policies
  policyTest : reads.policyTest = reads'.policyTest
  authorization : SameRead SameMembers reads.authorization reads'.authorization

/-! ## Levels -/

/-- The Entra layer of a test, with or without an Exchange client. -/
def entraOf (reads : MailboxReads) (appId : Text) : EntraReach :=
  match orgwideMailboxGrant reads.roles with
  | .error _ => .unreadable
  | .ok perms =>
    if perms.isEmpty then .notHeld
    else match reads.exchangeClient with
      | .error _ => .unverified (permissionValues perms)
      | .ok () => entraReach appId perms reads.policies.toOption reads.policyTest

def rbacOf (reads : MailboxReads) : RbacReach :=
  match reads.exchangeClient with
  | .error _ => .indeterminate
  | .ok () => rbacReachFor reads.authorization

section Levels

variable {reads reads' : MailboxReads} {dir : Directory} {exo : ExchangeState} {appId mailbox : Text}
  {result : PermissionTestResult}

theorem verdict_eq (h : testMailboxAccess reads appId mailbox = .ok result) :
    result.verdict = verdictOf (max (entraOf reads appId).level (rbacOf reads).level) := by
  unfold testMailboxAccess at h
  unfold entraOf rbacOf
  cases hguid : requireAppId appId with
  | error err => simp [hguid] at h
  | ok u =>
    simp only [hguid] at h
    cases hclient : reads.exchangeClient <;> cases hgrants : orgwideMailboxGrant reads.roles <;>
      simp only [hclient, hgrants] at h ⊢ <;> split at h <;> simp at h <;> subst h
    -- the read of the grants fails, or says whether there are any
    · rfl
    · next hempty => simp only [hempty, if_true]; rfl
    · next hempty => simp only [hempty, Bool.false_eq_true, if_false]; rfl
    · rfl
    · next hempty => simp only [hempty, if_true]; rfl
    · next hempty => simp only [hempty, Bool.false_eq_true, if_false]; rfl

/-- Whether a test answers depends on the errors alone. -/
theorem test_ok_of_ok (h : testMailboxAccess reads appId mailbox = .ok result)
    (herrors : ∀ err, orgwideMailboxGrant reads'.roles = .error err →
      orgwideMailboxGrant reads.roles = .error err) :
    ∃ result', testMailboxAccess reads' appId mailbox = .ok result' := by
  unfold testMailboxAccess at h ⊢
  cases hguid : requireAppId appId with
  | error err => simp [hguid] at h
  | ok u =>
    simp only [hguid] at h ⊢
    cases hgrants' : orgwideMailboxGrant reads'.roles with
    | ok perms' => cases reads'.exchangeClient <;> dsimp only <;> split <;> exact ⟨_, rfl⟩
    | error err =>
      have hgrants := herrors err hgrants'
      have hfatal : err.isReauthFatal = false := by
        cases hclient : reads.exchangeClient <;> simp only [hclient, hgrants] at h <;> split at h
        · simp at h
        · next hfatal => exact Bool.eq_false_iff.2 hfatal
        · simp at h
        · next hfatal => exact Bool.eq_false_iff.2 hfatal
      cases reads'.exchangeClient <;> dsimp only <;> rw [hfatal] <;> exact ⟨_, rfl⟩

/-! ## Grants -/

theorem mem_dedupPermissions (l : List ResourcePermission) (a : ResourcePermission) :
    a ∈ dedupPermissions l ↔ a ∈ l := by
  induction l using dedupPermissions.induct with
  | case1 a' rest ih => simp [dedupPermissions, ih]
  | case2 a' b rest hne ih => simp [dedupPermissions, hne, ih]
  | case3 l hl => rw [dedupPermissions]; exact hl

theorem mem_sortPermissions (l : List ResourcePermission) (a : ResourcePermission) :
    a ∈ sortPermissions l ↔ a ∈ l := by
  rw [sortPermissions, mem_dedupPermissions, List.mem_mergeSort]

theorem mem_orgwideMailboxGrant (htruth : reads.Truthful dir exo) {perms : List ResourcePermission}
    (hperms : orgwideMailboxGrant reads.roles = .ok perms) (p : ResourcePermission) :
    p ∈ perms ↔ (dir.seen reads.roles).HoldsMail p := by
  unfold orgwideMailboxGrant at hperms
  cases hheld : reads.roles.held office365ExchangeOnlineAppId with
  | error err => simp [hheld] at hperms
  | ok grants =>
    simp only [hheld, Except.ok.injEq] at hperms
    rw [← hperms, mem_sortPermissions, List.mem_filterMap]
    unfold Directory.HoldsMail
    constructor
    · rintro ⟨⟨resource, spId, value⟩, hmem, hmail⟩
      unfold mailPermission at hmail
      obtain ⟨hscopable, hp⟩ := Option.ite_none_right_eq_some.1 hmail
      obtain rfl := Option.some.inj hp
      exact ⟨resource, rfl, hscopable, (mem_held htruth.roles hheld).1 ⟨spId, hmem⟩⟩
    · rintro ⟨resource, hresource, hscopable, hholds⟩
      obtain ⟨spId, hmem⟩ := (mem_held htruth.roles hheld).2 hholds
      refine ⟨_, hmem, ?_⟩
      unfold mailPermission
      rw [if_pos hscopable, ← hresource]

/-- The level of held grants depends on what they and the policies are, not on their order. -/
theorem entraReach_level (perms : List ResourcePermission)
    (policies : Option (List ExoApplicationAccessPolicy)) (test : Except ExchangeError (Option Bool)) :
    (entraReach appId perms policies test).level =
      if ∃ p ∈ perms, p.confinable = false then 3
      else match policies with
        | none => 3
        | some policies =>
          if ∃ p ∈ policies, names appId p = true then
            match test with
            | .ok (some true) => if PolicyConfines policies appId then 2 else 3
            | .ok (some false) => 0
            | .ok none | .error _ => 3
          else 3 := by
  unfold entraReach
  by_cases hfree : ∃ p ∈ perms, p.confinable = false
  · have hne : (((perms.filter (fun p => !p.confinable)).map (·.value)).isEmpty) = false := by
      obtain ⟨p, hp, hconfinable⟩ := hfree
      rw [List.isEmpty_eq_false_iff]
      exact List.ne_nil_of_mem (List.mem_map_of_mem (List.mem_filter.2 ⟨hp, by simp [hconfinable]⟩))
    rw [if_pos hfree]
    simp only [hne, Bool.not_false, if_true]
    rfl
  · have hempty : (((perms.filter (fun p => !p.confinable)).map (·.value)).isEmpty) = true := by
      simp only [List.isEmpty_iff, List.map_eq_nil_iff, List.filter_eq_nil_iff]
      intro p hp hconfinable
      exact hfree ⟨p, hp, by simpa using hconfinable⟩
    rw [if_neg hfree]
    simp only [hempty, Bool.not_true, Bool.false_eq_true, if_false]
    cases policies with
    | none => rfl
    | some policies =>
      by_cases hnamed : ∃ p ∈ policies, names appId p = true
      · have hany : policies.any (names appId) = true := List.any_eq_true.2 hnamed
        simp only [hany, Bool.not_true, Bool.false_eq_true, if_false, if_pos hnamed]
        rcases test with err | (_ | (_ | _))
        · rfl
        · rfl
        · rfl
        · by_cases hconfines : PolicyConfines policies appId
          · obtain ⟨name, filter, hverdict⟩ := aapVerdictFor_some hconfines
            simp only [hverdict, if_pos hconfines]
            rfl
          · simp only [aapVerdictFor_none hconfines, if_neg hconfines]
            rfl
      · have hany : policies.any (names appId) = false := by
          rw [Bool.eq_false_iff]
          exact fun hany => hnamed (List.any_eq_true.1 hany)
        simp only [hany, Bool.not_false, if_true, if_neg hnamed]
        rfl

open Classical in
/-- The level of the Entra layer, of what is there. -/
noncomputable def entraTruth (dir : Directory) (exo : ExchangeState) (appId : Text) : Nat :=
  if ∃ p, dir.HoldsMail p ∧ (p.confinable = false ∨ ¬ exo.Names appId ∨
      (exo.granted = true ∧ ¬ PolicyConfines exo.policies appId)) then 3
  else if (∃ p, dir.HoldsMail p) ∧ exo.granted = true then 2
  else 0

theorem entraTruth_of_none (hnone : ¬ ∃ p, dir.HoldsMail p) : entraTruth dir exo appId = 0 := by
  unfold entraTruth
  rw [if_neg (fun ⟨p, hp, _⟩ => hnone ⟨p, hp⟩), if_neg (fun h => hnone h.1)]

theorem entraTruth_of_free {p : ResourcePermission} (hp : dir.HoldsMail p)
    (hfree : p.confinable = false ∨ ¬ exo.Names appId ∨
      (exo.granted = true ∧ ¬ PolicyConfines exo.policies appId)) : entraTruth dir exo appId = 3 := by
  unfold entraTruth
  exact if_pos ⟨p, hp, hfree⟩

/-- Where every grant is governed and a policy names the application, the policy test decides. -/
theorem entraTruth_of_governed (hheld : ∃ p, dir.HoldsMail p)
    (hgoverned : ∀ p, dir.HoldsMail p → p.confinable ≠ false) (hnamed : exo.Names appId)
    (hconfines : exo.granted = true → PolicyConfines exo.policies appId) :
    entraTruth dir exo appId = if exo.granted = true then 2 else 0 := by
  unfold entraTruth
  rw [if_neg]
  · by_cases hgranted : exo.granted = true
    · rw [if_pos ⟨hheld, hgranted⟩, if_pos hgranted]
    · rw [if_neg (fun h => hgranted h.2), if_neg hgranted]
  · rintro ⟨p, hp, hfalse | hno | ⟨hgranted, hno⟩⟩
    · exact hgoverned p hp hfalse
    · exact hno hnamed
    · exact hno (hconfines hgranted)

variable (appId) in
/-- The Entra layer of a test: as it is, in doubt, or taken for org-wide because no policy could be read. -/
theorem entraOf_level (htruth : reads.Truthful dir exo) :
    (entraOf reads appId).level = entraTruth (dir.seen reads.roles) exo appId ∨
    (GrantsUnread reads ∧ (entraOf reads appId).level = 1) ∨
    (PolicyUnread reads ∧ (∃ p, (dir.seen reads.roles).HoldsMail p) ∧ (entraOf reads appId).level = 3) := by
  unfold entraOf
  cases hperms : orgwideMailboxGrant reads.roles with
  | error err => exact .inr (.inl ⟨⟨err, hperms⟩, rfl⟩)
  | ok perms =>
    have hmem := mem_orgwideMailboxGrant htruth hperms
    by_cases hempty : perms = []
    · subst hempty
      have hnone : ¬ ∃ p, (dir.seen reads.roles).HoldsMail p := by
        rintro ⟨p, hp⟩
        exact List.not_mem_nil ((hmem p).2 hp)
      rw [entraTruth_of_none hnone]
      exact .inl rfl
    · obtain ⟨p₀, hp₀⟩ := List.exists_mem_of_ne_nil _ hempty
      have hheld : ∃ p, (dir.seen reads.roles).HoldsMail p := ⟨p₀, (hmem p₀).1 hp₀⟩
      have hfree : (∃ p ∈ perms, p.confinable = false) ↔
          ∃ p, (dir.seen reads.roles).HoldsMail p ∧ p.confinable = false :=
        exists_congr fun p => and_congr_left fun _ => hmem p
      simp only [List.isEmpty_iff, hempty, if_false]
      cases hclient : reads.exchangeClient with
      | error err => exact .inr (.inr ⟨.inl ⟨err, hclient⟩, hheld, rfl⟩)
      | ok u =>
        simp only
        rw [entraReach_level]
        by_cases hungoverned : ∃ p ∈ perms, p.confinable = false
        · obtain ⟨p, hp, hconfinable⟩ := hfree.1 hungoverned
          rw [if_pos hungoverned, entraTruth_of_free hp (.inl hconfinable)]
          exact .inl rfl
        · rw [if_neg hungoverned]
          cases hpolicies : reads.policies with
          | error err => exact .inr (.inr ⟨.inr (.inl ⟨err, hpolicies⟩), hheld, rfl⟩)
          | ok policies =>
            obtain rfl := htruth.policies _ hpolicies
            simp only [Except.toOption]
            by_cases hnamed : exo.Names appId
            · have hnamed' : ∃ p ∈ exo.policies, names appId p = true := hnamed
              rw [if_pos hnamed']
              have hconfined : ∀ p, (dir.seen reads.roles).HoldsMail p → p.confinable ≠ false :=
                fun p hp hfalse => hungoverned (hfree.2 ⟨p, hp, hfalse⟩)
              rcases htest : reads.policyTest with err | (_ | granted)
              · exact .inr (.inr ⟨.inr (.inr (.inr ⟨err, htest⟩)), hheld, rfl⟩)
              · exact .inr (.inr ⟨.inr (.inr (.inl htest)), hheld, rfl⟩)
              · obtain rfl := htruth.policyTest _ htest
                left
                cases hgranted : exo.granted with
                | false =>
                  rw [entraTruth_of_governed hheld hconfined hnamed (by simp [hgranted]), hgranted]
                  rfl
                | true =>
                  by_cases hconfines : PolicyConfines exo.policies appId
                  · rw [entraTruth_of_governed hheld hconfined hnamed (fun _ => hconfines), hgranted]
                    exact if_pos hconfines
                  · obtain ⟨p, hp⟩ := hheld
                    rw [entraTruth_of_free hp (.inr (.inr ⟨hgranted, hconfines⟩))]
                    exact if_neg hconfines
            · have hnamed' : ¬ ∃ p ∈ exo.policies, names appId p = true := hnamed
              obtain ⟨p, hp⟩ := hheld
              rw [if_neg hnamed', entraTruth_of_free hp (.inr (.inl hnamed))]
              exact .inl rfl

/-! ## Rows -/

theorem rbacReachFromRows_level (rows : List AuthorizationRow) :
    (rbacReachFromRows rows).level =
      if ∃ row ∈ rows, row.inScope = some true then
        if ∃ row ∈ rows, row.inScope = some true ∧ isOrgWideAuthRow row.toExoAuthorizationResult = true
        then 3 else 2
      else if ∃ row ∈ rows, row.inScope = none then 1 else 0 := by
  unfold rbacReachFromRows
  by_cases hscope : ∃ row ∈ rows, row.inScope = some true
  · have hne : (rows.filter (fun r => r.inScope == some true)).isEmpty = false := by
      obtain ⟨row, hrow, hin⟩ := hscope
      rw [List.isEmpty_eq_false_iff]
      exact List.ne_nil_of_mem (List.mem_filter.2 ⟨hrow, by simp [hin]⟩)
    rw [if_pos hscope]
    simp only [hne, Bool.not_false, if_true]
    have hany : ((rows.filter (fun r => r.inScope == some true)).any
        (fun r => isOrgWideAuthRow r.toExoAuthorizationResult)) = true ↔
        ∃ row ∈ rows, row.inScope = some true ∧ isOrgWideAuthRow row.toExoAuthorizationResult = true := by
      simp only [List.any_eq_true, List.mem_filter, beq_iff_eq, and_assoc]
    by_cases horg : ∃ row ∈ rows, row.inScope = some true ∧
        isOrgWideAuthRow row.toExoAuthorizationResult = true
    · rw [if_pos horg, if_pos (hany.2 horg)]
      rfl
    · rw [if_neg horg, if_neg (fun h => horg (hany.1 h))]
      rfl
  · have hempty : (rows.filter (fun r => r.inScope == some true)).isEmpty = true := by
      rw [List.isEmpty_iff, List.filter_eq_nil_iff]
      exact fun row hrow hin => hscope ⟨row, hrow, by simpa using hin⟩
    rw [if_neg hscope]
    simp only [hempty, Bool.not_true, Bool.false_eq_true, if_false]
    have hany : rows.any (fun r => r.inScope.isNone) = true ↔ ∃ row ∈ rows, row.inScope = none := by
      simp only [List.any_eq_true, Option.isNone_iff_eq_none]
    by_cases hunknown : ∃ row ∈ rows, row.inScope = none
    · rw [if_pos hunknown, if_pos (hany.2 hunknown)]
      rfl
    · rw [if_neg hunknown, if_neg (fun h => hunknown (hany.1 h))]
      rfl

/-- The level of the Exchange layer, of what is there. -/
def rbacTruth (exo : ExchangeState) : Nat :=
  match exo.rows with
  | some rows => (rbacReachFromRows rows).level
  | none => 0

theorem rbacOf_level (htruth : reads.Truthful dir exo) :
    (rbacOf reads).level = rbacTruth exo ∨ (RbacUnread reads ∧ (rbacOf reads).level = 1) := by
  unfold rbacOf
  cases hclient : reads.exchangeClient with
  | error err => exact .inr ⟨.inl ⟨err, hclient⟩, rfl⟩
  | ok u =>
    unfold rbacTruth
    cases hrows : reads.authorization with
    | ok rows =>
      rw [htruth.rows rows hrows]
      exact .inl rfl
    | error err =>
      cases hmissing : err.isMissingObject with
      | true =>
        rw [htruth.absent err hrows hmissing]
        simp [rbacReachFor, hmissing, RbacReach.level]
      | false => exact .inr ⟨.inr ⟨err, hrows, hmissing⟩, by simp [rbacReachFor, hmissing, RbacReach.level]⟩

/-! ## What a level says -/

theorem not_entraReaches_iff : ¬ EntraReaches dir exo appId ↔ entraTruth dir exo appId = 0 := by
  by_cases hheld : ∃ p, dir.HoldsMail p
  · by_cases hreach : EntraReaches dir exo appId
    · refine iff_of_false (not_not.2 hreach) ?_
      obtain ⟨p, hp, hfree⟩ := hreach
      unfold entraTruth
      split_ifs with hthree htwo
      · simp
      · simp
      · rcases hfree with hfalse | hno | hgranted
        · exact absurd ⟨p, hp, .inl hfalse⟩ hthree
        · exact absurd ⟨p, hp, .inr (.inl hno)⟩ hthree
        · exact absurd ⟨hheld, hgranted⟩ htwo
    · refine iff_of_true hreach ?_
      unfold entraTruth
      rw [if_neg, if_neg]
      · rintro ⟨⟨p, hp⟩, hgranted⟩
        exact hreach ⟨p, hp, .inr (.inr hgranted)⟩
      · rintro ⟨p, hp, hfalse | hno | ⟨hgranted, -⟩⟩
        · exact hreach ⟨p, hp, .inl hfalse⟩
        · exact hreach ⟨p, hp, .inr (.inl hno)⟩
        · exact hreach ⟨p, hp, .inr (.inr hgranted)⟩
  · exact iff_of_true (fun ⟨p, hp, _⟩ => hheld ⟨p, hp⟩) (entraTruth_of_none hheld)

theorem entraTruth_cases (dir : Directory) (exo : ExchangeState) (appId : Text) :
    entraTruth dir exo appId = 0 ∨ entraTruth dir exo appId = 2 ∨ entraTruth dir exo appId = 3 := by
  unfold entraTruth
  split_ifs <;> simp

/-- Below the highest level every grant is governed and a policy names the application. -/
theorem governed_of_entraTruth (hlow : entraTruth dir exo appId ≠ 3) {p : ResourcePermission}
    (hp : dir.HoldsMail p) : p.confinable = true ∧ exo.Names appId := by
  constructor
  · by_contra hfalse
    exact hlow (entraTruth_of_free hp (.inl (Bool.eq_false_iff.2 hfalse)))
  · by_contra hno
    exact hlow (entraTruth_of_free hp (.inr (.inl hno)))

theorem rbacTruth_low (hlow : rbacTruth exo ≤ 1) : ¬ exo.RbacReaches := by
  rintro ⟨rows, hrows, hin⟩
  unfold rbacTruth at hlow
  rw [hrows] at hlow
  simp only [rbacReachFromRows_level, if_pos hin] at hlow
  split at hlow <;> omega

theorem rbacTruth_below (hlow : rbacTruth exo ≤ 2) : ¬ exo.RbacOrgWide := by
  rintro ⟨rows, hrows, hwide⟩
  have hin : ∃ row ∈ rows, row.inScope = some true := hwide.imp fun _ h => h.imp id And.left
  unfold rbacTruth at hlow
  rw [hrows] at hlow
  simp only [rbacReachFromRows_level, if_pos hin, if_pos hwide] at hlow
  omega

theorem rbacTruth_le (exo : ExchangeState) : rbacTruth exo ≤ 3 := by
  unfold rbacTruth
  split
  · rw [rbacReachFromRows_level]
    split_ifs <;> omega
  · exact Nat.zero_le 3

/-! ## The order of the answers -/

theorem orgwideMailboxGrant_same (h : reads.Same reads') :
    SameRead SameMembers (orgwideMailboxGrant reads.roles) (orgwideMailboxGrant reads'.roles) := by
  have hheld := held_same office365ExchangeOnlineAppId h.roles
  unfold orgwideMailboxGrant
  cases hgrants : reads.roles.held office365ExchangeOnlineAppId with
  | error err =>
    rw [hheld.error hgrants]
    rfl
  | ok grants =>
    obtain ⟨grants', hgrants', hsame⟩ := hheld.ok hgrants
    rw [hgrants']
    intro p
    rw [mem_sortPermissions, mem_sortPermissions, List.mem_filterMap, List.mem_filterMap]
    exact exists_congr fun g => and_congr_left fun _ => hsame g

theorem entraOf_same (h : reads.Same reads') :
    (entraOf reads appId).level = (entraOf reads' appId).level := by
  have hsame := orgwideMailboxGrant_same h
  unfold entraOf
  cases hperms : orgwideMailboxGrant reads.roles with
  | error err =>
    rw [hsame.error hperms]
  | ok perms =>
    obtain ⟨perms', hperms', hmem⟩ := hsame.ok hperms
    rw [hperms']
    by_cases hempty : perms = []
    · have hempty' : perms' = [] := List.eq_nil_iff_forall_not_mem.2 (fun p hp => by
        rw [hempty] at hmem
        exact List.not_mem_nil ((hmem p).2 hp))
      simp [hempty, hempty']
    · have hne' : perms' ≠ [] := by
        obtain ⟨p, hp⟩ := List.exists_mem_of_ne_nil _ hempty
        exact List.ne_nil_of_mem ((hmem p).1 hp)
      simp only [List.isEmpty_iff, hempty, hne', if_false, ← h.exchangeClient, ← h.policyTest]
      cases reads.exchangeClient with
      | error err => rfl
      | ok u =>
        simp only [entraReach_level]
        have hfree : (∃ p ∈ perms, p.confinable = false) ↔ ∃ p ∈ perms', p.confinable = false :=
          exists_congr fun p => and_congr_left fun _ => hmem p
        refine if_congr hfree rfl ?_
        cases hpolicies : reads.policies with
        | error err =>
          rw [h.policies.error hpolicies]
        | ok policies =>
          obtain ⟨policies', hpolicies', hpolicy⟩ := h.policies.ok hpolicies
          have hnamed : (∃ p ∈ policies, names appId p = true) ↔ ∃ p ∈ policies', names appId p = true :=
            exists_congr fun p => and_congr_left fun _ => hpolicy p
          have hconfines : PolicyConfines policies appId ↔ PolicyConfines policies' appId :=
            exists_congr fun p => and_congr_left fun _ => hpolicy p
          rw [hpolicies']
          refine if_congr hnamed ?_ rfl
          rcases reads.policyTest with err | (_ | (_ | _))
          · rfl
          · rfl
          · rfl
          · exact if_congr hconfines rfl rfl

theorem rbacOf_same (h : reads.Same reads') : (rbacOf reads).level = (rbacOf reads').level := by
  unfold rbacOf
  rw [← h.exchangeClient]
  cases reads.exchangeClient with
  | error err => rfl
  | ok u =>
    cases hrows : reads.authorization with
    | error err => rw [h.authorization.error hrows]
    | ok rows =>
      obtain ⟨rows', hrows', hmem⟩ := h.authorization.ok hrows
      rw [hrows']
      simp only [rbacReachFor, rbacReachFromRows_level]
      have hrow : ∀ P : AuthorizationRow → Prop, (∃ row ∈ rows, P row) ↔ ∃ row ∈ rows', P row :=
        fun P => exists_congr fun row => and_congr_left fun _ => hmem row
      simp only [hrow]

/-! ## The verdict -/

/-- What a verdict says of the mailbox. -/
structure VerdictSound (dir : Directory) (exo : ExchangeState) (reads : MailboxReads) (appId mailbox : Text)
    (verdict : AccessVerdict) : Prop where
  noAccess : verdict = .noAccess → ¬ EntraReaches dir exo appId ∧ ¬ exo.RbacReaches
  confined : verdict = .scoped →
    (GrantsUnread reads ∨ ∀ p, dir.HoldsMail p → p.confinable = true ∧ exo.Names appId) ∧
    (RbacUnread reads ∨ ¬ exo.RbacOrgWide)
  /-- Against the verdict of a test in which every read answers. -/
  failures : ∀ (reads₀ : MailboxReads) (result₀ : PermissionTestResult), reads₀.Truthful dir exo →
    AllRead reads₀ → testMailboxAccess reads₀ appId mailbox = .ok result₀ →
      verdict = result₀.verdict ∨
      (verdict = .unknown ∧ (GrantsUnread reads ∨ RbacUnread reads) ∧
        (GrantsUnread reads ∨ ¬ EntraReaches dir exo appId) ∧ (RbacUnread reads ∨ ¬ exo.RbacReaches)) ∨
      (verdict = .orgWide ∧ PolicyUnread reads ∧ ∃ p, dir.HoldsMail p) ∨
      (verdict = .scoped ∧ result₀.verdict = .orgWide ∧ (GrantsUnread reads ∨ RbacUnread reads))
  order : ∀ reads' : MailboxReads, reads.Same reads' → ∃ result',
    testMailboxAccess reads' appId mailbox = .ok result' ∧ result'.verdict = verdict

end Levels

theorem verdictOf_eq_iff {n : Nat} (hn : n ≤ 3) : (verdictOf n = .orgWide ↔ n = 3) ∧
    (verdictOf n = .scoped ↔ n = 2) ∧ (verdictOf n = .unknown ↔ n = 1) ∧
    (verdictOf n = .noAccess ↔ n = 0) := by
  interval_cases n <;> simp [verdictOf]

/-- Neither a failed read nor an order of answers hides reach of what was read. -/
theorem mailbox_verdict_sound (dir : Directory) (exo : ExchangeState) (reads : MailboxReads)
    (appId mailbox : Text) (result : PermissionTestResult) (htruth : reads.Truthful dir exo)
    (hok : testMailboxAccess reads appId mailbox = .ok result) :
    VerdictSound (dir.seen reads.roles) exo reads appId mailbox result.verdict := by
  have hverdict := verdict_eq hok
  have hentra := entraOf_level appId htruth
  have hrbac := rbacOf_level htruth
  have hentraCases := entraTruth_cases (dir.seen reads.roles) exo appId
  have hrbacLe := rbacTruth_le exo
  have hbound : max (entraOf reads appId).level (rbacOf reads).level ≤ 3 := by
    rcases hentra with he | ⟨-, he⟩ | ⟨-, -, he⟩ <;> rcases hrbac with hb | ⟨-, hb⟩ <;> omega
  obtain ⟨horgWide, hscoped, hunknown, hnoAccess⟩ := verdictOf_eq_iff hbound
  rw [hverdict]
  refine ⟨?_, ?_, ?_, ?_⟩
  · intro hno
    have hzero := hnoAccess.1 hno
    constructor
    · rw [not_entraReaches_iff]
      rcases hentra with he | ⟨-, he⟩ | ⟨-, -, he⟩ <;> omega
    · apply rbacTruth_low
      rcases hrbac with hb | ⟨-, hb⟩ <;> omega
  · intro hscope
    have htwo := hscoped.1 hscope
    constructor
    · rcases hentra with he | ⟨hunread, -⟩ | ⟨-, -, he⟩
      · exact .inr (fun p hp => governed_of_entraTruth (by omega) hp)
      · exact .inl hunread
      · omega
    · rcases hrbac with hb | ⟨hunread, -⟩
      · exact .inr (rbacTruth_below (by omega))
      · exact .inl hunread
  · intro reads₀ result₀ htruth₀ hall hok₀
    -- a test in which every read answers shows both layers as they are
    obtain ⟨sp, hextra⟩ := hall.extra
    have hentra₀ := entraOf_level appId htruth₀
    rw [seen_ok hextra] at hentra₀
    have he₀ : (entraOf reads₀ appId).level = entraTruth (dir.seen reads.roles) exo appId := by
      rcases hentra₀ with he₀ | ⟨hunread, -⟩ | ⟨hunread, -, -⟩
      · exact he₀
      · exact absurd hunread hall.grants
      · exact absurd hunread hall.policy
    have hb₀ : (rbacOf reads₀).level = rbacTruth exo := by
      rcases rbacOf_level htruth₀ with hb₀ | ⟨hunread, -⟩
      · exact hb₀
      · exact absurd hunread hall.rbac
    rw [verdict_eq hok₀, he₀, hb₀, horgWide, hscoped, hunknown, not_entraReaches_iff]
    have hbound₀ : max (entraTruth (dir.seen reads.roles) exo appId) (rbacTruth exo) ≤ 3 := by omega
    rw [(verdictOf_eq_iff hbound₀).1]
    rcases hentra with he | ⟨hunread, he⟩ | ⟨hunread, hheld, he⟩
    · rcases hrbac with hb | ⟨hunread, hb⟩
      · exact .inl (by rw [he, hb])
      · -- only the Exchange layer is in doubt
        rcases hentraCases with hzero | htwo | hthree
        · exact .inr (.inl ⟨by omega, .inr hunread, .inr hzero, .inl hunread⟩)
        · by_cases hhigh : rbacTruth exo = 3
          · exact .inr (.inr (.inr ⟨by omega, by omega, .inr hunread⟩))
          · left
            congr 1
            omega
        · left
          congr 1
          omega
    · -- the grants are in doubt
      rcases hrbac with hb | ⟨hunread', hb⟩
      · by_cases hlow : rbacTruth exo ≤ 1
        · exact .inr (.inl ⟨by omega, .inl hunread, .inl hunread, .inr (rbacTruth_low hlow)⟩)
        · by_cases hhigh : entraTruth (dir.seen reads.roles) exo appId = 3 ∧ rbacTruth exo = 2
          · exact .inr (.inr (.inr ⟨by omega, by omega, .inl hunread⟩))
          · left
            congr 1
            omega
      · exact .inr (.inl ⟨by omega, .inl hunread, .inl hunread, .inl hunread'⟩)
    · exact .inr (.inr (.inl ⟨by omega, hunread, hheld⟩))
  · intro reads' hsame
    obtain ⟨result', hok'⟩ : ∃ result', testMailboxAccess reads' appId mailbox = .ok result' := test_ok_of_ok hok (by
      intro err herr
      have hgrants := orgwideMailboxGrant_same hsame
      cases hperms : orgwideMailboxGrant reads.roles with
      | error err' => rw [← herr, hgrants.error hperms]
      | ok perms =>
        obtain ⟨perms', hperms', -⟩ := hgrants.ok hperms
        rw [herr] at hperms'
        cases hperms')
    refine ⟨result', hok', ?_⟩
    rw [verdict_eq hok', entraOf_same hsame, rbacOf_same hsame]

/-! ## An org-wide grant that is not read -/

def graphServicePrincipal : Sharepoint.ServicePrincipal :=
  { id := "graph".toList
    appId := microsoftGraphAppId
    appRoles := [⟨"role".toList, "MailboxItem.Read.All".toList⟩] }

theorem graphServicePrincipal_roles (sp : Sharepoint.ServicePrincipal) (h : some graphServicePrincipal = some sp) :
    (sp.appRoles.map (·.id)).Nodup := by
  obtain rfl := Option.some.inj h
  decide

theorem extraRoles_none (sp : Sharepoint.ServicePrincipal) (h : none = some sp) :
    (sp.appRoles.map (·.id)).Nodup := absurd h.symm (Option.some_ne_none _)

theorem apart_none (g e : Sharepoint.ServicePrincipal) (_ : some graphServicePrincipal = some g)
    (h : none = some e) : g.id ≠ e.id := absurd h.symm (Option.some_ne_none _)

/-- The application holds a permission that no policy governs. -/
def mailboxDirectory : Directory where
  servicePrincipal := some "app".toList
  graphSp := some graphServicePrincipal
  extraSp := none
  assignments _ := [⟨"grant".toList, "graph".toList, "role".toList⟩]
  apart := apart_none
  graphRoles := graphServicePrincipal_roles
  extraRoles := extraRoles_none

def scopedRow : AuthorizationRow where
  roleName := some "Application Mail.Read".toList
  grantedPermissions := none
  allowedResourceScope := some "Finance".toList
  scopeType := some "CustomRecipientScope".toList
  inScope := some true

def scopedExchange : ExchangeState := ⟨[], true, some [scopedRow]⟩

/-- All reads answer but that of the assignments. -/
def assignmentsUnread : MailboxReads where
  exchangeClient := .ok ()
  roles :=
    { servicePrincipal := .ok mailboxDirectory.servicePrincipal
      graphSp := .ok mailboxDirectory.graphSp
      extraSp := .ok none
      assignments := fun _ => .error ⟨"network_error".toList, []⟩ }
  policies := .ok []
  policyTest := .ok (some true)
  authorization := .ok [scopedRow]

def testedApp : Text := "3fa85f64-5717-4562-b3fc-2c963f66afa6".toList

theorem assignmentsUnread_truthful : assignmentsUnread.Truthful mailboxDirectory scopedExchange where
  roles :=
    { servicePrincipal := fun _ h => (Except.ok.inj h).symm
      graphSp := fun _ h => (Except.ok.inj h).symm
      extraSp := fun _ h => (Except.ok.inj h).symm
      assignments := fun _ _ h => by cases h }
  policies := fun _ h => (Except.ok.inj h).symm
  policyTest := fun _ h => (Option.some.inj (Except.ok.inj h)).symm
  rows := fun _ h => congrArg some (Except.ok.inj h)
  absent := fun _ h => by cases h

theorem mailbox_verdict_sound_unread :
    VerdictSound (mailboxDirectory.seen assignmentsUnread.roles) scopedExchange assignmentsUnread testedApp
      "a@b.c".toList .scoped :=
  mailbox_verdict_sound mailboxDirectory scopedExchange assignmentsUnread testedApp "a@b.c".toList
    (synthesize "a@b.c".toList .unreadable (rbacReachFor (.ok [scopedRow])))
    assignmentsUnread_truthful rfl

/-- The verdict is `scoped`, although the application holds a permission that no policy governs. -/
theorem scoped_hides_unread_grant :
    assignmentsUnread.Truthful mailboxDirectory scopedExchange ∧
    (testMailboxAccess assignmentsUnread testedApp "a@b.c".toList).map (·.verdict) = .ok .scoped ∧
    mailboxDirectory.HoldsMail ⟨some microsoftGraphAppId, "MailboxItem.Read.All".toList⟩ ∧
    (⟨some microsoftGraphAppId, "MailboxItem.Read.All".toList⟩ : ResourcePermission).confinable = false := by
  refine ⟨assignmentsUnread_truthful, by decide, ?_, by decide⟩
  refine ⟨microsoftGraphAppId, rfl, by decide, "app".toList, rfl, _, List.mem_singleton_self _,
    graphServicePrincipal, .inl ⟨rfl, rfl⟩, rfl, List.mem_singleton_self _⟩

end Tester
