import AzAppToolkit.Audit.SecretLifetimeProofs
import AzAppToolkit.Lib.Grouping

set_option autoImplicit false

/-! # Two readings of one application's secret cap

The Credentials tab reads the policies that are listed for the application, the audit a map from the ids
that policies apply to, at the application's id and its service principal's. The cap itself is
`enforcedSecretMaxDays` on both sides. -/

namespace Audit

/-! ## The Credentials tab -/

/-- A custom policy, with the ids it applies to. -/
structure CustomPolicy extends AppManagementPolicy where
  id : Text
  displayName : Text
  appliesTo : List Text

variable (days : Text → Except Panic (Option Int))

def effectiveCapDays (default : Option TenantAppManagementPolicy) (assigned : List CustomPolicy)
    (created : Option Timestamp) : Except Panic (Option Int) :=
  if 2 ≤ assigned.length then .ok none
  else enforcedSecretMaxDays days (assigned.head?.map CustomPolicy.toAppManagementPolicy) default created

structure AppCredentialPolicyDto where
  available : Bool
  effectiveCapDays : Option Int
  customPolicyNames : List Text

/-- A read that failed is `none`. The application is its creation date. -/
def getAppCredentialPolicy (app : Option (Option Timestamp))
    (default : Option (Option TenantAppManagementPolicy)) (assigned : Option (List CustomPolicy)) :
    Except Panic AppCredentialPolicyDto :=
  match app, default, assigned with
  | some created, some default, some assigned => do
      let cap ← effectiveCapDays days default assigned created
      return ⟨true, cap, assigned.map fun p => if p.displayName.isEmpty then p.id else p.displayName⟩
  | _, _, _ => .ok ⟨false, none, []⟩

/-! ## The audit -/

structure AppPolicyData where
  default : Option TenantAppManagementPolicy
  byTarget : Table Text (List CustomPolicy)

/-- The policies, once for each id they apply to. -/
def targets (policies : List CustomPolicy) : List (Text × CustomPolicy) :=
  policies.flatMap fun policy => (policy.appliesTo.filter fun id => !id.isEmpty).map fun id => (id, policy)

def prefetchAppManagementPolicy (default : Option (Option TenantAppManagementPolicy))
    (policies : Option (List CustomPolicy)) : Bool × AppPolicyData :=
  match default, policies with
  | some default, some policies =>
    (true, ⟨default, Grouping.group Prod.fst (fun entry target => entry.getD [] ++ [target.2])
      (targets policies) ∅⟩)
  | _, _ => (false, ⟨none, ∅⟩)

/-- The policies assigned to the application or its service principal. -/
def assignedTo (policy : AppPolicyData) (appObjectId : Text) (spObjectId : Option Text) :
    List CustomPolicy :=
  [some appObjectId, spObjectId].reduceOption.flatMap fun id => (policy.byTarget.lookup id).getD []

def secretCapFor (prefetched : Bool × AppPolicyData) (appObjectId : Text) (spObjectId : Option Text)
    (created : Option Timestamp) : Except Panic (Option Int) :=
  if !prefetched.1 then .ok none
  else
    match assignedTo prefetched.2 appObjectId spObjectId with
    | [] => enforcedSecretMaxDays days none prefetched.2.default created
    | [policy] => enforcedSecretMaxDays days (some policy.toAppManagementPolicy) prefetched.2.default created
    | _ => .ok none

/-! ## What names a principal -/

/-- How often a policy names the id; an empty id names no one. -/
def CustomPolicy.mentions (policy : CustomPolicy) (id : Text) : Nat :=
  (policy.appliesTo.filter fun target => !target.isEmpty).count id

def CustomPolicy.names (policy : CustomPolicy) (id : Text) : Bool := 0 < policy.mentions id

/-- The policies, as often as they name the id. -/
def mentionsOf (policies : List CustomPolicy) (id : Text) : List CustomPolicy :=
  policies.flatMap fun policy => List.replicate (policy.mentions id) policy

theorem filter_pairs (policy : CustomPolicy) (ids : List Text) (id : Text) :
    ((ids.map fun target => (target, policy)).filter fun target => target.1 = id).map Prod.snd =
      List.replicate (ids.count id) policy := by
  induction ids with
  | nil => rfl
  | cons target ids ih =>
    rw [List.map_cons]
    by_cases hid : target = id
    · rw [List.filter_cons_of_pos (by simpa using hid), List.map_cons, ih, hid, List.count_cons_self]
      rfl
    · rw [List.filter_cons_of_neg (by simpa using hid), ih, List.count_cons_of_ne hid]

theorem targets_at (policies : List CustomPolicy) (id : Text) :
    ((targets policies).filter fun target => target.1 = id).map Prod.snd = mentionsOf policies id := by
  unfold targets mentionsOf
  induction policies with
  | nil => rfl
  | cons policy policies ih =>
    rw [List.flatMap_cons, List.filter_append, List.map_append, ih, List.flatMap_cons, filter_pairs]
    rfl

/-- What the audit finds for a principal. -/
theorem assignedTo_prefetched (default : Option TenantAppManagementPolicy) (policies : List CustomPolicy)
    (appObjectId : Text) (spObjectId : Option Text) :
    assignedTo (prefetchAppManagementPolicy (some default) (some policies)).2 appObjectId spObjectId =
      mentionsOf policies appObjectId ++ (spObjectId.map (mentionsOf policies)).getD [] := by
  have hat : ∀ id, (((prefetchAppManagementPolicy (some default) (some policies)).2.byTarget.lookup
      id).getD []) = mentionsOf policies id := by
    intro id
    rw [← targets_at]
    exact Grouping.lookup_pushes Prod.fst Prod.snd (targets policies) id
  unfold assignedTo
  cases spObjectId with
  | none =>
    change _ ++ [] = _ ++ []
    simp only [hat]
  | some sp =>
    change _ ++ (_ ++ []) = _ ++ mentionsOf policies sp
    simp only [hat, List.append_nil]

theorem mem_mentionsOf {policies : List CustomPolicy} {policy : CustomPolicy} {id : Text} :
    policy ∈ mentionsOf policies id ↔ policy ∈ policies ∧ policy.names id = true := by
  unfold mentionsOf CustomPolicy.names
  rw [List.mem_flatMap]
  constructor
  · rintro ⟨other, hmem, hrep⟩
    obtain ⟨hne, rfl⟩ := List.mem_replicate.1 hrep
    exact ⟨hmem, decide_eq_true (Nat.pos_of_ne_zero hne)⟩
  · rintro ⟨hmem, hpos⟩
    exact ⟨policy, hmem, List.mem_replicate.2 ⟨Nat.ne_of_gt (of_decide_eq_true hpos), rfl⟩⟩

theorem mentionsOf_filter (policies : List CustomPolicy) (id : Text) :
    mentionsOf policies id = mentionsOf (policies.filter fun policy => policy.names id) id := by
  unfold mentionsOf
  induction policies with
  | nil => rfl
  | cons policy policies ih =>
    rw [List.flatMap_cons, ih]
    by_cases hnames : policy.names id = true
    · rw [List.filter_cons_of_pos (p := fun policy : CustomPolicy => policy.names id) hnames, List.flatMap_cons]
    · have hzero : policy.mentions id = 0 := by
        by_contra hne
        exact hnames (decide_eq_true (Nat.pos_of_ne_zero hne))
      rw [List.filter_cons_of_neg (p := fun policy : CustomPolicy => policy.names id) hnames, hzero]
      rfl

theorem length_mentionsOf {policies : List CustomPolicy} {id : Text}
    (h : ∀ policy ∈ policies, policy.names id = true) : policies.length ≤ (mentionsOf policies id).length := by
  induction policies with
  | nil => exact Nat.zero_le _
  | cons policy policies ih =>
    rw [List.forall_mem_cons] at h
    have hrest := ih h.2
    have hpos : 0 < policy.mentions id := of_decide_eq_true h.1
    unfold mentionsOf at hrest ⊢
    rw [List.flatMap_cons, List.length_append, List.length_replicate, List.length_cons]
    omega

/-! ## Policies that give no cap -/

/-- The lifetime of the entry is missing, or cannot be read. -/
def CredentialRestrictionConfiguration.Unreadable (e : CredentialRestrictionConfiguration) : Prop :=
  ∀ text, e.maxLifetime = some text → days text = .ok none

/-- The policy is disabled, or one of its lifetime rules cannot be read. -/
def AppManagementPolicy.Unclear (p : AppManagementPolicy) : Prop :=
  p.isEnabled = false ∨ ∃ r, p.restrictions = some r ∧
    ∃ e ∈ r.passwordEntries, e.enforced = true ∧ e.Unreadable days

/-- Nothing is returned but `none`. -/
def NoCap (r : Except Panic (Option Int)) : Prop := ∀ cap, r = .ok cap → cap = none

section Unclear

variable {days : Text → Except Panic (Option Int)} {created : Option Timestamp}
  {e : CredentialRestrictionConfiguration}

theorem entryCap_unreadable (henforced : e.enforced = true) (h : e.Unreadable days) :
    entryCap days created e = .ok .unknown := by
  unfold entryCap
  rw [henforced]
  cases hlifetime : e.maxLifetime with
  | none => rfl
  | some text =>
    have hread := h text hlifetime
    simp only [hread]
    rfl

theorem capsOf_unreadable {entries : List CredentialRestrictionConfiguration} (hmem : e ∈ entries)
    (henforced : e.enforced = true) (h : e.Unreadable days) {caps : Option (List Int)}
    (hcaps : capsOf days created entries = .ok caps) : caps = none := by
  induction entries generalizing caps with
  | nil => cases hmem
  | cons other entries ih =>
    unfold capsOf at hcaps
    rcases List.mem_cons.1 hmem with rfl | hmem
    · rw [entryCap_unreadable henforced h] at hcaps
      exact (Except.ok.inj hcaps).symm
    · cases hother : entryCap days created other with
      | error panic =>
        rw [hother] at hcaps
        cases hcaps
      | ok cap =>
        rw [hother] at hcaps
        cases cap with
        | irrelevant => exact ih hmem hcaps
        | unknown => exact (Except.ok.inj hcaps).symm
        | cap c =>
          cases hrest : capsOf days created entries with
          | error panic =>
            simp only [hrest] at hcaps
            cases hcaps
          | ok rest =>
            simp only [hrest] at hcaps
            obtain rfl := ih hmem hrest
            exact (Except.ok.inj hcaps).symm

theorem noCap_of_unclear {p : AppManagementPolicy} (h : p.Unclear days)
    (default : Option TenantAppManagementPolicy) :
    NoCap (enforcedSecretMaxDays days (some p) default created) := by
  intro cap hcap
  unfold enforcedSecretMaxDays at hcap
  dsimp only at hcap
  rcases h with hoff | ⟨r, hr, e, he, henforced, hunreadable⟩
  · rw [hoff] at hcap
    exact (Except.ok.inj hcap).symm
  · rw [hr] at hcap
    split at hcap
    · exact (Except.ok.inj hcap).symm
    · change minCap days r.passwordEntries created = _ at hcap
      unfold minCap at hcap
      cases hcaps : capsOf days created r.passwordEntries with
      | error panic =>
        rw [hcaps] at hcap
        cases hcap
      | ok caps =>
        rw [hcaps, capsOf_unreadable he henforced hunreadable hcaps] at hcap
        exact (Except.ok.inj hcap).symm

end Unclear

/-! ## Where the two agree -/

/-- The caps that each side takes are the same, as far as policies are assigned to the application and to
    its service principal. -/
def CapsMeet (default : Option TenantAppManagementPolicy) (policies : List CustomPolicy)
    (appObjectId : Text) (spObjectId : Option Text) (created : Option Timestamp) : Prop :=
  match policies.filter (fun policy => policy.names appObjectId),
      (spObjectId.map (mentionsOf policies)).getD [] with
  | [], [] => True
  | [], [policy] =>
    enforcedSecretMaxDays days (some policy.toAppManagementPolicy) default created =
      enforcedSecretMaxDays days none default created
  | [], _ => enforcedSecretMaxDays days none default created = .ok none
  | [policy], others =>
    (policy.mentions appObjectId = 1 ∧ others = []) ∨
      enforcedSecretMaxDays days (some policy.toAppManagementPolicy) default created = .ok none
  | _, _ => True

section Agree

variable {days : Text → Except Panic (Option Int)} {default : Option TenantAppManagementPolicy}
  {policies listing : List CustomPolicy} {appObjectId : Text} {spObjectId : Option Text}
  {created : Option Timestamp}

theorem tab_cap : (getAppCredentialPolicy days (some created) (some default) (some listing)).map
    AppCredentialPolicyDto.effectiveCapDays = effectiveCapDays days default listing created := by
  unfold getAppCredentialPolicy
  dsimp only
  cases effectiveCapDays days default listing created <;> rfl

/-- What the audit takes from the policies that are assigned. -/
def capOfAssigned (days : Text → Except Panic (Option Int)) (default : Option TenantAppManagementPolicy)
    (created : Option Timestamp) : List CustomPolicy → Except Panic (Option Int)
  | [] => enforcedSecretMaxDays days none default created
  | [policy] => enforcedSecretMaxDays days (some policy.toAppManagementPolicy) default created
  | _ => .ok none

theorem secretCapFor_eq : secretCapFor days (prefetchAppManagementPolicy (some default) (some policies))
    appObjectId spObjectId created =
    capOfAssigned days default created
      (mentionsOf policies appObjectId ++ (spObjectId.map (mentionsOf policies)).getD []) := by
  unfold secretCapFor
  rw [assignedTo_prefetched]
  rfl

theorem capOfAssigned_of_two {assigned : List CustomPolicy} (h : 2 ≤ assigned.length) :
    capOfAssigned days default created assigned = .ok none := by
  match assigned, h with
  | _ :: _ :: _, _ => rfl

theorem caps_eq_iff (hlisting : listing.Perm (policies.filter fun policy => policy.names appObjectId)) :
    effectiveCapDays days default listing created =
        capOfAssigned days default created
          (mentionsOf policies appObjectId ++ (spObjectId.map (mentionsOf policies)).getD []) ↔
      CapsMeet days default policies appObjectId spObjectId created := by
  have hnames : ∀ policy ∈ policies.filter fun policy => policy.names appObjectId,
      policy.names appObjectId = true := fun policy hpolicy => (List.mem_filter.1 hpolicy).2
  have hlen := length_mentionsOf hnames
  rw [mentionsOf_filter policies appObjectId]
  unfold CapsMeet
  generalize (spObjectId.map (mentionsOf policies)).getD [] = others
  generalize policies.filter (fun policy => policy.names appObjectId) = named at hlisting hnames hlen ⊢
  match named with
  | [] =>
    obtain rfl := hlisting.eq_nil
    match others with
    | [] => exact iff_of_true rfl trivial
    | [policy] => exact eq_comm
    | _ :: _ :: _ => exact Iff.rfl
  | [policy] =>
    obtain rfl := List.perm_singleton.1 hlisting
    have hmentions : mentionsOf [policy] appObjectId =
        List.replicate (policy.mentions appObjectId) policy := List.append_nil _
    have hpos : 0 < policy.mentions appObjectId :=
      of_decide_eq_true (hnames policy (List.mem_singleton_self _))
    rw [hmentions]
    change enforcedSecretMaxDays days (some policy.toAppManagementPolicy) default created = _ ↔
      (policy.mentions appObjectId = 1 ∧ others = []) ∨
        enforcedSecretMaxDays days (some policy.toAppManagementPolicy) default created = .ok none
    by_cases hone : policy.mentions appObjectId = 1 ∧ others = []
    · rw [hone.1, hone.2]
      exact iff_of_true rfl (.inl ⟨rfl, rfl⟩)
    · have htwo : 2 ≤ (List.replicate (policy.mentions appObjectId) policy ++ others).length := by
        rw [List.length_append, List.length_replicate]
        by_contra hfew
        have hothers : others.length = 0 := by omega
        exact hone ⟨by omega, List.length_eq_zero_iff.1 hothers⟩
      rw [capOfAssigned_of_two htwo, or_iff_right hone]
  | first :: second :: rest =>
    have htab : 2 ≤ listing.length := by
      rw [hlisting.length_eq]
      exact Nat.le_add_left 2 _
    have htwo : 2 ≤ (mentionsOf (first :: second :: rest) appObjectId ++ others).length := by
      rw [List.length_append]
      rw [List.length_cons, List.length_cons] at hlen
      omega
    rw [capOfAssigned_of_two htwo]
    unfold effectiveCapDays
    rw [if_pos htab]
    exact iff_of_true rfl trivial

/-- The audit takes no cap where a policy that is assigned gives none. -/
theorem noCap_assigned {assigned : List CustomPolicy} {policy : CustomPolicy} (hmem : policy ∈ assigned)
    (h : policy.Unclear days) : NoCap (capOfAssigned days default created assigned) := by
  match assigned with
  | [other] =>
    obtain rfl := List.mem_singleton.1 hmem
    exact noCap_of_unclear h default
  | _ :: _ :: _ =>
    intro cap hcap
    exact (Except.ok.inj hcap).symm

end Agree

/-- The tab and the audit give an application one cap, and none where a policy assigned to it or to its
    service principal is disabled or cannot be read, if and only if the caps meet. -/
theorem caps_agree_iff (days : Text → Except Panic (Option Int)) (default : Option TenantAppManagementPolicy)
    (policies listing : List CustomPolicy) (appObjectId : Text) (spObjectId : Option Text)
    (created : Option Timestamp)
    (hlisting : listing.Perm (policies.filter fun policy => policy.names appObjectId)) :
    let tab := (getAppCredentialPolicy days (some created) (some default) (some listing)).map
      AppCredentialPolicyDto.effectiveCapDays
    let audit := secretCapFor days (prefetchAppManagementPolicy (some default) (some policies)) appObjectId
      spObjectId created
    (tab = audit ∧ ∀ policy ∈ policies,
        (policy.names appObjectId = true ∨ ∃ sp, spObjectId = some sp ∧ policy.names sp = true) →
        policy.Unclear days → NoCap tab ∧ NoCap audit) ↔
      CapsMeet days default policies appObjectId spObjectId created := by
  intro tab audit
  have htab : tab = effectiveCapDays days default listing created := tab_cap
  have haudit : audit = capOfAssigned days default created
      (mentionsOf policies appObjectId ++ (spObjectId.map (mentionsOf policies)).getD []) := secretCapFor_eq
  rw [htab, haudit, ← caps_eq_iff hlisting]
  refine ⟨fun h => h.1, fun heq => ⟨heq, fun policy hpolicy hassigned hunclear => ?_⟩⟩
  have hmem : policy ∈ mentionsOf policies appObjectId ++ (spObjectId.map (mentionsOf policies)).getD [] := by
    rcases hassigned with happ | ⟨sp, rfl, hsp⟩
    · exact List.mem_append_left _ (mem_mentionsOf.2 ⟨hpolicy, happ⟩)
    · exact List.mem_append_right _ (mem_mentionsOf.2 ⟨hpolicy, hsp⟩)
  rw [heq]
  exact ⟨noCap_assigned hmem hunclear, noCap_assigned hmem hunclear⟩

/-! ## One policy for both -/

def ninetyDayPolicy (appliesTo : List Text) : CustomPolicy where
  isEnabled := true
  restrictions := some
    ⟨[⟨some "passwordLifetime".toList, some "enabled".toList, some "P90D".toList, none⟩], none⟩
  id := "p".toList
  displayName := []
  appliesTo := appliesTo

/-- A policy of the application alone is its cap on both sides. -/
theorem caps_agree_iff_own :
    (getAppCredentialPolicy (isoDurationDays .release) (some none) (some none)
        (some [ninetyDayPolicy ["app".toList]])).map AppCredentialPolicyDto.effectiveCapDays =
      secretCapFor (isoDurationDays .release)
        (prefetchAppManagementPolicy (some none) (some [ninetyDayPolicy ["app".toList]])) "app".toList
        (some "sp".toList) none :=
  ((caps_agree_iff (isoDurationDays .release) none [ninetyDayPolicy ["app".toList]]
    [ninetyDayPolicy ["app".toList]] "app".toList (some "sp".toList) none (List.Perm.refl _)).2
      (.inl ⟨rfl, rfl⟩)).1

/-- A policy that names the application and its service principal is one policy to the tab and two to the
    audit. -/
theorem policy_of_both_disagrees :
    let policies := [ninetyDayPolicy ["app".toList, "sp".toList]]
    policies.Perm (policies.filter fun policy => policy.names "app".toList) ∧
      (getAppCredentialPolicy (isoDurationDays .release) (some none) (some none) (some policies)).map
        AppCredentialPolicyDto.effectiveCapDays = .ok (some 90) ∧
      secretCapFor (isoDurationDays .release) (prefetchAppManagementPolicy (some none) (some policies))
        "app".toList (some "sp".toList) none = .ok none :=
  ⟨List.Perm.refl _, rfl, rfl⟩

end Audit
