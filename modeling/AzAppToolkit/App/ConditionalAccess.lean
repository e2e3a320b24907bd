import AzAppToolkit.Tester.Reads

set_option autoImplicit false

/-! # Conditional Access rows of an application

Which of the tenant's policies the tab lists for an application (`commands/conditional_access.rs`). A
policy has two axes: the resources it protects, by app id, and the clients it constrains, by the object
id of the service principal. An exclusion wins on either axis.

A failed read of the service principal counts as an application without one. So a policy that only the
client axis brings in is hidden then, exactly where `ClientOnly` holds. -/

namespace ConditionalAccess

open Text (eqIgnoreAsciiCase)
open Tester (isGuid)

/-! ## Data -/

structure CaApplicationFilter where
  mode : Option Text
  rule : Option Text

structure CaApplications where
  includeApplications : List Text
  excludeApplications : List Text
  includeUserActions : List Text
  applicationFilter : Option CaApplicationFilter

structure CaClientApplications where
  includeServicePrincipals : List Text
  excludeServicePrincipals : List Text
  servicePrincipalFilter : Option CaApplicationFilter

def CaClientApplications.isEmpty (ca : CaClientApplications) : Bool :=
  ca.includeServicePrincipals.isEmpty && ca.excludeServicePrincipals.isEmpty &&
    ca.servicePrincipalFilter.isNone

structure CaConditions where
  applications : Option CaApplications
  clientApplications : Option CaClientApplications

/-- What the client axis says of the application's service principal. -/
inductive ClientAxis where
  | unconstrained
  | matched
  | mayApply
  | hidden

/-! ## The two axes -/

/-- Some entry is the id, in whatever ASCII case. -/
def names (entries : List Text) (id : Text) : Bool := entries.any fun a => eqIgnoreAsciiCase a id

/-- Some entry is the token itself. -/
def holds (entries : List Text) (token : Text) : Bool := entries.any fun a => a == token

def isExclude (filter : CaApplicationFilter) : Bool := filter.mode == some "exclude".toList

def resourceReason (apps : CaApplications) (appId : Text) : Option Text :=
  let inc := apps.includeApplications
  if holds inc "All".toList then some "all".toList
  else if names inc appId then some "appId".toList
  else if holds inc "Office365".toList then some "office365".toList
  else if holds inc "MicrosoftAdminPortals".toList then some "adminPortals".toList
  else if inc.isEmpty then
    apps.applicationFilter.map fun f =>
      if isExclude f then "filterExclude".toList else "filter".toList
  else none

def clientIncludesSp (clients : CaClientApplications) : Option Text → Bool
  | none => false
  | some sp => names clients.includeServicePrincipals sp

def clientFilterIsExclude (clients : CaClientApplications) : Bool :=
  clients.servicePrincipalFilter.any isExclude

def allWorkloadTokens : List Text :=
  ["All".toList, "WorkloadIdentities".toList, "workloadIdentity".toList, "workloadIdentityAll".toList]

def clientAxis (clients : CaClientApplications) : Option Text → ClientAxis
  | none => .unconstrained
  | some sp =>
    if names clients.excludeServicePrincipals sp then .hidden
    else if clientIncludesSp clients (some sp) then .matched
    else if clients.includeServicePrincipals.any fun t => allWorkloadTokens.elem t then .matched
    else if !clients.includeServicePrincipals.isEmpty then .hidden
    else if clients.servicePrincipalFilter.isSome then .mayApply
    else .unconstrained

/-- The answer for an application that is not excluded. -/
def outcome (apps : CaApplications) (clientApplications : Option CaClientApplications) (appId : Text)
    (spId : Option Text) : Option (Text × Bool) :=
  let resource := (resourceReason apps appId).map fun r => (r, false)
  match clientApplications with
  | none => resource
  | some clients =>
    if clients.isEmpty then resource
    else match clientAxis clients spId with
      | .hidden => none
      | .unconstrained => resource
      -- the policy is shown whether or not the resource axis names the application
      | .matched =>
        let code := if clientIncludesSp clients spId then "sp".toList else "allWorkload".toList
        some ((resourceReason apps appId).getD code, true)
      | .mayApply =>
        let code := if clientFilterIsExclude clients then "clientFilterExclude".toList
          else "clientFilter".toList
        some ((resourceReason apps appId).getD code, true)

/-- Why a policy is shown, and whether its client axis involves the application. -/
def applies (conditions : CaConditions) (appId : Text) (spId : Option Text) : Option (Text × Bool) := do
  let apps ← conditions.applications
  if names apps.excludeApplications appId then none
  else outcome apps conditions.clientApplications appId spId

/-! ## What each axis names -/

/-- The resource axis names the application, a group it is in, or a filter that may take it in. -/
def NamesResource (apps : CaApplications) (appId : Text) : Prop :=
  holds apps.includeApplications "All".toList ∨ names apps.includeApplications appId ∨
    holds apps.includeApplications "Office365".toList ∨
    holds apps.includeApplications "MicrosoftAdminPortals".toList ∨
    (apps.includeApplications = [] ∧ apps.applicationFilter.isSome)

/-- The client axis names the service principal, every workload, or a filter that may take it in. -/
def NamesClient (clients : CaClientApplications) (sp : Text) : Prop :=
  ¬ names clients.excludeServicePrincipals sp ∧
    (names clients.includeServicePrincipals sp ∨
      (∃ t ∈ clients.includeServicePrincipals, t ∈ allWorkloadTokens) ∨
      (clients.includeServicePrincipals = [] ∧ clients.servicePrincipalFilter.isSome))

/-- Only the client axis brings the policy to the application. -/
def ClientOnly (conditions : CaConditions) (appId sp : Text) : Prop :=
  ∃ apps clients, conditions.applications = some apps ∧ conditions.clientApplications = some clients ∧
    ¬ names apps.excludeApplications appId ∧ ¬ NamesResource apps appId ∧ NamesClient clients sp

theorem resourceReason_isSome {apps : CaApplications} {appId : Text} :
    (resourceReason apps appId).isSome ↔ NamesResource apps appId := by
  unfold resourceReason NamesResource
  dsimp only
  split_ifs with hall happ hoffice hportals hempty
  · exact iff_of_true rfl (.inl hall)
  · exact iff_of_true rfl (.inr (.inl happ))
  · exact iff_of_true rfl (.inr (.inr (.inl hoffice)))
  · exact iff_of_true rfl (.inr (.inr (.inr (.inl hportals))))
  · rw [Option.isSome_map]
    constructor
    · intro h
      exact .inr (.inr (.inr (.inr ⟨List.isEmpty_iff.1 hempty, h⟩)))
    · rintro (h | h | h | h | ⟨-, h⟩)
      · exact absurd h hall
      · exact absurd h happ
      · exact absurd h hoffice
      · exact absurd h hportals
      · exact h
  · refine iff_of_false Bool.false_ne_true ?_
    rintro (h | h | h | h | ⟨h, -⟩)
    · exact hall h
    · exact happ h
    · exact hoffice h
    · exact hportals h
    · exact hempty (List.isEmpty_iff.2 h)

theorem clientAxis_shows {clients : CaClientApplications} {sp : Text} :
    (clientAxis clients (some sp) = .matched ∨ clientAxis clients (some sp) = .mayApply) ↔
      NamesClient clients sp := by
  unfold clientAxis NamesClient clientIncludesSp
  dsimp only
  split_ifs with hexclude hincluded htoken hforeign hfilter
  · simp [hexclude]
  · simp [hexclude, hincluded]
  · obtain ⟨t, ht, hmem⟩ := List.any_eq_true.1 htoken
    refine iff_of_true (.inl rfl) ⟨by simp [hexclude], .inr (.inl ⟨t, ht, by simpa using hmem⟩)⟩
  · refine iff_of_false (by simp) ?_
    rintro ⟨-, h | ⟨t, ht, hmem⟩ | ⟨h, -⟩⟩
    · exact hincluded h
    · exact htoken (List.any_eq_true.2 ⟨t, ht, by simpa using hmem⟩)
    · simp [h] at hforeign
  · have hnil : clients.includeServicePrincipals = [] := by simpa using hforeign
    exact iff_of_true (.inr rfl) ⟨by simp [hexclude], .inr (.inr ⟨hnil, hfilter⟩)⟩
  · refine iff_of_false (by simp) ?_
    rintro ⟨-, h | ⟨t, ht, hmem⟩ | ⟨-, h⟩⟩
    · exact hincluded h
    · exact htoken (List.any_eq_true.2 ⟨t, ht, by simpa using hmem⟩)
    · exact hfilter h

/-! ## Lists that say the same -/

/-- Two entries that are one text, or one GUID in different ASCII case. -/
def SameEntry (a b : Text) : Prop := a = b ∨ (isGuid a ∧ isGuid b ∧ eqIgnoreAsciiCase a b)

/-- One list is the other reordered, with entries repeated and the GUIDs in whatever case. -/
def Alike (l m : List Text) : Prop :=
  (∀ a ∈ l, ∃ b ∈ m, SameEntry a b) ∧ ∀ b ∈ m, ∃ a ∈ l, SameEntry b a

structure AlikeApps (apps apps' : CaApplications) : Prop where
  includes : Alike apps.includeApplications apps'.includeApplications
  excludes : Alike apps.excludeApplications apps'.excludeApplications
  filter : apps.applicationFilter = apps'.applicationFilter

structure AlikeClients (clients clients' : CaClientApplications) : Prop where
  includes : Alike clients.includeServicePrincipals clients'.includeServicePrincipals
  excludes : Alike clients.excludeServicePrincipals clients'.excludeServicePrincipals
  filter : clients.servicePrincipalFilter = clients'.servicePrincipalFilter

structure AlikeConditions (c c' : CaConditions) : Prop where
  applications : Option.Rel AlikeApps c.applications c'.applications
  clients : Option.Rel AlikeClients c.clientApplications c'.clientApplications

variable {l m : List Text} {id id' token : Text} {apps apps' : CaApplications}
  {clients clients' : CaClientApplications} {conditions conditions' : CaConditions}
  {appId appId' sp sp' : Text}

theorem SameEntry.eqIgnoreAsciiCase {a b : Text} (h : SameEntry a b) : Text.eqIgnoreAsciiCase a b := by
  rcases h with rfl | ⟨-, -, h⟩
  · exact Text.eqIgnoreAsciiCase_refl a
  · exact h

/-- A test that does not tell like entries apart answers the same of like lists. -/
theorem Alike.any {p q : Text → Bool} (h : Alike l m) (hpq : ∀ a b, SameEntry a b → p a → q b)
    (hqp : ∀ a b, SameEntry a b → q a → p b) : l.any p = m.any q := by
  rw [Bool.eq_iff_iff, List.any_eq_true, List.any_eq_true]
  constructor
  · rintro ⟨a, ha, hp⟩
    obtain ⟨b, hb, hsame⟩ := h.1 a ha
    exact ⟨b, hb, hpq a b hsame hp⟩
  · rintro ⟨b, hb, hq⟩
    obtain ⟨a, ha, hsame⟩ := h.2 b hb
    exact ⟨a, ha, hqp b a hsame hq⟩

theorem Alike.names (h : Alike l m) (hid : Text.eqIgnoreAsciiCase id id') : names l id = names m id' := by
  have hid := Text.eqIgnoreAsciiCase_iff.1 hid
  refine h.any (fun a b hsame ha => ?_) fun a b hsame ha => ?_ <;>
  · have hsame := Text.eqIgnoreAsciiCase_iff.1 hsame.eqIgnoreAsciiCase
    rw [Text.eqIgnoreAsciiCase_iff] at ha ⊢
    simp_all

/-- A token is no GUID, so the entries that are the token are its own. -/
theorem SameEntry.eq_token {a b : Text} (h : SameEntry a b) (htoken : isGuid a = false) : b = a := by
  rcases h with rfl | ⟨hguid, -⟩
  · rfl
  · rw [htoken] at hguid
    cases hguid

theorem Alike.holds (h : Alike l m) (token : Text) (htoken : isGuid token = false) :
    holds l token = holds m token := by
  refine h.any (fun a b hsame ha => ?_) fun a b hsame ha => ?_ <;>
  · obtain rfl := beq_iff_eq.1 ha
    simpa using hsame.eq_token htoken

theorem Alike.isEmpty (h : Alike l m) : l.isEmpty = m.isEmpty := by
  cases l with
  | nil =>
    cases m with
    | nil => rfl
    | cons b m =>
      obtain ⟨a, ha, -⟩ := h.2 b List.mem_cons_self
      cases ha
  | cons a l =>
    cases m with
    | nil =>
      obtain ⟨b, hb, -⟩ := h.1 a List.mem_cons_self
      cases hb
    | cons b m => rfl

theorem AlikeApps.resourceReason (h : AlikeApps apps apps') (happ : eqIgnoreAsciiCase appId appId') :
    resourceReason apps appId = resourceReason apps' appId' := by
  unfold ConditionalAccess.resourceReason
  dsimp only
  rw [h.includes.holds "All".toList rfl, h.includes.names happ,
    h.includes.holds "Office365".toList rfl,
    h.includes.holds "MicrosoftAdminPortals".toList rfl, h.includes.isEmpty, h.filter]

theorem AlikeClients.isEmpty (h : AlikeClients clients clients') : clients.isEmpty = clients'.isEmpty := by
  unfold CaClientApplications.isEmpty
  rw [h.includes.isEmpty, h.excludes.isEmpty, h.filter]

theorem AlikeClients.includesSp (h : AlikeClients clients clients') (hsp : eqIgnoreAsciiCase sp sp') :
    clientIncludesSp clients (some sp) = clientIncludesSp clients' (some sp') :=
  h.includes.names hsp

theorem workload_not_guid (h : token ∈ allWorkloadTokens) : isGuid token = false := by
  simp only [allWorkloadTokens, List.mem_cons, List.not_mem_nil, or_false] at h
  rcases h with rfl | rfl | rfl | rfl <;> rfl

theorem AlikeClients.axis (h : AlikeClients clients clients') (hsp : eqIgnoreAsciiCase sp sp') :
    clientAxis clients (some sp) = clientAxis clients' (some sp') := by
  have htokens : (clients.includeServicePrincipals.any fun t => allWorkloadTokens.elem t) =
      clients'.includeServicePrincipals.any fun t => allWorkloadTokens.elem t := by
    refine h.includes.any (fun a b hsame ha => ?_) fun a b hsame ha => ?_ <;>
    · rw [hsame.eq_token (workload_not_guid (List.elem_iff.1 ha))]
      exact ha
  unfold clientAxis
  dsimp only
  rw [h.excludes.names hsp, h.includesSp hsp, htokens, h.includes.isEmpty, h.filter]

theorem AlikeClients.outcome (happs : AlikeApps apps apps') (h : AlikeClients clients clients')
    (happ : eqIgnoreAsciiCase appId appId') (hsp : eqIgnoreAsciiCase sp sp') :
    outcome apps (some clients) appId (some sp) = outcome apps' (some clients') appId' (some sp') := by
  unfold ConditionalAccess.outcome clientFilterIsExclude
  dsimp only
  rw [happs.resourceReason happ, h.isEmpty, h.axis hsp, h.includesSp hsp, h.filter]

/-! ## What holds of the answer -/

theorem applies_of_not_excluded (happs : conditions.applications = some apps)
    (h : ¬ names apps.excludeApplications appId) (spId : Option Text) :
    applies conditions appId spId = outcome apps conditions.clientApplications appId spId := by
  unfold applies
  rw [happs]
  exact if_neg h

theorem applies_excluded (happs : conditions.applications = some apps)
    (h : names apps.excludeApplications appId) (spId : Option Text) :
    applies conditions appId spId = none := by
  unfold applies
  rw [happs]
  exact if_pos h

/-- Without a service principal only the resource axis counts. -/
theorem outcome_none (clientApplications : Option CaClientApplications) :
    outcome apps clientApplications appId none = (resourceReason apps appId).map fun r => (r, false) := by
  cases clientApplications with
  | none => rfl
  | some clients =>
    dsimp only [outcome, clientAxis]
    split <;> rfl

theorem outcome_clients_isSome (hempty : ¬ clients.isEmpty) (hresource : resourceReason apps appId = none) :
    (outcome apps (some clients) appId (some sp)).isSome ↔ NamesClient clients sp := by
  rw [← clientAxis_shows]
  dsimp only [outcome]
  rw [if_neg hempty, hresource]
  cases clientAxis clients (some sp) with
  | unconstrained => exact iff_of_false Bool.false_ne_true (by rintro (h | h) <;> cases h)
  | matched => exact iff_of_true rfl (.inl rfl)
  | mayApply => exact iff_of_true rfl (.inr rfl)
  | hidden => exact iff_of_false Bool.false_ne_true (by rintro (h | h) <;> cases h)

theorem NamesClient.not_isEmpty (h : NamesClient clients sp) : ¬ clients.isEmpty := by
  intro hempty
  simp only [CaClientApplications.isEmpty, Bool.and_eq_true, List.isEmpty_iff,
    Option.isNone_iff_eq_none] at hempty
  obtain ⟨⟨hinc, -⟩, hfilter⟩ := hempty
  rcases h.2 with h | ⟨t, ht, -⟩ | ⟨-, h⟩
  · rw [hinc] at h
    cases h
  · rw [hinc] at ht
    cases ht
  · rw [hfilter] at h
    cases h

/-- A policy that does not name the application as a resource is shown exactly if its client axis names
the service principal. -/
theorem outcome_isSome (clientApplications : Option CaClientApplications)
    (hresource : resourceReason apps appId = none) :
    (outcome apps clientApplications appId (some sp)).isSome ↔
      ∃ clients, clientApplications = some clients ∧ NamesClient clients sp := by
  cases clientApplications with
  | none =>
    refine iff_of_false ?_ (fun ⟨_, h, _⟩ => by cases h)
    dsimp only [outcome]
    rw [hresource]
    exact Bool.false_ne_true
  | some clients =>
    simp only [Option.some.injEq, exists_eq_left']
    by_cases hempty : clients.isEmpty
    · refine iff_of_false ?_ fun h => h.not_isEmpty hempty
      dsimp only [outcome]
      rw [if_pos hempty, hresource]
      simp
    · exact outcome_clients_isSome hempty hresource

/-- What the tab owes an application and its service principal for one policy. -/
structure Keeps (conditions : CaConditions) (appId sp : Text) : Prop where
  failedRead : (applies conditions appId (some sp)).isSome → (applies conditions appId none).isSome
  excludedApp : ∀ apps, conditions.applications = some apps → names apps.excludeApplications appId →
    ∀ spId, applies conditions appId spId = none
  excludedClient : ∀ clients, conditions.clientApplications = some clients → ¬ clients.isEmpty →
    names clients.excludeServicePrincipals sp → applies conditions appId (some sp) = none
  alike : ∀ conditions' appId' sp', AlikeConditions conditions conditions' →
    eqIgnoreAsciiCase appId appId' → eqIgnoreAsciiCase sp sp' →
    applies conditions appId (some sp) = applies conditions' appId' (some sp') ∧
      applies conditions appId none = applies conditions' appId' none

theorem applies_excludedClient (hclients : conditions.clientApplications = some clients)
    (hempty : ¬ clients.isEmpty) (h : names clients.excludeServicePrincipals sp) :
    applies conditions appId (some sp) = none := by
  cases happs : conditions.applications with
  | none =>
    unfold applies
    rw [happs]
    rfl
  | some apps =>
    by_cases hexcluded : names apps.excludeApplications appId
    · exact applies_excluded happs hexcluded _
    · rw [applies_of_not_excluded happs hexcluded, hclients]
      dsimp only [outcome, clientAxis]
      rw [if_neg hempty, if_pos h]

theorem applies_alike (h : AlikeConditions conditions conditions')
    (happ : eqIgnoreAsciiCase appId appId') (hsp : eqIgnoreAsciiCase sp sp') :
    applies conditions appId (some sp) = applies conditions' appId' (some sp') ∧
      applies conditions appId none = applies conditions' appId' none := by
  obtain ⟨happs, hclients⟩ := h
  unfold applies
  generalize conditions.applications = o, conditions'.applications = o' at happs
  cases happs with
  | none => exact ⟨rfl, rfl⟩
  | @some apps apps' happs =>
    simp only [Option.bind_eq_bind, Option.bind_some, outcome_none, happs.resourceReason happ,
      happs.excludes.names happ, and_true]
    generalize conditions.clientApplications = oc, conditions'.clientApplications = oc' at hclients
    cases hclients with
    | none =>
      dsimp only [outcome]
      rw [happs.resourceReason happ]
    | @some clients clients' hclients => rw [hclients.outcome happs happ hsp]

/-- The tab keeps its word for a policy exactly if it is not the client axis alone that brings the
policy to the application. -/
theorem keeps_iff (conditions : CaConditions) (appId sp : Text) :
    Keeps conditions appId sp ↔ ¬ ClientOnly conditions appId sp := by
  constructor
  · rintro ⟨hfailed, -, -, -⟩ ⟨apps, clients, happs, hclients, hexcluded, hresource, hclient⟩
    have hnone : resourceReason apps appId = none := by
      rw [← Option.not_isSome_iff_eq_none, resourceReason_isSome]
      exact hresource
    have hshown : (applies conditions appId (some sp)).isSome := by
      rw [applies_of_not_excluded happs hexcluded, outcome_isSome _ hnone]
      exact ⟨clients, hclients, hclient⟩
    have hhidden := hfailed hshown
    rw [applies_of_not_excluded happs hexcluded, outcome_none, hnone] at hhidden
    cases hhidden
  · intro honly
    refine ⟨fun hshown => ?_, fun apps happs h => applies_excluded happs h,
      fun clients hclients => applies_excludedClient hclients, fun _ _ _ => applies_alike⟩
    cases happs : conditions.applications with
    | none =>
      unfold applies at hshown
      rw [happs] at hshown
      cases hshown
    | some apps =>
      by_cases hexcluded : names apps.excludeApplications appId
      · rw [applies_excluded happs hexcluded] at hshown
        cases hshown
      · rw [applies_of_not_excluded happs hexcluded, outcome_none, Option.isSome_map]
        rw [applies_of_not_excluded happs hexcluded] at hshown
        by_contra hresource
        rw [Option.not_isSome_iff_eq_none] at hresource
        obtain ⟨clients, hclients, hclient⟩ := (outcome_isSome _ hresource).1 hshown
        refine honly ⟨apps, clients, happs, hclients, hexcluded, ?_, hclient⟩
        rw [← resourceReason_isSome, hresource]
        exact Bool.false_ne_true

/-- A policy that blocks the service principal and lists another resource is shown for the principal,
and is hidden when its lookup failed. -/
theorem failed_lookup_hides_block :
    let app := "11111111-1111-1111-1111-111111111111".toList
    let sp := "33333333-3333-3333-3333-333333333333".toList
    let conditions : CaConditions :=
      ⟨some ⟨["22222222-2222-2222-2222-222222222222".toList], [], [], none⟩, some ⟨[sp], [], none⟩⟩
    applies conditions app (some sp) = some ("sp".toList, true) ∧ applies conditions app none = none ∧
      ¬ Keeps conditions app sp := by
  intro app sp conditions
  have hshown : applies conditions app (some sp) = some ("sp".toList, true) := by rfl
  have hhidden : applies conditions app none = none := by rfl
  refine ⟨hshown, hhidden, fun h => ?_⟩
  have := h.failedRead (by rw [hshown]; rfl)
  rw [hhidden] at this
  cases this

end ConditionalAccess
