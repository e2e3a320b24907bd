import AzAppToolkit.Definitions.Edits
import AzAppToolkit.Lib.Cuts

set_option autoImplicit false

/-! # What an edit keeps

Every edit of a well-formed array is well formed again, removes nothing that is enabled, and leaves alone
what it does not name. -/

namespace Definitions

open Text (eqIgnoreAsciiCase trim)
open Tester (UiError)

/-! ## Well-formed definitions -/

def ApplicationExposeApi.withScopes (info : ApplicationExposeApi) (scopes : List OAuth2PermissionScope) :
    ApplicationExposeApi := { info with api := { info.api with oauth2PermissionScopes := scopes } }

def ApplicationExposeApi.withClients (info : ApplicationExposeApi)
    (clients : List PreAuthorizedApplication) : ApplicationExposeApi :=
  { info with api := { info.api with preAuthorizedApplications := clients } }

structure WellFormedApi (info : ApplicationExposeApi) : Prop where
  scopeIds : (info.api.oauth2PermissionScopes.map OAuth2PermissionScope.id).Nodup
  scopeIdsPresent : [] ∉ info.api.oauth2PermissionScopes.map OAuth2PermissionScope.id
  scopeValues : info.api.oauth2PermissionScopes.Pairwise fun a b => ¬ eqIgnoreAsciiCase a.value b.value
  clients : info.api.preAuthorizedApplications.Pairwise fun a b => ¬ eqIgnoreAsciiCase a.appId b.appId
  grants : ∀ p ∈ info.api.preAuthorizedApplications,
    p.delegatedPermissionIds ≠ [] ∧ p.delegatedPermissionIds.Nodup ∧
      ∀ id ∈ p.delegatedPermissionIds,
        id ∈ info.api.oauth2PermissionScopes.map OAuth2PermissionScope.id
  uris : info.identifierUris.Pairwise fun a b => ¬ eqIgnoreAsciiCase (trim a) (trim b)

structure WellFormedRoles {N : Type} (roles : List (Json N)) : Prop where
  idsPresent : ∀ r ∈ roles, (roleId r).isSome
  ids : (roles.map roleId).Nodup
  values : roles.Pairwise fun a b => roleValue a ≠ [] → ¬ eqIgnoreAsciiCase (roleValue a) (roleValue b)

/-- The two lists are the same but for the elements named. -/
def SameApart {α : Type} (named : α → Bool) (l m : List α) : Prop :=
  m.filter (fun x => !named x) = l.filter fun x => !named x

/-! ## Changing one element -/

section Change

variable {α : Type} {p : α → Bool} {f : α → α} {R : α → α → Prop} {l : List α}

theorem changeFirst_split (f : α → α) (h : l.any p) :
    ∃ a x b, l = a ++ x :: b ∧ p x ∧ changeFirst p f l = a ++ f x :: b := by
  induction l with
  | nil => cases h
  | cons y l ih =>
    unfold changeFirst
    split
    · next hy => exact ⟨[], y, l, rfl, hy, rfl⟩
    · next hy =>
      rw [List.any_cons, Bool.eq_false_iff.2 hy, Bool.false_or] at h
      obtain ⟨a, x, b, rfl, hx, heq⟩ := ih h
      exact ⟨y :: a, x, b, rfl, hx, by rw [heq]; rfl⟩

theorem pairwise_replace {a b : List α} {x z : α} (h : (a ++ x :: b).Pairwise R)
    (hbefore : ∀ y ∈ a, R y z) (hafter : ∀ y ∈ b, R z y) : (a ++ z :: b).Pairwise R := by
  obtain ⟨ha, hxb, hcross⟩ := List.pairwise_append.1 h
  refine List.pairwise_append.2 ⟨ha, List.pairwise_cons.2 ⟨hafter, (List.pairwise_cons.1 hxb).2⟩, ?_⟩
  intro y hy w hw
  rcases List.mem_cons.1 hw with rfl | hw
  · exact hbefore y hy
  · exact hcross y hy w (List.mem_cons_of_mem x hw)

theorem pairwise_snoc {z : α} (h : l.Pairwise R) (hz : ∀ y ∈ l, R y z) : (l ++ [z]).Pairwise R := by
  refine List.pairwise_append.2 ⟨h, List.pairwise_singleton R z, fun y hy w hw => ?_⟩
  rw [List.mem_singleton.1 hw]
  exact hz y hy

theorem sameApart_replace {a b : List α} {x z : α} {named : α → Bool} (hx : named x) (hz : named z) :
    SameApart named (a ++ x :: b) (a ++ z :: b) := by
  simp [SameApart, hx, hz]

theorem sameApart_map {named : α → Bool} (hf : ∀ x, named (f x) = named x) (l : List α) :
    SameApart named l (l.map fun x => if named x then f x else x) := by
  unfold SameApart
  induction l with
  | nil => rfl
  | cons x l ih =>
    rw [List.map_cons]
    by_cases hx : named x
    · simp only [hx, if_true]
      rw [List.filter_cons_of_neg (by simp [hf, hx]), List.filter_cons_of_neg (by simp [hx]), ih]
    · simp only [hx, if_false, Bool.false_eq_true]
      rw [List.filter_cons_of_pos (by simp [hx]), List.filter_cons_of_pos (by simp [hx]), ih]

theorem sameApart_filter (named : α → Bool) (l : List α) :
    SameApart named l (l.filter fun x => !named x) := by
  unfold SameApart
  rw [List.filter_filter]
  simp

end Change

/-! ## Application ID URIs -/

section Uris

variable {live uris : List Text} {uri : Text}

/-- A valid URI has no whitespace, so it is its own trimmed form. -/
theorem trim_of_valid (h : validateIdentifierUri uri = .ok ()) : trim uri = uri := by
  unfold validateIdentifierUri at h
  split at h
  · cases h
  · split at h
    · cases h
    · next hspace =>
      refine Cuts.trimEnds_of_none fun c hc => ?_
      rw [Bool.not_eq_true, List.any_eq_false] at hspace
      exact Bool.eq_false_iff.2 (hspace c hc)

theorem planUriAdd_kept (h : planUriAdd live uri = .ok uris)
    (hlive : live.Pairwise fun a b => ¬ eqIgnoreAsciiCase (trim a) (trim b)) :
    (uris.Pairwise fun a b => ¬ eqIgnoreAsciiCase (trim a) (trim b)) ∧ ∃ u, uris = live ++ [u] := by
  unfold planUriAdd at h
  cases hvalid : validateIdentifierUri (trim uri) with
  | error e =>
    simp only [hvalid] at h
    cases h
  | ok _ =>
    simp only [hvalid] at h
    change (if _ then _ else _) = _ at h
    split at h
    · cases h
    · next hnew =>
      obtain rfl := Except.ok.inj h
      refine ⟨pairwise_snoc hlive fun u hu hsame => hnew ?_, trim uri, rfl⟩
      rw [trim_of_valid hvalid] at hsame
      exact List.any_eq_true.2 ⟨u, hu, hsame⟩

theorem planUriRemoval_kept (h : planUriRemoval live uri = some uris)
    (hlive : live.Pairwise fun a b => ¬ eqIgnoreAsciiCase (trim a) (trim b)) :
    (uris.Pairwise fun a b => ¬ eqIgnoreAsciiCase (trim a) (trim b)) ∧
      SameApart (fun u => eqIgnoreAsciiCase (trim u) (trim uri)) live uris := by
  unfold planUriRemoval at h
  dsimp only at h
  split at h
  · obtain rfl := Option.some.inj h
    exact ⟨hlive.filter _, sameApart_filter _ live⟩
  · cases h

end Uris

/-! ## Scopes and clients -/

section Scopes

variable {info : ApplicationExposeApi} {scopes : List OAuth2PermissionScope}
  {scope : OAuth2PermissionScope}

theorem find_id {l : List OAuth2PermissionScope} {id : Text}
    (h : l.any fun s => s.id == id) : ∃ s ∈ l, s.id = id := by
  obtain ⟨s, hs, hid⟩ := List.any_eq_true.1 h
  exact ⟨s, hs, beq_iff_eq.1 hid⟩

/-- No other scope has the value. -/
theorem value_new {l : List OAuth2PermissionScope}
    (h : ¬ l.any fun s => s.id != scope.id && eqIgnoreAsciiCase s.value scope.value) :
    ∀ s ∈ l, s.id ≠ scope.id → ¬ eqIgnoreAsciiCase s.value scope.value := by
  intro s hs hid hsame
  exact h (List.any_eq_true.2 ⟨s, hs, by rw [Bool.and_eq_true, bne_iff_ne]; exact ⟨hid, hsame⟩⟩)

theorem eqIgnoreAsciiCase_symm {a b : Text} (h : eqIgnoreAsciiCase a b) : eqIgnoreAsciiCase b a :=
  Text.eqIgnoreAsciiCase_iff.2 (Text.eqIgnoreAsciiCase_iff.1 h).symm

/-- Other scopes with all the ids there were. -/
theorem WellFormedApi.withScopes (h : WellFormedApi info) (hids : (scopes.map OAuth2PermissionScope.id).Nodup)
    (hpresent : [] ∉ scopes.map OAuth2PermissionScope.id)
    (hvalues : scopes.Pairwise fun a b => ¬ eqIgnoreAsciiCase a.value b.value)
    (hkept : ∀ id ∈ info.api.oauth2PermissionScopes.map OAuth2PermissionScope.id,
      id ∈ scopes.map OAuth2PermissionScope.id) : WellFormedApi (info.withScopes scopes) where
  scopeIds := hids
  scopeIdsPresent := hpresent
  scopeValues := hvalues
  clients := h.clients
  grants p hp := (h.grants p hp).imp_right fun hp => hp.imp_right fun hin id hid => hkept id (hin id hid)
  uris := h.uris

variable {clients : List PreAuthorizedApplication}

theorem WellFormedApi.withClients (h : WellFormedApi info)
    (hclients : clients.Pairwise fun a b => ¬ eqIgnoreAsciiCase a.appId b.appId)
    (hgrants : ∀ p ∈ clients, p.delegatedPermissionIds ≠ [] ∧ p.delegatedPermissionIds.Nodup ∧
      ∀ id ∈ p.delegatedPermissionIds,
        id ∈ info.api.oauth2PermissionScopes.map OAuth2PermissionScope.id) :
    WellFormedApi (info.withClients clients) where
  scopeIds := h.scopeIds
  scopeIdsPresent := h.scopeIdsPresent
  scopeValues := h.scopeValues
  clients := hclients
  grants := hgrants
  uris := h.uris

/-- An edit replaces the scope of the id. -/
theorem mergeScope_edit (h : mergeScope info.api.oauth2PermissionScopes scope true = .ok scopes)
    (hlive : WellFormedApi info) :
    WellFormedApi (info.withScopes scopes) ∧
      scopes.map OAuth2PermissionScope.id = info.api.oauth2PermissionScopes.map OAuth2PermissionScope.id ∧
      SameApart (fun s => s.id == scope.id) info.api.oauth2PermissionScopes scopes := by
  unfold mergeScope at h
  split at h
  · cases h
  · next hvalue =>
    rw [if_pos rfl] at h
    split at h
    · next hany =>
      obtain rfl := Except.ok.inj h
      obtain ⟨a, x, b, hsplit, hx, heq⟩ := changeFirst_split (fun _ => scope) hany
      have hx : x.id = scope.id := beq_iff_eq.1 hx
      have hids : (a ++ scope :: b).map OAuth2PermissionScope.id =
          info.api.oauth2PermissionScopes.map OAuth2PermissionScope.id := by
        rw [hsplit, List.map_append, List.map_append, List.map_cons, List.map_cons, hx]
      have hdistinct := hlive.scopeIds
      have hvalues := hlive.scopeValues
      rw [hsplit] at hdistinct hvalues
      have hother : ∀ s ∈ a ++ b, s.id ≠ scope.id := by
        intro s hs hid
        rw [List.map_append, List.map_cons, List.nodup_middle, List.nodup_cons] at hdistinct
        refine hdistinct.1 ?_
        rw [hx, ← hid, ← List.map_append]
        exact List.mem_map_of_mem hs
      have hnew := value_new hvalue
      rw [hsplit] at hnew
      rw [heq]
      refine ⟨hlive.withScopes ?_ ?_ ?_ ?_, hids, ?_⟩
      · rw [hids]
        exact hlive.scopeIds
      · rw [hids]
        exact hlive.scopeIdsPresent
      · refine pairwise_replace hvalues (fun s hs => ?_) fun s hs hsame => ?_
        · exact hnew s (by simp [hs]) (hother s (by simp [hs]))
        · exact hnew s (by simp [hs]) (hother s (by simp [hs])) (eqIgnoreAsciiCase_symm hsame)
      · rw [hids]
        exact fun id hid => hid
      · rw [hsplit]
        exact sameApart_replace (by simp [hx]) (by simp)
    · cases h

/-- A new scope goes to the end. -/
theorem mergeScope_new (h : mergeScope info.api.oauth2PermissionScopes scope false = .ok scopes)
    (hlive : WellFormedApi info) (hpresent : scope.id ≠ [])
    (hfresh : scope.id ∉ info.api.oauth2PermissionScopes.map OAuth2PermissionScope.id) :
    WellFormedApi (info.withScopes scopes) ∧
      scopes = info.api.oauth2PermissionScopes ++ [scope] := by
  unfold mergeScope at h
  split at h
  · cases h
  · next hvalue =>
    rw [if_neg Bool.false_ne_true] at h
    obtain rfl := Except.ok.inj h
    have hids : (info.api.oauth2PermissionScopes ++ [scope]).map OAuth2PermissionScope.id =
        info.api.oauth2PermissionScopes.map OAuth2PermissionScope.id ++ [scope.id] := by
      rw [List.map_append, List.map_singleton]
    refine ⟨hlive.withScopes ?_ ?_ ?_ ?_, rfl⟩
    · rw [hids]
      exact List.nodup_append_comm.1 (List.nodup_cons.2 ⟨hfresh, hlive.scopeIds⟩)
    · rw [hids, List.mem_append, List.mem_singleton, not_or]
      exact ⟨hlive.scopeIdsPresent, fun h => hpresent h.symm⟩
    · refine pairwise_snoc hlive.scopeValues fun s hs => value_new hvalue s hs fun hid => hfresh ?_
      rw [← hid]
      exact List.mem_map_of_mem hs
    · rw [hids]
      exact fun id hid => List.mem_append_left _ hid

/-- The scope disabled, and nothing else. -/
def disabledScope (scopeId : Text) (s : OAuth2PermissionScope) : OAuth2PermissionScope :=
  if s.id == scopeId then { s with isEnabled := some false } else s

theorem disabledScope_id (scopeId : Text) (s : OAuth2PermissionScope) :
    (disabledScope scopeId s).id = s.id := by
  unfold disabledScope
  split <;> rfl

theorem sameApart_disabledScope (scopeId : Text) (l : List OAuth2PermissionScope) :
    SameApart (fun s => s.id == scopeId) l (l.map (disabledScope scopeId)) :=
  sameApart_map (f := fun s => { s with isEnabled := some false }) (fun _ => rfl) l

theorem enabled_disabledScope {scopeId : Text} {l : List OAuth2PermissionScope}
    {s : OAuth2PermissionScope} (hs : s ∈ l.map (disabledScope scopeId)) (hid : s.id = scopeId) :
    s.enabled = false := by
  obtain ⟨o, -, rfl⟩ := List.mem_map.1 hs
  rw [disabledScope_id] at hid
  unfold disabledScope
  rw [if_pos (beq_iff_eq.2 hid)]
  rfl

/-- A client without the scope; one authorized for nothing else is gone. -/
def stripped (scopeId : Text) (list : List PreAuthorizedApplication) : List PreAuthorizedApplication :=
  (list.map fun p =>
    { p with delegatedPermissionIds := p.delegatedPermissionIds.filter fun id => id != scopeId }).filter
      fun p => !p.delegatedPermissionIds.isEmpty

theorem wellFormed_disabled (hlive : WellFormedApi info) (scopeId : Text) :
    WellFormedApi (info.withScopes (info.api.oauth2PermissionScopes.map (disabledScope scopeId))) := by
  have hsame : ∀ s, (disabledScope scopeId s).id = s.id ∧ (disabledScope scopeId s).value = s.value := by
    intro s
    unfold disabledScope
    split <;> exact ⟨rfl, rfl⟩
  have hids : (info.api.oauth2PermissionScopes.map (disabledScope scopeId)).map OAuth2PermissionScope.id =
      info.api.oauth2PermissionScopes.map OAuth2PermissionScope.id := by
    rw [List.map_map]
    exact List.map_congr_left fun s _ => (hsame s).1
  refine hlive.withScopes ?_ ?_ ?_ ?_
  · rw [hids]
    exact hlive.scopeIds
  · rw [hids]
    exact hlive.scopeIdsPresent
  · refine List.pairwise_map.2 (hlive.scopeValues.imp fun {a b} hab => ?_)
    rw [(hsame a).2, (hsame b).2]
    exact hab
  · rw [hids]
    exact fun id hid => hid

/-- Without the scope, and with the clients that are left. -/
theorem wellFormed_removed (hlive : WellFormedApi info) (scopeId : Text) : WellFormedApi { info with api :=
      ⟨info.api.oauth2PermissionScopes.filter fun s => s.id != scopeId,
        stripped scopeId info.api.preAuthorizedApplications⟩ } := by
  have hsub : ((info.api.oauth2PermissionScopes.filter fun s => s.id != scopeId).map
      OAuth2PermissionScope.id).Sublist (info.api.oauth2PermissionScopes.map OAuth2PermissionScope.id) :=
    List.filter_sublist.map _
  refine ⟨hlive.scopeIds.sublist hsub, fun h => hlive.scopeIdsPresent (hsub.subset h),
    hlive.scopeValues.filter _, ?_, fun p hp => ?_, hlive.uris⟩
  · exact (List.pairwise_map.2 (hlive.clients.imp fun h => h)).filter _
  · obtain ⟨hp, hne⟩ := List.mem_filter.1 hp
    obtain ⟨q, hq, rfl⟩ := List.mem_map.1 hp
    obtain ⟨-, hnodup, hin⟩ := hlive.grants q hq
    refine ⟨fun h => ?_, hnodup.filter _, fun id hid => ?_⟩
    · rw [h] at hne
      cases hne
    · obtain ⟨hid, hkept⟩ := List.mem_filter.1 hid
      obtain ⟨s, hs, rfl⟩ := List.mem_map.1 (hin id hid)
      exact List.mem_map_of_mem (List.mem_filter.2 ⟨hs, hkept⟩)

/-- A plan of a removal disables what is enabled first, then takes it away. -/
theorem planScopeRemoval_spec {api : ApiApplication} {scopeId : Text} {plan : ScopeRemoval}
    (h : planScopeRemoval api scopeId = some plan) :
    plan.scopes = (api.oauth2PermissionScopes.filter fun s => s.id != scopeId) ∧
      plan.preAuthorized = stripped scopeId api.preAuthorizedApplications ∧
      ∃ target ∈ api.oauth2PermissionScopes, target.id = scopeId ∧
        ((target.enabled = true ∧
          plan.disableFirst = some (api.oauth2PermissionScopes.map (disabledScope scopeId))) ∨
        (target.enabled = false ∧ plan.disableFirst = none)) := by
  obtain ⟨target, htarget, rfl⟩ := Option.map_eq_some_iff.1 h
  have hfound := List.find?_some htarget
  refine ⟨rfl, rfl, target, List.mem_of_find?_eq_some htarget, beq_iff_eq.1 hfound, ?_⟩
  cases henabled : target.enabled with
  | true => exact .inl ⟨rfl, rfl⟩
  | false => exact .inr ⟨rfl, rfl⟩

/-- The clients after the ids of one are set. -/
theorem wellFormed_upsertPreAuthorized (hlive : WellFormedApi info) (clientAppId : Text)
    {scopeIds : List Text} (hne : scopeIds ≠ []) (hnodup : scopeIds.Nodup)
    (hin : ∀ id ∈ scopeIds, id ∈ info.api.oauth2PermissionScopes.map OAuth2PermissionScope.id) :
    WellFormedApi (info.withClients
        (upsertPreAuthorized info.api.preAuthorizedApplications clientAppId scopeIds)) ∧
      SameApart (fun p => eqIgnoreAsciiCase p.appId clientAppId) info.api.preAuthorizedApplications
        (upsertPreAuthorized info.api.preAuthorizedApplications clientAppId scopeIds) := by
  unfold upsertPreAuthorized
  split
  · next hany =>
    obtain ⟨a, x, b, hsplit, hx, heq⟩ :=
      changeFirst_split (fun p => { p with delegatedPermissionIds := scopeIds }) hany
    have hclients := hlive.clients
    rw [hsplit] at hclients
    rw [heq]
    refine ⟨hlive.withClients ?_ fun p hp => ?_, ?_⟩
    · obtain ⟨-, hxb, hcross⟩ := List.pairwise_append.1 hclients
      exact pairwise_replace hclients (fun y hy => hcross y hy x List.mem_cons_self)
        fun y hy => (List.pairwise_cons.1 hxb).1 y hy
    · have hmem : p ∈ info.api.preAuthorizedApplications ∨ p = ⟨x.appId, scopeIds⟩ := by
        rw [hsplit]
        rcases List.mem_append.1 hp with hp | hp
        · exact .inl (List.mem_append_left _ hp)
        · rcases List.mem_cons.1 hp with rfl | hp
          · exact .inr rfl
          · exact .inl (List.mem_append_right _ (List.mem_cons_of_mem x hp))
      rcases hmem with hmem | rfl
      · exact hlive.grants p hmem
      · exact ⟨hne, hnodup, hin⟩
    · rw [hsplit]
      exact sameApart_replace hx hx
  · next hnone =>
    refine ⟨hlive.withClients ?_ fun p hp => ?_, ?_⟩
    · exact pairwise_snoc hlive.clients fun p hp hsame => hnone (List.any_eq_true.2 ⟨p, hp, hsame⟩)
    · rcases List.mem_append.1 hp with hp | hp
      · exact hlive.grants p hp
      · rw [List.mem_singleton.1 hp]
        exact ⟨hne, hnodup, hin⟩
    · simp [SameApart, Text.eqIgnoreAsciiCase_refl]

theorem nodup_scopeIdsOf (input : SetPreAuthorizedAppInput) : (scopeIdsOf input).Nodup :=
  (Text.dedup_strict (Text.sort_sorted input.scopeIds)).imp fun h => ne_of_lt h

theorem planPreAuthorized_kept {input : SetPreAuthorizedAppInput}
    (hinput : validatePreAuthorizedInput input = .ok ())
    (h : planPreAuthorized info.api input = .ok clients) (hlive : WellFormedApi info) :
    WellFormedApi (info.withClients clients) ∧
      SameApart (fun p => eqIgnoreAsciiCase p.appId (trim input.clientAppId))
        info.api.preAuthorizedApplications clients := by
  have hne : scopeIdsOf input ≠ [] := by
    intro hnil
    unfold validatePreAuthorizedInput at hinput
    split at hinput
    · cases hinput
    · rw [hnil] at hinput
      cases hinput
  unfold planPreAuthorized at h
  split at h
  · cases h
  · next hknown =>
    obtain rfl := Except.ok.inj h
    refine wellFormed_upsertPreAuthorized hlive _ hne (nodup_scopeIdsOf input) fun id hid => ?_
    have hany := List.find?_eq_none.1 hknown id hid
    rw [Bool.not_eq_true', Bool.not_eq_false] at hany
    obtain ⟨s, hs, rfl⟩ := find_id hany
    exact List.mem_map_of_mem hs

theorem planPreAuthorizedRemoval_kept {clientAppId : Text}
    (h : planPreAuthorizedRemoval info.api.preAuthorizedApplications clientAppId = some clients)
    (hlive : WellFormedApi info) :
    WellFormedApi (info.withClients clients) ∧
      SameApart (fun p => eqIgnoreAsciiCase p.appId clientAppId) info.api.preAuthorizedApplications
        clients := by
  unfold planPreAuthorizedRemoval at h
  dsimp only at h
  split at h
  · cases h
  · obtain rfl := Option.some.inj h
    exact ⟨hlive.withClients (hlive.clients.filter _)
      fun p hp => hlive.grants p (List.mem_filter.1 hp).1, sameApart_filter _ _⟩

end Scopes

/-! ## App roles -/

section Roles

variable {N : Type} {roles merged : List (Json N)} {input : AppRoleInput}

/-- The keys that an edit of a role writes. -/
def inputKeys : List Text :=
  ["displayName".toList, "description".toList, "value".toList, "allowedMemberTypes".toList,
    "isEnabled".toList]

/-- A role that was there has what it had, but under the keys. -/
def KeysKept (keys : List Text) (live body : List (Json N)) : Prop :=
  ∀ r ∈ live, ∀ r' ∈ body, roleId r' = roleId r → ∀ key ∉ keys, r'.get key = r.get key

theorem lookup_applyInput {key : Text} (h : key ∉ inputKeys) (fields : List (Text × Json N))
    (input : AppRoleInput) : Json.lookup key (applyInput fields input) = Json.lookup key fields := by
  unfold inputKeys at h
  rw [List.mem_cons, List.mem_cons, List.mem_cons, List.mem_cons, List.mem_singleton, not_or, not_or,
    not_or, not_or] at h
  obtain ⟨hname, hdescription, hvalue, htypes, henabled⟩ := h
  unfold applyInput
  rw [Json.lookup_insert, if_neg (Ne.symm henabled), Json.lookup_insert, if_neg (Ne.symm htypes),
    Json.lookup_insert, if_neg (Ne.symm hvalue), Json.lookup_insert, if_neg (Ne.symm hdescription),
    Json.lookup_insert, if_neg (Ne.symm hname)]

theorem roleId_applyInput (fields : List (Text × Json N)) (input : AppRoleInput) :
    roleId (.object (applyInput fields input)) = roleId (.object fields) := by
  unfold roleId
  rw [Json.get, Json.get, lookup_applyInput (by decide)]

theorem roleValue_applyInput (fields : List (Text × Json N)) (input : AppRoleInput) :
    roleValue (.object (applyInput fields input)) = trim input.value := by
  unfold roleValue applyInput
  rw [Json.get, Json.lookup_insert, if_neg (by decide), Json.lookup_insert, if_neg (by decide),
    Json.lookup_insert, if_pos rfl]
  rfl

/-- A valid value is not empty, and has no space to trim. -/
theorem valid_value (h : validateRoleInput input = .ok ()) :
    trim input.value ≠ [] ∧ trim (trim input.value) = trim input.value := by
  unfold validateRoleInput at h
  dsimp only at h
  split at h
  · cases h
  · split at h
    · cases h
    · split at h
      · cases h
      · next hempty =>
        split at h
        · cases h
        · split at h
          · cases h
          · next hspace =>
            refine ⟨fun hnil => hempty (by rw [hnil]; rfl), Cuts.trimEnds_of_none fun c hc => ?_⟩
            rw [Bool.not_eq_true, List.any_eq_false] at hspace
            exact Bool.eq_false_iff.2 (hspace c hc)

/-- A role that an edit wrote has a value. -/
theorem not_isBuiltin_applyInput (h : validateRoleInput input = .ok ()) (fields : List (Text × Json N)) :
    isBuiltin (.object (applyInput fields input)) = false := by
  unfold isBuiltin
  rw [roleValue_applyInput, (valid_value h).2]
  exact Bool.eq_false_iff.2 fun hempty => (valid_value h).1 (List.isEmpty_iff.1 hempty)

theorem eq_of_roleId (hlive : WellFormedRoles roles) {r r' : Json N} (hr : r ∈ roles) (hr' : r' ∈ roles)
    (h : roleId r = roleId r') : r = r' := List.inj_on_of_nodup_map hlive.ids hr hr' h

theorem keysKept_refl (hlive : WellFormedRoles roles) (keys : List Text) : KeysKept keys roles roles := by
  intro r hr r' hr' hid key _
  rw [eq_of_roleId hlive hr' hr hid]

/-- No other role has the value of the input. -/
theorem roleValue_new {id : Option Text}
    (h : ¬ roles.any fun r => roleId r != id && eqIgnoreAsciiCase (roleValue r) (trim input.value)) :
    ∀ r ∈ roles, roleId r ≠ id → ¬ eqIgnoreAsciiCase (roleValue r) (trim input.value) := by
  intro r hr hid hsame
  exact h (List.any_eq_true.2 ⟨r, hr, by rw [Bool.and_eq_true, bne_iff_ne]; exact ⟨hid, hsame⟩⟩)

/-- What an upsert leaves of the live roles. -/
structure RolesMerged (id : Option Text) (live body : List (Json N)) : Prop where
  wellFormed : WellFormedRoles body
  builtins : body.filter isBuiltin = live.filter isBuiltin
  kept : ∀ r ∈ live, roleId r ∈ body.map roleId
  others : match id with
    | none => ∃ r, body = live ++ [r]
    | some id => SameApart (fun r => roleId r == some id) live body
  keys : KeysKept inputKeys live body

theorem mergeRole_new {new : Text} (hinput : validateRoleInput input = .ok ())
    (h : mergeRole new roles input none = .ok merged) (hlive : WellFormedRoles roles)
    (hfresh : some new ∉ roles.map roleId) : RolesMerged none roles merged := by
  unfold mergeRole at h
  dsimp only at h
  split at h
  · cases h
  · next hvalue =>
    obtain rfl := Except.ok.inj h
    have hid : roleId (.object (applyInput (Json.insert "id".toList (.string new) []) input) : Json N) =
        some new := by
      rw [roleId_applyInput]
      rfl
    generalize hx : (Json.object (applyInput (Json.insert "id".toList (.string new) []) input) : Json N) = x
      at hid ⊢
    have hbuiltin : isBuiltin x = false := by
      rw [← hx]
      exact not_isBuiltin_applyInput hinput _
    have hxvalue : roleValue x = trim input.value := by
      rw [← hx]
      exact roleValue_applyInput _ _
    have hother : ∀ r ∈ roles, roleId r ≠ some new := by
      intro r hr heq
      exact hfresh (heq ▸ List.mem_map_of_mem hr)
    refine ⟨⟨fun r hr => ?_, ?_, ?_⟩, ?_, fun r hr => ?_, ⟨x, rfl⟩, ?_⟩
    · rcases List.mem_append.1 hr with hr | hr
      · exact hlive.idsPresent r hr
      · rw [List.mem_singleton.1 hr, hid]
        rfl
    · rw [List.map_append, List.map_singleton, hid]
      exact List.nodup_append_comm.1 (List.nodup_cons.2 ⟨hfresh, hlive.ids⟩)
    · refine pairwise_snoc hlive.values fun r hr _ hsame => ?_
      rw [hxvalue] at hsame
      refine roleValue_new hvalue r hr (fun hnone => ?_) hsame
      have := hlive.idsPresent r hr
      rw [hnone] at this
      cases this
    · rw [List.filter_append, List.filter_cons_of_neg (by rw [hbuiltin]; exact Bool.false_ne_true),
        List.filter_nil, List.append_nil]
    · rw [List.map_append]
      exact List.mem_append_left _ (List.mem_map_of_mem hr)
    · intro r hr r' hr' hsame key hkey
      rcases List.mem_append.1 hr' with hr' | hr'
      · exact keysKept_refl hlive inputKeys r hr r' hr' hsame key hkey
      · rw [List.mem_singleton.1 hr', hid] at hsame
        exact absurd hsame.symm (hother r hr)

theorem mergeRole_edit {new id : Text} (hinput : validateRoleInput input = .ok ())
    (h : mergeRole new roles input (some id) = .ok merged) (hlive : WellFormedRoles roles) :
    RolesMerged (some id) roles merged := by
  unfold mergeRole at h
  dsimp only at h
  split at h
  · cases h
  · next hvalue =>
    split at h
    · cases h
    · next target htarget =>
      split at h
      · cases h
      · next hcustom =>
        split at h
        · cases h
        · next fields hfields =>
          obtain rfl := Except.ok.inj h
          have hmem := List.mem_of_find?_eq_some htarget
          have htid := List.find?_some htarget
          obtain rfl : target = .object fields := by
            cases target <;> simp_all [Json.asObject]
          have hany : roles.any fun r => roleId r == some id := List.any_eq_true.2 ⟨_, hmem, htid⟩
          obtain ⟨a, x, b, hsplit, hx, heq⟩ :=
            changeFirst_split (fun _ => Json.object (applyInput fields input)) hany
          have hxid : roleId x = some id := beq_iff_eq.1 hx
          have htid : roleId (Json.object fields) = some id := beq_iff_eq.1 htid
          obtain rfl : x = .object fields :=
            eq_of_roleId hlive (by rw [hsplit]; simp) hmem (hxid.trans htid.symm)
          have hyid : roleId (Json.object (applyInput fields input)) = some id := by
            rw [roleId_applyInput]
            exact htid
          have hyvalue := roleValue_applyInput fields input
          have hybuiltin := not_isBuiltin_applyInput hinput fields
          have hykeys : ∀ key ∉ inputKeys,
              (Json.object (applyInput fields input)).get key = (Json.object fields).get key :=
            fun key hkey => lookup_applyInput hkey fields input
          rw [heq]
          generalize Json.object (applyInput fields input) = y at hyid hyvalue hybuiltin hykeys ⊢
          have hids : (a ++ y :: b).map roleId = roles.map roleId := by
            rw [hsplit, List.map_append, List.map_append, List.map_cons, List.map_cons, hyid, htid]
          have hdistinct := hlive.ids
          have hvalues := hlive.values
          rw [hsplit] at hdistinct hvalues
          have hother : ∀ r ∈ a ++ b, roleId r ≠ some id := by
            intro r hr heq'
            rw [List.map_append, List.map_cons, List.nodup_middle, List.nodup_cons] at hdistinct
            refine hdistinct.1 ?_
            rw [htid, ← heq', ← List.map_append]
            exact List.mem_map_of_mem hr
          have hnew := roleValue_new hvalue
          rw [hsplit] at hnew
          refine ⟨⟨fun r hr => ?_, ?_, ?_⟩, ?_, fun r hr => ?_, ?_, ?_⟩
          · rcases List.mem_append.1 hr with hr | hr
            · exact hlive.idsPresent r (by rw [hsplit]; simp [hr])
            · rcases List.mem_cons.1 hr with rfl | hr
              · rw [hyid]
                rfl
              · exact hlive.idsPresent r (by rw [hsplit]; simp [hr])
          · rw [hids]
            exact hlive.ids
          · refine pairwise_replace hvalues (fun r hr _ => ?_) fun r hr _ hsame => ?_
            · rw [hyvalue]
              exact hnew r (by simp [hr]) (hother r (by simp [hr]))
            · rw [hyvalue] at hsame
              exact hnew r (by simp [hr]) (hother r (by simp [hr])) (eqIgnoreAsciiCase_symm hsame)
          · rw [hsplit, List.filter_append, List.filter_append,
              List.filter_cons_of_neg (by rw [hybuiltin]; exact Bool.false_ne_true),
              List.filter_cons_of_neg hcustom]
          · rw [hids]
            exact List.mem_map_of_mem hr
          · rw [hsplit]
            exact sameApart_replace (by simp [htid]) (by simp [hyid])
          · intro r hr r' hr' hsame key hkey
            rcases List.mem_append.1 hr' with hr' | hr'
            · exact keysKept_refl hlive inputKeys r hr r' (by rw [hsplit]; simp [hr']) hsame key hkey
            · rcases List.mem_cons.1 hr' with rfl | hr'
              · rw [hykeys key hkey, eq_of_roleId hlive hr hmem (by rw [← hsame, hyid, htid])]
              · exact keysKept_refl hlive inputKeys r hr r' (by rw [hsplit]; simp [hr']) hsame key hkey

/-! ## Removing a role -/

/-- The role disabled, and no other. -/
def disabledRole (id : Text) (r : Json N) : Json N := if roleId r == some id then disabled r else r

theorem disabled_get (r : Json N) {key : Text} (h : key ≠ "isEnabled".toList) :
    (disabled r).get key = r.get key := by
  cases r with
  | object fields =>
    change Json.lookup key (Json.insert _ _ fields) = Json.lookup key fields
    rw [Json.lookup_insert, if_neg (Ne.symm h)]
  | _ => rfl

theorem disabledRole_get (id : Text) (r : Json N) {key : Text} (h : key ≠ "isEnabled".toList) :
    (disabledRole id r).get key = r.get key := by
  unfold disabledRole
  split
  · exact disabled_get r h
  · rfl

theorem disabledRole_id (id : Text) (r : Json N) : roleId (disabledRole id r) = roleId r := by
  unfold roleId
  rw [disabledRole_get id r (by decide)]

theorem disabledRole_value (id : Text) (r : Json N) : roleValue (disabledRole id r) = roleValue r := by
  unfold roleValue
  rw [disabledRole_get id r (by decide)]

/-- A role with an id is an object, and is disabled once its field says so. -/
theorem roleEnabled_disabledRole {id : Text} {r : Json N} (h : roleId r = some id) :
    roleEnabled (disabledRole id r) = false := by
  unfold disabledRole
  rw [if_pos (beq_iff_eq.2 h)]
  cases r with
  | object fields =>
    change (((Json.lookup _ (Json.insert _ _ fields)).bind Json.asBool).getD true) = false
    rw [Json.lookup_insert, if_pos rfl]
    rfl
  | _ => cases h

theorem wellFormed_disabledRole (hlive : WellFormedRoles roles) (id : Text) :
    WellFormedRoles (roles.map (disabledRole id)) := by
  refine ⟨fun r hr => ?_, ?_, ?_⟩
  · obtain ⟨o, ho, rfl⟩ := List.mem_map.1 hr
    rw [disabledRole_id]
    exact hlive.idsPresent o ho
  · rw [List.map_map]
    have hids : roleId ∘ disabledRole id = (roleId : Json N → Option Text) := by
      funext r
      exact disabledRole_id id r
    rw [hids]
    exact hlive.ids
  · refine List.pairwise_map.2 (hlive.values.imp fun {a b} hab => ?_)
    rw [disabledRole_value, disabledRole_value]
    exact hab

theorem wellFormed_removedRole (hlive : WellFormedRoles roles) (id : Text) :
    WellFormedRoles (roles.filter fun r => roleId r != some id) :=
  ⟨fun r hr => hlive.idsPresent r (List.mem_filter.1 hr).1, hlive.ids.sublist (List.filter_sublist.map _),
    hlive.values.filter _⟩

theorem sameApart_disabledRole (id : Text) (roles : List (Json N)) :
    SameApart (fun r => roleId r == some id) roles (roles.map (disabledRole id)) := by
  refine sameApart_map (f := disabled) (fun r => ?_) roles
  unfold roleId
  rw [disabled_get r (by decide)]

theorem planRoleRemoval_spec {id : Text} {plan : RoleRemoval N}
    (h : planRoleRemoval roles id = .ok (some plan)) :
    plan.roles = (roles.filter fun r => roleId r != some id) ∧
      ∃ target ∈ roles, roleId target = some id ∧ isBuiltin target = false ∧
        ((roleEnabled target = true ∧ plan.disableFirst = some (roles.map (disabledRole id))) ∨
        (roleEnabled target = false ∧ plan.disableFirst = none)) := by
  unfold planRoleRemoval at h
  split at h
  · cases h
  · next target htarget =>
    split at h
    · cases h
    · next hcustom =>
      obtain rfl := Option.some.inj (Except.ok.inj h)
      have hid := List.find?_some htarget
      refine ⟨rfl, target, List.mem_of_find?_eq_some htarget, beq_iff_eq.1 hid,
        Bool.eq_false_iff.2 hcustom, ?_⟩
      cases henabled : roleEnabled target with
      | true => exact .inl ⟨rfl, rfl⟩
      | false => exact .inr ⟨rfl, rfl⟩

/-- Neither half of a removal changes a role without a value. -/
theorem builtins_removal (hlive : WellFormedRoles roles) {id : Text} {target : Json N}
    (htarget : target ∈ roles) (hid : roleId target = some id) (hcustom : isBuiltin target = false) :
    (roles.map (disabledRole id)).filter isBuiltin = roles.filter isBuiltin ∧
      (roles.filter fun r => roleId r != some id).filter isBuiltin = roles.filter isBuiltin := by
  have hother : ∀ r ∈ roles, isBuiltin r = true → roleId r ≠ some id := by
    intro r hr hbuiltin heq
    rw [eq_of_roleId hlive hr htarget (heq.trans hid.symm), hcustom] at hbuiltin
    cases hbuiltin
  have hsame : ∀ r : Json N, isBuiltin (disabledRole id r) = isBuiltin r := by
    intro r
    unfold isBuiltin
    rw [disabledRole_value]
  constructor
  · rw [List.filter_map]
    have hpred : isBuiltin ∘ disabledRole id = (isBuiltin : Json N → Bool) := funext hsame
    rw [hpred]
    conv_rhs => rw [← List.map_id (roles.filter isBuiltin)]
    refine List.map_congr_left fun r hr => ?_
    obtain ⟨hr, hbuiltin⟩ := List.mem_filter.1 hr
    exact if_neg (by rw [beq_iff_eq]; exact hother r hr hbuiltin)
  · rw [List.filter_filter]
    refine List.filter_congr fun r hr => ?_
    cases hbuiltin : isBuiltin r with
    | false => rfl
    | true => simp [hother r hr hbuiltin]

end Roles

end Definitions
