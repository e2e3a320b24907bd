import AzAppToolkit.Tester.Site

set_option autoImplicit false

/-! # What the SharePoint verdict says

The application reaches a resource by an org-wide grant, or by an entry on the chain at a level that one
of its Selected scopes accepts. The test answers so exactly if the index of SharePoint Online does not
hide an org-wide grant and the nearest entry does not hide an accepted one. -/

namespace Tester

open Exchange (microsoftGraphAppId)
open Audit (office365SharePointOnlineAppId isSharepointOrgwide isSharepointOrgwidePermission)
open Sweeps (SitePermission)

/-! ## What is there -/

/-- The permission entries of a site, its lists and their items. -/
structure SiteState where
  itemPermissions : (siteId listId itemId : Text) → List SelectedPermission
  listPermissions : (siteId listId : Text) → List SelectedPermission
  sitePermissions : (siteId : Text) → List SitePermission

/-- The levels from the resource up, and the roles of the entries there that name the application. -/
def SiteState.chain (site : SiteState) (resolved : ResolvedSharePointResource) (appId : Text) :
    List (SelectedScopeLevel × List Text) :=
  (match resolved.listId, resolved.itemId with
    | some listId, some itemId =>
      [(resolved.level, namedRoles (site.itemPermissions resolved.siteId listId itemId) appId)]
    | _, _ => []) ++
  (match resolved.listId with
    | some listId => [(.list, namedRoles (site.listPermissions resolved.siteId listId) appId)]
    | none => []) ++
  [(.site, siteNamedRoles (site.sitePermissions resolved.siteId) appId)]

section World

variable (dir : Directory) (site : SiteState) (resolved : ResolvedSharePointResource) (appId : Text)

def OrgWideHeld : Prop :=
  ∃ resource value, dir.Holds office365SharePointOnlineAppId resource value ∧ isSharepointOrgwide value = true

/-- The application holds a Selected scope that accepts an entry at `level`. -/
def Accepted (level : SelectedScopeLevel) : Prop :=
  ∃ resource value scope, dir.Holds office365SharePointOnlineAppId resource value ∧
    selectedScopeLevelFor (some resource) value = some scope ∧ selectedScopeAccepts scope level = true

/-- An entry on the chain names the application with a role, and a scope accepts its level. -/
def EntryReaches : Prop :=
  ∃ entry ∈ site.chain resolved appId, entry.2 ≠ [] ∧ Accepted dir entry.1

/-- What the verdict is to say. -/
structure VerdictTrue (verdict : AccessVerdict) : Prop where
  noAccess : verdict = .noAccess → ¬ OrgWideHeld dir ∧ ¬ EntryReaches dir site resolved appId
  confined : verdict = .scoped → EntryReaches dir site resolved appId ∧ ¬ OrgWideHeld dir
  orgWide : verdict = .orgWide → OrgWideHeld dir

/-- The nearest entry is at a level that no scope accepts, and a farther one is accepted. -/
def NearestHides : Prop :=
  ∃ entry, (site.chain resolved appId).find? (fun e => !e.2.isEmpty) = some entry ∧
    ¬ Accepted dir entry.1 ∧ EntryReaches dir site resolved appId

/-- The org-wide grants are all on SharePoint Online, and its index could not be read. -/
def IndexHides (reads : RoleReads) : Prop :=
  (∃ err, reads.extraSp = .error err) ∧ OrgWideHeld dir ∧
    ¬ ∃ value, dir.Holds office365SharePointOnlineAppId microsoftGraphAppId value ∧
      isSharepointOrgwide value = true

end World

def SiteGrantsUnread (reads : RoleReads) : Prop :=
  ∃ err, reads.held office365SharePointOnlineAppId = .error err

/-- Each read fails or tells the truth. -/
structure SiteReads.Truthful (reads : SiteReads) (dir : Directory) (site : SiteState) : Prop where
  roles : reads.roles.Truthful dir
  items : ∀ siteId listId itemId,
    Answers (reads.itemPermissions siteId listId itemId) (site.itemPermissions siteId listId itemId)
  lists : ∀ siteId listId, Answers (reads.listPermissions siteId listId) (site.listPermissions siteId listId)
  sites : ∀ siteId, Answers (reads.sitePermissions siteId) (site.sitePermissions siteId)

/-! ## The walk -/

section Walk

variable {reads : SiteReads} {dir : Directory} {site : SiteState} {resolved : ResolvedSharePointResource}
  {appId : Text} {hit : Option EntryHit}

theorem sorted_isEmpty (l : List Text) : (Text.dedup (Text.sort l)).isEmpty = l.isEmpty := by
  rw [Bool.eq_iff_iff, List.isEmpty_iff, List.isEmpty_iff, List.eq_nil_iff_forall_not_mem,
    List.eq_nil_iff_forall_not_mem]
  simp only [Text.mem_dedup, Text.mem_sort]

theorem findSiteEntry_level (htruth : reads.Truthful dir site)
    (h : findSiteEntry reads resolved appId = .ok hit) :
    hit.map (·.level) = ([(SelectedScopeLevel.site,
      siteNamedRoles (site.sitePermissions resolved.siteId) appId)].find? (fun e => !e.2.isEmpty)).map (·.1) := by
  unfold findSiteEntry at h
  cases hperms : reads.sitePermissions resolved.siteId with
  | error err => simp [hperms] at h
  | ok perms =>
    rw [← htruth.sites _ _ hperms]
    simp only [hperms, sorted_isEmpty] at h
    split at h
    · next hempty =>
      rw [← Except.ok.inj h, List.find?_cons_of_neg (by simp [hempty])]
      rfl
    · next hempty =>
      rw [← Except.ok.inj h, List.find?_cons_of_pos (by simpa using hempty)]
      rfl

/-- A securable below the site has an entry of its own, or leaves it to the ones above. -/
theorem rolesForApp_eq (perms : List SelectedPermission) (appId : Text) :
    (namedRoles perms appId = [] ∧ rolesForApp perms appId = none) ∨
    (namedRoles perms appId ≠ [] ∧ ∃ roles, rolesForApp perms appId = some roles) := by
  unfold rolesForApp
  by_cases hempty : namedRoles perms appId = []
  · exact .inl ⟨hempty, by simp [hempty]⟩
  · exact .inr ⟨hempty, _, if_neg (by simpa using hempty)⟩

theorem findListEntry_level (htruth : reads.Truthful dir site)
    (h : findListEntry reads resolved appId = .ok hit) :
    hit.map (·.level) = (((match resolved.listId with
      | some listId => [(SelectedScopeLevel.list,
          namedRoles (site.listPermissions resolved.siteId listId) appId)]
      | none => []) ++ [(SelectedScopeLevel.site,
      siteNamedRoles (site.sitePermissions resolved.siteId) appId)]).find? (fun e => !e.2.isEmpty)).map (·.1) := by
  unfold findListEntry at h
  cases hlist : resolved.listId with
  | none =>
    simp only [hlist] at h
    exact findSiteEntry_level htruth h
  | some listId =>
    cases hperms : reads.listPermissions resolved.siteId listId with
    | error err => simp [hlist, hperms] at h
    | ok perms =>
      simp only [hlist, hperms] at h ⊢
      rw [← htruth.lists _ _ _ hperms, List.singleton_append]
      rcases rolesForApp_eq perms appId with ⟨hempty, hroles⟩ | ⟨hne, roles, hroles⟩
      · rw [hroles] at h
        rw [List.find?_cons_of_neg (by simp [hempty])]
        exact findSiteEntry_level htruth h
      · rw [hroles] at h
        rw [← Except.ok.inj h, List.find?_cons_of_pos (by simpa using hne)]
        rfl

/-- The walk stops at the nearest level with an entry. -/
theorem findEntryInChain_level (htruth : reads.Truthful dir site)
    (h : findEntryInChain reads resolved appId = .ok hit) :
    hit.map (·.level) =
      ((site.chain resolved appId).find? (fun e => !e.2.isEmpty)).map (·.1) := by
  have hlists : findListEntry reads resolved appId = .ok hit → hit.map (·.level) =
      ((([] : List (SelectedScopeLevel × List Text)) ++ (match resolved.listId with
        | some listId => [(SelectedScopeLevel.list,
            namedRoles (site.listPermissions resolved.siteId listId) appId)]
        | none => []) ++ [(SelectedScopeLevel.site,
        siteNamedRoles (site.sitePermissions resolved.siteId) appId)]).find? (fun e => !e.2.isEmpty)).map (·.1) := by
    rw [List.nil_append]
    exact findListEntry_level htruth
  unfold findEntryInChain at h
  unfold SiteState.chain
  cases hlist : resolved.listId with
  | none =>
    simp only [hlist] at h hlists ⊢
    exact hlists h
  | some listId =>
    cases hitem : resolved.itemId with
    | none =>
      simp only [hlist, hitem] at h hlists ⊢
      exact hlists h
    | some itemId =>
      cases hperms : reads.itemPermissions resolved.siteId listId itemId with
      | error err => simp [hlist, hitem, hperms] at h
      | ok perms =>
        simp only [hlist, hitem, hperms] at h hlists ⊢
        rw [← htruth.items _ _ _ _ hperms, List.append_assoc, List.singleton_append]
        rcases rolesForApp_eq perms appId with ⟨hempty, hroles⟩ | ⟨hne, roles, hroles⟩
        · rw [hroles] at h
          rw [List.find?_cons_of_neg (by simp [hempty])]
          exact hlists h
        · rw [hroles] at h
          rw [← Except.ok.inj h, List.find?_cons_of_pos (by simpa using hne)]
          rfl

end Walk

/-! ## The grants -/

section Grants

variable {dir : Directory} {reads : RoleReads} {held : HeldSharePointGrants}

theorem isSharepointOrgwide_of_selected {resource : Option Text} {value : Text} {scope : SelectedScopeLevel}
    (h : selectedScopeLevelFor resource value = some scope) : isSharepointOrgwide value = false := by
  unfold selectedScopeLevelFor at h
  split_ifs at h with _ hsite hlist hitem hfile
  · rw [hsite]; decide
  · rw [hlist]; decide
  · rw [hitem]; decide
  · rw [hfile]; decide

theorem graph_of_selected {resource value : Text} {scope : SelectedScopeLevel}
    (h : selectedScopeLevelFor (some resource) value = some scope) : resource = microsoftGraphAppId := by
  unfold selectedScopeLevelFor at h
  by_contra hne
  rw [if_pos (fun heq => hne (Option.some.inj heq))] at h
  exact absurd h.symm (Option.some_ne_none scope)

/-- Both resources a grant can be on reach every site. -/
theorem orgwide_of_holds {resource value : Text}
    (h : dir.Holds office365SharePointOnlineAppId resource value) :
    isSharepointOrgwidePermission (some resource) value = isSharepointOrgwide value := by
  obtain ⟨_, _, _, _, _, ⟨-, hresource⟩ | ⟨-, hresource⟩, -, -⟩ := h
  · rw [hresource]
    exact if_pos (.inl rfl)
  · rw [hresource]
    exact if_pos (.inr (.inl rfl))

theorem holds_graph_seen {value : Text} :
    (dir.seen reads).Holds office365SharePointOnlineAppId microsoftGraphAppId value ↔
      dir.Holds office365SharePointOnlineAppId microsoftGraphAppId value := by
  cases hextra : reads.extraSp with
  | ok sp => rw [seen_ok hextra]
  | error err =>
    have hne : microsoftGraphAppId ≠ office365SharePointOnlineAppId := by decide
    rw [holds_seen_error hextra]
    unfold Directory.Holds
    simp [hne]

theorem orgWideHeld_seen : OrgWideHeld (dir.seen reads) ↔ OrgWideHeld dir ∧ ¬ IndexHides dir reads := by
  cases hextra : reads.extraSp with
  | ok sp =>
    rw [seen_ok hextra]
    refine (and_iff_left ?_).symm
    rintro ⟨⟨err, herr⟩, -⟩
    rw [hextra] at herr
    cases herr
  | error err =>
    have hgraph : OrgWideHeld (dir.seen reads) ↔
        ∃ value, dir.Holds office365SharePointOnlineAppId microsoftGraphAppId value ∧
          isSharepointOrgwide value = true := by
      constructor
      · rintro ⟨resource, value, hholds, horg⟩
        obtain ⟨_, _, _, _, _, ⟨_, hresource⟩, _⟩ := (holds_seen_error hextra).1 hholds
        subst hresource
        exact ⟨value, holds_graph_seen.1 hholds, horg⟩
      · rintro ⟨value, hholds, horg⟩
        exact ⟨_, value, holds_graph_seen.2 hholds, horg⟩
    rw [hgraph]
    constructor
    · rintro ⟨value, hholds, horg⟩
      exact ⟨⟨_, value, hholds, horg⟩, fun hhides => hhides.2.2 ⟨value, hholds, horg⟩⟩
    · rintro ⟨hheld, hhides⟩
      by_contra hnone
      exact hhides ⟨⟨err, hextra⟩, hheld, hnone⟩

theorem orgwide_isEmpty_iff (htruth : reads.Truthful dir) (hheld : sharepointGrantsHeld reads = .ok held) :
    held.orgwide.isEmpty = false ↔ OrgWideHeld (dir.seen reads) := by
  unfold sharepointGrantsHeld at hheld
  cases hgrants : reads.held office365SharePointOnlineAppId with
  | error err => simp [hgrants] at hheld
  | ok grants =>
    simp only [hgrants, Except.ok.injEq] at hheld
    rw [← hheld, sorted_isEmpty, List.isEmpty_eq_false_iff_exists_mem]
    have hmem : ∀ resource value, _ ↔ (dir.seen reads).Holds office365SharePointOnlineAppId resource value :=
      fun _ _ => mem_held htruth hgrants
    constructor
    · rintro ⟨shown, hshown⟩
      obtain ⟨⟨resource, spId, value⟩, hin, hgrant⟩ := List.mem_filterMap.1 hshown
      unfold orgwideGrant at hgrant
      obtain ⟨horg, -⟩ := Option.ite_none_right_eq_some.1 hgrant
      have hholds := (hmem resource value).1 ⟨spId, hin⟩
      exact ⟨resource, value, hholds, (orgwide_of_holds hholds).symm.trans horg⟩
    · rintro ⟨resource, value, hholds, horg⟩
      obtain ⟨spId, hin⟩ := (hmem resource value).2 hholds
      obtain ⟨shown, hshown⟩ : ∃ shown, orgwideGrant (resource, spId, value) = some shown := by
        unfold orgwideGrant
        exact ⟨_, if_pos ((orgwide_of_holds hholds).trans horg)⟩
      exact ⟨shown, List.mem_filterMap.2 ⟨_, hin, hshown⟩⟩

theorem scopeForLevel_isSome_iff (htruth : reads.Truthful dir) (hheld : sharepointGrantsHeld reads = .ok held)
    (level : SelectedScopeLevel) : (held.scopeForLevel level).isSome = true ↔ Accepted dir level := by
  unfold sharepointGrantsHeld at hheld
  cases hgrants : reads.held office365SharePointOnlineAppId with
  | error err => simp [hgrants] at hheld
  | ok grants =>
    simp only [hgrants, Except.ok.injEq] at hheld
    have hmem : ∀ resource value, _ ↔ (dir.seen reads).Holds office365SharePointOnlineAppId resource value :=
      fun _ _ => mem_held htruth hgrants
    unfold HeldSharePointGrants.scopeForLevel
    rw [← hheld, Option.isSome_map, List.find?_isSome]
    constructor
    · rintro ⟨⟨shown, scope⟩, hin, haccepts⟩
      obtain ⟨⟨resource, spId, value⟩, hgrant, hselected⟩ := List.mem_filterMap.1 hin
      unfold selectedGrant at hselected
      obtain ⟨-, hlevel⟩ := Option.ite_none_left_eq_some.1 hselected
      obtain ⟨scope', hscope, hpair⟩ := Option.map_eq_some_iff.1 hlevel
      obtain ⟨-, rfl⟩ := Prod.mk.inj hpair
      have hholds := (hmem resource value).1 ⟨spId, hgrant⟩
      have hgraph := graph_of_selected hscope
      subst hgraph
      exact ⟨_, value, scope', holds_graph_seen.1 hholds, hscope, haccepts⟩
    · rintro ⟨resource, value, scope, hholds, hscope, haccepts⟩
      have hgraph := graph_of_selected hscope
      subst hgraph
      obtain ⟨spId, hgrant⟩ := (hmem _ value).2 (holds_graph_seen.2 hholds)
      refine ⟨(value, scope), List.mem_filterMap.2 ⟨_, hgrant, ?_⟩, haccepts⟩
      unfold selectedGrant
      rw [if_neg]
      · simp only [hscope, Option.map_some]
      · rw [orgwide_of_holds hholds, isSharepointOrgwide_of_selected hscope]
        exact Bool.false_ne_true

end Grants

/-! ## The verdict -/

/-- The verdict of the walk, by the levels that are accepted. -/
def walkVerdict (accepted : SelectedScopeLevel → Bool) : Option EntryHit → AccessVerdict
  | none => .noAccess
  | some hit => if accepted hit.level = true then .scoped else .noAccess

theorem siteVerdict_orgwide {held : HeldSharePointGrants} (h : held.orgwide.isEmpty = false)
    (hit : Option EntryHit) (label : Text) : (siteVerdict (some held) hit label).verdict = .orgWide := by
  have hany : (some held).any (fun h => !h.orgwide.isEmpty) = true := by
    rw [Option.any_some, h]
    rfl
  unfold siteVerdict
  rw [if_pos hany]

theorem siteVerdict_walk {held : HeldSharePointGrants} (h : held.orgwide.isEmpty = true)
    (hit : Option EntryHit) (label : Text) : (siteVerdict (some held) hit label).verdict =
      walkVerdict (fun level => (held.scopeForLevel level).isSome) hit := by
  have hany : ¬ (some held).any (fun h => !h.orgwide.isEmpty) = true := by
    rw [Option.any_some, h]
    exact Bool.false_ne_true
  unfold siteVerdict walkVerdict
  rw [if_neg hany]
  cases hit with
  | none => rfl
  | some hit => cases hscope : held.scopeForLevel hit.level <;> simp only [hscope] <;> rfl

theorem siteVerdict_unread (hit : Option EntryHit) (label : Text) :
    (siteVerdict none hit label).verdict = .unknown := by
  cases hit <;> rfl

section Verdict

variable {dir : Directory} {site : SiteState} {reads : SiteReads} {resolved : ResolvedSharePointResource}
  {appId : Text} {result : PermissionTestResult}

variable (dir) in
theorem chain_find_none (h : (site.chain resolved appId).find? (fun e => !e.2.isEmpty) = none) :
    ¬ EntryReaches dir site resolved appId := by
  rintro ⟨entry, hentry, hne, -⟩
  have hempty := List.find?_eq_none.1 h entry hentry
  exact hne (by simpa using hempty)

/-- Without org-wide grants the walk decides, and goes wrong where the nearest entry hides another. -/
theorem walk_verdict (horg : ¬ OrgWideHeld dir) {hit : Option EntryHit} {accepted : SelectedScopeLevel → Bool}
    (haccepted : ∀ level, accepted level = true ↔ Accepted dir level)
    (hhit : hit.map (·.level) = ((site.chain resolved appId).find? (fun e => !e.2.isEmpty)).map (·.1)) :
    VerdictTrue dir site resolved appId (walkVerdict accepted hit) ↔
      ¬ NearestHides dir site resolved appId := by
  cases hfind : (site.chain resolved appId).find? (fun e => !e.2.isEmpty) with
  | none =>
    rw [hfind] at hhit
    have hnone := Option.map_eq_none_iff.1 hhit
    subst hnone
    have hreach := chain_find_none dir hfind
    refine iff_of_true ⟨fun _ => ⟨horg, hreach⟩, nofun, nofun⟩ ?_
    rintro ⟨entry, -, -, h⟩
    exact hreach h
  | some entry =>
    rw [hfind] at hhit
    obtain ⟨found, hfound, hlevel⟩ := Option.map_eq_some_iff.1 hhit
    subst hfound
    have hmem := List.mem_of_find?_eq_some hfind
    have hne : entry.2 ≠ [] := by simpa using List.find?_some hfind
    by_cases hacc : Accepted dir entry.1
    · have hscope : accepted found.level = true := by
        rw [haccepted, hlevel]
        exact hacc
      have hreach : EntryReaches dir site resolved appId := ⟨entry, hmem, hne, hacc⟩
      have hverdict : walkVerdict accepted (some found) = .scoped := if_pos hscope
      rw [hverdict]
      refine iff_of_true ⟨nofun, fun _ => ⟨hreach, horg⟩, nofun⟩ ?_
      rintro ⟨entry', hfind', hacc', -⟩
      rw [hfind] at hfind'
      exact hacc' (Option.some.inj hfind' ▸ hacc)
    · have hscope : ¬ accepted found.level = true := by
        rw [haccepted, hlevel]
        exact hacc
      have hverdict : walkVerdict accepted (some found) = .noAccess := if_neg hscope
      rw [hverdict]
      constructor
      · rintro hverdict ⟨_, -, -, hreach⟩
        exact (hverdict.noAccess rfl).2 hreach
      · intro hhides
        exact ⟨fun _ => ⟨horg, fun hreach => hhides ⟨entry, hfind, hacc, hreach⟩⟩, nofun, nofun⟩

end Verdict

/-- The verdict is true exactly if the grants could not be read, or neither the index of SharePoint Online
nor the nearest entry hides what reaches the resource. -/
theorem site_verdict_true_iff (dir : Directory) (site : SiteState) (reads : SiteReads) (appId : Text)
    (resolved : ResolvedSharePointResource) (result : PermissionTestResult)
    (htruth : reads.Truthful dir site) (hresolved : reads.resolved = .ok resolved)
    (hok : testSiteAccess reads appId = .ok result) :
    VerdictTrue dir site resolved appId result.verdict ↔
      SiteGrantsUnread reads.roles ∨
      (¬ IndexHides dir reads.roles ∧ (OrgWideHeld dir ∨ ¬ NearestHides dir site resolved appId)) := by
  unfold testSiteAccess testResolved at hok
  cases hguid : requireAppId appId with
  | error err => simp [hguid] at hok
  | ok u =>
    cases hclient : reads.client with
    | error err => simp [hguid, hclient] at hok
    | ok u =>
      cases hheld : sharepointGrantsHeld reads.roles with
      | error err =>
        have hunread : SiteGrantsUnread reads.roles := by
          unfold sharepointGrantsHeld at hheld
          cases hgrants : reads.roles.held office365SharePointOnlineAppId with
          | error err => exact ⟨err, hgrants⟩
          | ok grants => simp [hgrants] at hheld
        have hunknown : result.verdict = .unknown := by
          simp only [hguid, hclient, hheld, hresolved, Option.any_none, Bool.false_eq_true, if_false] at hok
          split at hok
          · cases hok
          · split at hok
            · cases hok
            · rw [← Except.ok.inj hok]
              exact siteVerdict_unread _ _
        rw [hunknown]
        exact iff_of_true ⟨nofun, nofun, nofun⟩ (.inl hunread)
      | ok held =>
        have hread : ¬ SiteGrantsUnread reads.roles := by
          rintro ⟨err, herr⟩
          unfold sharepointGrantsHeld at hheld
          rw [herr] at hheld
          cases hheld
        have horg := orgwide_isEmpty_iff htruth.roles hheld
        rw [orgWideHeld_seen] at horg
        simp only [hguid, hclient, hheld, hresolved, Option.any_some] at hok
        rw [or_iff_right hread]
        cases hempty : held.orgwide.isEmpty with
        | false =>
          obtain ⟨hwide, hhides⟩ := horg.1 hempty
          have hverdict : result.verdict = .orgWide := by
            simp only [hempty, Bool.not_false, if_true] at hok
            rw [← Except.ok.inj hok]
            exact siteVerdict_orgwide hempty _ _
          rw [hverdict]
          exact iff_of_true ⟨nofun, nofun, fun _ => hwide⟩ ⟨hhides, .inl hwide⟩
        | true =>
          have hseen : ¬ (OrgWideHeld dir ∧ ¬ IndexHides dir reads.roles) := by
            rw [← horg, hempty]
            exact Bool.noConfusion
          simp only [hempty, Bool.not_true, Bool.false_eq_true, if_false] at hok
          split at hok
          · cases hok
          · next hit hfind =>
            have hlevel := findEntryInChain_level htruth hfind
            rw [← Except.ok.inj hok, siteVerdict_walk hempty]
            by_cases hwide : OrgWideHeld dir
            · -- the grant is on SharePoint Online alone, and no verdict without it is true
              have hhides : IndexHides dir reads.roles := by
                by_contra hno
                exact hseen ⟨hwide, hno⟩
              refine iff_of_false ?_ (fun h => h.1 hhides)
              intro hverdict
              rcases hit with _ | hit
              · exact (hverdict.noAccess rfl).1 hwide
              · by_cases hscope : (held.scopeForLevel hit.level).isSome = true
                · exact (hverdict.confined (if_pos hscope)).2 hwide
                · exact (hverdict.noAccess (if_neg hscope)).1 hwide
            · have hhides : ¬ IndexHides dir reads.roles := fun h => hwide h.2.1
              rw [and_iff_right hhides, or_iff_right hwide]
              exact walk_verdict hwide (scopeForLevel_isSome_iff htruth.roles hheld) hlevel

/-! ## An entry and an index that hide access -/

def siteApp : Text := "3fa85f64-5717-4562-b3fc-2c963f66afa6".toList

def sitesSelectedSp : Sharepoint.ServicePrincipal :=
  { id := "graph".toList, appId := microsoftGraphAppId, appRoles := [⟨"selected".toList, "Sites.Selected".toList⟩] }

def sharePointOnlineSp : Sharepoint.ServicePrincipal :=
  { id := "online".toList, appId := office365SharePointOnlineAppId
    appRoles := [⟨"read".toList, "Sites.Read.All".toList⟩] }

/-- The application holds one role of one of the two resources. -/
def siteDirectory (resourceId roleId : Text) : Directory where
  servicePrincipal := some "app".toList
  graphSp := some sitesSelectedSp
  extraSp := some sharePointOnlineSp
  assignments _ := [⟨"grant".toList, resourceId, roleId⟩]
  apart g e hg he := by
    obtain rfl := Option.some.inj hg
    obtain rfl := Option.some.inj he
    decide
  graphRoles sp h := by
    obtain rfl := Option.some.inj h
    decide
  extraRoles sp h := by
    obtain rfl := Option.some.inj h
    decide

def appIdentity : Sweeps.SiteIdentitySet := ⟨some ⟨some siteApp, none⟩⟩

/-- An entry on the item, and one on its site. -/
def entriesOnBoth : SiteState where
  itemPermissions _ _ _ := [⟨"1".toList, ["read".toList], some appIdentity, none⟩]
  listPermissions _ _ := []
  sitePermissions _ := [⟨"2".toList, ["read".toList], [appIdentity]⟩]

def noEntries : SiteState := ⟨fun _ _ _ => [], fun _ _ => [], fun _ => []⟩

def resolvedItem : ResolvedSharePointResource :=
  ⟨.listItem, "site".toList, none, none, some "list".toList, none, some "item".toList, "path".toList⟩

/-- All reads answer but, where it is given, that of the second index. -/
def siteReads (dir : Directory) (site : SiteState) (extraSp : Except UiError (Option Sharepoint.ServicePrincipal)) :
    SiteReads where
  client := .ok ()
  roles := ⟨.ok dir.servicePrincipal, .ok dir.graphSp, extraSp, fun spId => .ok (dir.assignments spId)⟩
  resolved := .ok resolvedItem
  itemPermissions siteId listId itemId := .ok (site.itemPermissions siteId listId itemId)
  listPermissions siteId listId := .ok (site.listPermissions siteId listId)
  sitePermissions siteId := .ok (site.sitePermissions siteId)

theorem siteReads_truthful (dir : Directory) (site : SiteState)
    {extraSp : Except UiError (Option Sharepoint.ServicePrincipal)} (h : Answers extraSp dir.extraSp) :
    (siteReads dir site extraSp).Truthful dir site where
  roles := ⟨fun _ h => (Except.ok.inj h).symm, fun _ h => (Except.ok.inj h).symm, h,
    fun _ _ h => (Except.ok.inj h).symm⟩
  items _ _ _ _ h := (Except.ok.inj h).symm
  lists _ _ _ h := (Except.ok.inj h).symm
  sites _ _ h := (Except.ok.inj h).symm

def nearestDirectory : Directory := siteDirectory "graph".toList "selected".toList

def onlineDirectory : Directory := siteDirectory "online".toList "read".toList

def nearestReads : SiteReads := siteReads nearestDirectory entriesOnBoth (.ok nearestDirectory.extraSp)

def indexReads : SiteReads := siteReads onlineDirectory noEntries (.error ⟨"network_error".toList, []⟩)

theorem held_nearest : sharepointGrantsHeld nearestReads.roles = .ok ⟨[], [("Sites.Selected".toList, .site)]⟩ := by
  have hheld : nearestReads.roles.held office365SharePointOnlineAppId =
      .ok [(microsoftGraphAppId, "graph".toList, "Sites.Selected".toList)] := by decide
  have horg : [(microsoftGraphAppId, "graph".toList, "Sites.Selected".toList)].filterMap orgwideGrant = [] := by
    decide
  unfold sharepointGrantsHeld
  simp only [hheld, horg, Text.sort, List.mergeSort_nil]
  decide

theorem held_index : sharepointGrantsHeld indexReads.roles = .ok ⟨[], []⟩ := by
  have hheld : indexReads.roles.held office365SharePointOnlineAppId = .ok [] := by decide
  unfold sharepointGrantsHeld
  simp only [hheld, List.filterMap_nil, Text.sort, List.mergeSort_nil, Text.dedup]

theorem site_verdict_true_iff_nearest :
    VerdictTrue nearestDirectory entriesOnBoth resolvedItem siteApp .noAccess ↔
      SiteGrantsUnread nearestReads.roles ∨
      (¬ IndexHides nearestDirectory nearestReads.roles ∧ (OrgWideHeld nearestDirectory ∨
        ¬ NearestHides nearestDirectory entriesOnBoth resolvedItem siteApp)) := by
  have hok : testSiteAccess nearestReads siteApp = .ok (siteVerdict (some ⟨[], [("Sites.Selected".toList, .site)]⟩)
      (some ⟨.listItem, "path".toList, Text.dedup (Text.sort ["read".toList])⟩) "path".toList) := by
    unfold testSiteAccess
    rw [held_nearest]
    rfl
  exact site_verdict_true_iff nearestDirectory entriesOnBoth nearestReads siteApp resolvedItem _
    (siteReads_truthful _ _ (fun _ h => (Except.ok.inj h).symm)) rfl hok

/-- The item's entry is found first and no scope accepts it; the index of SharePoint Online is not read. -/
theorem nearest_and_index_hide :
    (nearestReads.Truthful nearestDirectory entriesOnBoth ∧
      (testSiteAccess nearestReads siteApp).map (·.verdict) = .ok .noAccess ∧
      EntryReaches nearestDirectory entriesOnBoth resolvedItem siteApp) ∧
    (indexReads.Truthful onlineDirectory noEntries ∧
      (testSiteAccess indexReads siteApp).map (·.verdict) = .ok .noAccess ∧ OrgWideHeld onlineDirectory) := by
  refine ⟨⟨siteReads_truthful _ _ (fun _ h => (Except.ok.inj h).symm), ?_, ?_⟩,
    siteReads_truthful _ _ (fun _ h => by cases h), ?_, ?_⟩
  · unfold testSiteAccess
    rw [held_nearest]
    rfl
  · refine ⟨(.site, ["read".toList]), by decide, List.cons_ne_nil _ _, microsoftGraphAppId, "Sites.Selected".toList,
      .site, ⟨"app".toList, rfl, _, List.mem_singleton_self _, sitesSelectedSp, .inl ⟨rfl, rfl⟩, rfl, by decide⟩,
      by decide, rfl⟩
  · have hempty : (Text.dedup (Text.sort (siteNamedRoles [] siteApp))).isEmpty = true := by
      rw [sorted_isEmpty]
      rfl
    unfold testSiteAccess
    rw [held_index]
    have hfind : findSiteEntry indexReads resolvedItem siteApp = .ok none := by
      show (if (Text.dedup (Text.sort (siteNamedRoles [] siteApp))).isEmpty = true then _ else _) = _
      rw [if_pos hempty]
    have hwalk : findEntryInChain indexReads resolvedItem siteApp = .ok none := hfind
    have hresolved : testResolved indexReads siteApp (some ⟨[], []⟩) =
        .ok (siteVerdict (some ⟨[], []⟩) none "path".toList) := by
      have hread : indexReads.resolved = .ok resolvedItem := rfl
      unfold testResolved
      simp only [hread, hwalk]
      rfl
    show (testResolved indexReads siteApp (some ⟨[], []⟩)).map PermissionTestResult.verdict =
      .ok AccessVerdict.noAccess
    rw [hresolved]
    rfl
  · exact ⟨office365SharePointOnlineAppId, "Sites.Read.All".toList, ⟨"app".toList, rfl, _,
      List.mem_singleton_self _, sharePointOnlineSp, .inr ⟨rfl, rfl⟩, rfl, by decide⟩, by decide⟩

end Tester
