import AzAppToolkit.Cache.System
import AzAppToolkit.Lib.Text

set_option autoImplicit false

/-! # The invalidation tiers

The tenant's list, detail and audit entries and the functions of `commands/applications/cache.rs` that
drop or patch them. Of a scanned entry a row is the ids a delete looks at; what the other entries hold
is left open.

An entry is patched against nothing else running, so a patch that is re-applied after a lost race is one
that lands. -/

namespace Tiers

/-! ## Entries -/

structure AppRow where
  id : Text
  appId : Text

/-- What a typed entry holds. -/
inductive Rows where
  | pairing (rows : List AppRow)
  | names (rows : List AppRow)
  | credentials (appObjectIds : List Text)
  | servicePrincipals (appIds : List Text)
  | other

structure Entry where
  /-- The TTL has not passed. -/
  live : Bool
  typed : Rows

structure AppCache where
  enabled : Bool
  entries : CacheKind → Text → Option Entry

/-- One scanned entry: its key, and its rows if the payload is of its type. -/
structure Index (α : Type) where
  key : Text → Text
  read : Rows → Option (List α)
  write : List α → Rows

def tenantKey (suffix : String) (tenantId : Text) : Text := tenantId ++ '|' :: suffix.toList

def appsPairing : Index AppRow where
  key := tenantKey "apps_pairing"
  read
    | .pairing rows => some rows
    | _ => none
  write := .pairing

def appNameIndex : Index AppRow where
  key := tenantKey "app_name_index"
  read
    | .names rows => some rows
    | _ => none
  write := .names

def credentialExpirations : Index Text where
  key := tenantKey "credential_expirations"
  read
    | .credentials rows => some rows
    | _ => none
  write := .credentials

def spIndex : Index Text where
  key := tenantKey "sp_index"
  read
    | .servicePrincipals rows => some rows
    | _ => none
  write := .servicePrincipals

def enterpriseKey : Text → Text := tenantKey "enterprise"

def searchCorpusKey : Text → Text := tenantKey "search_corpus"

def miKey : Text → Text := tenantKey "mi"

def appRoleResourcesKey : Text → Text := tenantKey "app_role_resources"

def auditCacheKey : Text → Text := tenantKey "audit_run"

def appDetailPrefix : Text → Text := tenantKey "app_detail|"

def appDetailKey (tenantId objectId : Text) : Text := appDetailPrefix tenantId ++ objectId

def mailScopesPrefix : Text → Text := tenantKey "mail_scopes|"

def appsMax : Nat := 10000

def spIndexMax : Nat := 10000

/-! ## The cache -/

def AppCache.invalidate (c : AppCache) (kind : CacheKind) (key : Text) : AppCache :=
  { c with entries := fun k t => if k = kind ∧ t = key then none else c.entries k t }

def AppCache.invalidatePrefix (c : AppCache) (kind : CacheKind) (head : Text) : AppCache :=
  { c with entries := fun k t => if k = kind ∧ head.isPrefixOf t = true then none else c.entries k t }

def AppCache.getTyped {α : Type} (c : AppCache) (tenantId : Text) (index : Index α) : Option (List α) :=
  if c.enabled then
    match c.entries .lists (index.key tenantId) with
    | some e => if e.live then index.read e.typed else none
    | none => none
  else none

inductive Patch (α : Type) where
  | replace (next : List α)
  | keep
  | invalidate

/-- The entry is patched, or dropped where it cannot be. -/
def AppCache.patchTypedIndexWith {α : Type} (c : AppCache) (tenantId : Text) (index : Index α)
    (patch : List α → Patch α) : AppCache × Bool :=
  match (c.getTyped tenantId index).map patch with
  | some (.replace next) =>
    ({ c with entries := fun k t =>
      if k = .lists ∧ t = index.key tenantId then some ⟨true, index.write next⟩ else c.entries k t }, true)
  | some .keep => (c, true)
  | some .invalidate | none => (c.invalidate .lists (index.key tenantId), false)

/-- `rows` without those that are gone. -/
def removedBy {α : Type} (rows : List α) (gone : α → Bool) : Patch α :=
  if rows.any gone then .replace (rows.filter (fun r => !gone r)) else .keep

/-- The patch of a delete: a full index is dropped. -/
def dropRows {α : Type} (max : Nat) (gone : α → Bool) (rows : List α) : Patch α :=
  if max ≤ rows.length then .invalidate else removedBy rows gone

/-! ## Tiers -/

section Tiers

variable (c : AppCache) (tenantId : Text)

def invalidateAppRoleResources : AppCache := c.invalidate .lists (appRoleResourcesKey tenantId)

def invalidateAppDetails : AppCache :=
  (c.invalidatePrefix .lists (appDetailPrefix tenantId)).invalidatePrefix .lists (mailScopesPrefix tenantId)

def invalidateAuditCache : AppCache := c.invalidate .audit (auditCacheKey tenantId)

def invalidateAppDetailState : AppCache := invalidateAuditCache (invalidateAppDetails c tenantId) tenantId

def invalidateAppLists : AppCache :=
  let c := c.invalidate .lists (appsPairing.key tenantId)
  let c := c.invalidate .lists (enterpriseKey tenantId)
  let c := c.invalidate .lists (spIndex.key tenantId)
  let c := c.invalidate .lists (appNameIndex.key tenantId)
  let c := c.invalidate .lists (searchCorpusKey tenantId)
  let c := c.invalidate .lists (miKey tenantId)
  let c := c.invalidate .lists (credentialExpirations.key tenantId)
  let c := invalidateAppRoleResources c tenantId
  let c := invalidateAppDetails c tenantId
  invalidateAuditCache c tenantId

def invalidateAppCredentials (objectId : Text) : AppCache :=
  let c := c.invalidate .lists (appsPairing.key tenantId)
  let c := c.invalidate .lists (appDetailKey tenantId objectId)
  let c := c.invalidate .lists (credentialExpirations.key tenantId)
  invalidateAuditCache c tenantId

def invalidateAppListProjections : AppCache :=
  let c := c.invalidate .lists (enterpriseKey tenantId)
  let c := c.invalidate .lists (searchCorpusKey tenantId)
  let c := c.invalidate .lists (miKey tenantId)
  let c := invalidateAppRoleResources c tenantId
  let c := invalidateAppDetails c tenantId
  invalidateAuditCache c tenantId

/-- The application id of a cached row. -/
def cachedAppId (id : Text) : Option Text :=
  let inRows := fun (rows : Option (List AppRow)) =>
    (rows.bind (fun rows => rows.find? (fun r => r.id == id))).map (·.appId)
  (inRows (c.getTyped tenantId appNameIndex)).or (inRows (c.getTyped tenantId appsPairing))

def recordDeletedApps (objectIds : List Text) : AppCache :=
  let appIds := objectIds.mapM (cachedAppId c tenantId)
  let patched := c.patchTypedIndexWith tenantId appsPairing
    (dropRows appsMax (fun r => objectIds.contains r.id))
  let c := (patched.1.patchTypedIndexWith tenantId appNameIndex
    (dropRows appsMax (fun r => objectIds.contains r.id))).1
  let c :=
    if patched.2 then
      (c.patchTypedIndexWith tenantId credentialExpirations
        (fun rows => removedBy rows (fun id => objectIds.contains id))).1
    else c.invalidate .lists (credentialExpirations.key tenantId)
  let c :=
    match appIds with
    | some appIds => (c.patchTypedIndexWith tenantId spIndex
        (dropRows spIndexMax (fun appId => appIds.contains appId))).1
    | none => c.invalidate .lists (spIndex.key tenantId)
  invalidateAppListProjections c tenantId

end Tiers

/-! ## What a tier covers -/

section Covers

variable (tenantId : Text)

/-- The payloads and scope verdicts of the detail views, and the audit. -/
def DetailTier (kind : CacheKind) (key : Text) : Prop :=
  (kind = .lists ∧ ((appDetailPrefix tenantId).isPrefixOf key = true ∨
    (mailScopesPrefix tenantId).isPrefixOf key = true)) ∨
  (kind = .audit ∧ key = auditCacheKey tenantId)

/-- The entries that are projections of the scanned ones. -/
def ProjectionTier (kind : CacheKind) (key : Text) : Prop :=
  (kind = .lists ∧ (key = enterpriseKey tenantId ∨ key = searchCorpusKey tenantId ∨ key = miKey tenantId ∨
    key = appRoleResourcesKey tenantId)) ∨ DetailTier tenantId kind key

def ListTier (kind : CacheKind) (key : Text) : Prop :=
  (kind = .lists ∧ (key = appsPairing.key tenantId ∨ key = appNameIndex.key tenantId ∨
    key = credentialExpirations.key tenantId ∨ key = spIndex.key tenantId)) ∨ ProjectionTier tenantId kind key

def CredentialTier (objectId : Text) (kind : CacheKind) (key : Text) : Prop :=
  (kind = .lists ∧ (key = appsPairing.key tenantId ∨ key = credentialExpirations.key tenantId ∨
    key = appDetailKey tenantId objectId)) ∨ (kind = .audit ∧ key = auditCacheKey tenantId)

end Covers

/-- The rows are about the app, or it cannot be said. -/
def Rows.Mentions (objectId appId : Text) : Rows → Prop
  | .pairing rows | .names rows => ∃ r ∈ rows, r.id = objectId
  | .credentials appObjectIds => objectId ∈ appObjectIds
  | .servicePrincipals appIds => appId ∈ appIds
  | .other => True

/-- No entry of the tier is left. -/
def Dropped (tier : CacheKind → Text → Prop) (c : AppCache) : Prop :=
  ∀ kind key, tier kind key → c.entries kind key = none

/-- No entry of the tier is left that mentions the app. -/
def Unmentioned (tier : CacheKind → Text → Prop) (objectId appId : Text) (c : AppCache) : Prop :=
  ∀ kind key e, tier kind key → c.entries kind key = some e → ¬ e.typed.Mentions objectId appId

/-- The cached rows pair an app with its own application id. -/
def RowsTrue (appIdOf : Text → Text) (c : AppCache) : Prop :=
  ∀ kind key e, c.entries kind key = some e → ∀ r, (∃ rows, (e.typed = .pairing rows ∨ e.typed = .names rows) ∧
    r ∈ rows) → r.appId = appIdOf r.id

theorem Dropped.unmentioned {tier : CacheKind → Text → Prop} {c : AppCache} (h : Dropped tier c)
    (objectId appId : Text) : Unmentioned tier objectId appId c := by
  intro kind key e htier he
  rw [h kind key htier] at he
  exact absurd he.symm (Option.some_ne_none e)

/-! ## What is dropped -/

/-- From `c` to `c'` the entries of the tier are dropped, and no other. -/
def Drops (c c' : AppCache) (tier : CacheKind → Text → Prop) : Prop :=
  ∀ kind key, (tier kind key → c'.entries kind key = none) ∧
    (¬ tier kind key → c'.entries kind key = c.entries kind key)

section Drops

variable {c c' c'' : AppCache} {tier tier' : CacheKind → Text → Prop}

theorem drops_invalidate (c : AppCache) (kind : CacheKind) (key : Text) :
    Drops c (c.invalidate kind key) (fun k t => k = kind ∧ t = key) :=
  fun _ _ => ⟨fun h => if_pos h, fun h => if_neg h⟩

theorem drops_invalidatePrefix (c : AppCache) (kind : CacheKind) (head : Text) :
    Drops c (c.invalidatePrefix kind head) (fun k t => k = kind ∧ head.isPrefixOf t = true) :=
  fun _ _ => ⟨fun h => if_pos h, fun h => if_neg h⟩

theorem Drops.trans (h : Drops c c' tier) (h' : Drops c' c'' tier') :
    Drops c c'' (fun k t => tier k t ∨ tier' k t) := by
  intro kind key
  constructor
  · intro hcovered
    by_cases hlater : tier' kind key
    · exact (h' kind key).1 hlater
    · rw [(h' kind key).2 hlater]
      exact (h kind key).1 (hcovered.resolve_right hlater)
  · intro hkept
    rw [not_or] at hkept
    rw [(h' kind key).2 hkept.2, (h kind key).2 hkept.1]

theorem Drops.congr (h : Drops c c' tier) (htier : ∀ kind key, tier' kind key ↔ tier kind key) :
    Drops c c' tier' := by
  intro kind key
  rw [htier]
  exact h kind key

theorem Drops.dropped (h : Drops c c' tier) : Dropped tier c' := fun kind key => (h kind key).1

end Drops

section Tiers

variable (c : AppCache) (tenantId : Text)

theorem drops_detailState : Drops c (invalidateAppDetailState c tenantId) (DetailTier tenantId) := by
  have h := ((drops_invalidatePrefix c .lists (appDetailPrefix tenantId)).trans
    (drops_invalidatePrefix _ .lists (mailScopesPrefix tenantId))).trans
    (drops_invalidate _ .audit (auditCacheKey tenantId))
  refine h.congr fun kind key => ?_
  unfold DetailTier
  tauto

theorem drops_projections : Drops c (invalidateAppListProjections c tenantId) (ProjectionTier tenantId) := by
  have h := ((((drops_invalidate c .lists (enterpriseKey tenantId)).trans
    (drops_invalidate _ .lists (searchCorpusKey tenantId))).trans
    (drops_invalidate _ .lists (miKey tenantId))).trans
    (drops_invalidate _ .lists (appRoleResourcesKey tenantId))).trans (drops_detailState _ tenantId)
  refine h.congr fun kind key => ?_
  unfold ProjectionTier
  simp only [and_or_left, or_assoc]

theorem drops_appLists : Drops c (invalidateAppLists c tenantId) (ListTier tenantId) := by
  have h := ((((((((drops_invalidate c .lists (appsPairing.key tenantId)).trans
    (drops_invalidate _ .lists (enterpriseKey tenantId))).trans
    (drops_invalidate _ .lists (spIndex.key tenantId))).trans
    (drops_invalidate _ .lists (appNameIndex.key tenantId))).trans
    (drops_invalidate _ .lists (searchCorpusKey tenantId))).trans
    (drops_invalidate _ .lists (miKey tenantId))).trans
    (drops_invalidate _ .lists (credentialExpirations.key tenantId))).trans
    (drops_invalidate _ .lists (appRoleResourcesKey tenantId))).trans (drops_detailState _ tenantId)
  refine h.congr fun kind key => ?_
  unfold ListTier ProjectionTier
  simp only [and_or_left, or_assoc]
  exact iff_of_eq (by ac_rfl)

theorem drops_appCredentials (objectId : Text) :
    Drops c (invalidateAppCredentials c tenantId objectId) (CredentialTier tenantId objectId) := by
  have h := (((drops_invalidate c .lists (appsPairing.key tenantId)).trans
    (drops_invalidate _ .lists (appDetailKey tenantId objectId))).trans
    (drops_invalidate _ .lists (credentialExpirations.key tenantId))).trans
    (drops_invalidate _ .audit (auditCacheKey tenantId))
  refine h.congr fun kind key => ?_
  unfold CredentialTier
  tauto

end Tiers

/-! ## What a delete leaves -/

section Delete

variable {α : Type} {c : AppCache} {tenantId : Text} {index : Index α}

/-- After a patch the entry holds none of the rows that go, and the others are as they were. -/
theorem patch_entries (patch : List α → Patch α) (c : AppCache) :
    (∀ kind key, ¬ (kind = .lists ∧ key = index.key tenantId) →
      (c.patchTypedIndexWith tenantId index patch).1.entries kind key = c.entries kind key) ∧
    (∀ e, (c.patchTypedIndexWith tenantId index patch).1.entries .lists (index.key tenantId) = some e →
      ∃ rows, c.getTyped tenantId index = some rows ∧
        ((∃ next, patch rows = .replace next ∧ e.typed = index.write next) ∨
          (patch rows = .keep ∧ c.entries .lists (index.key tenantId) = some e))) := by
  unfold AppCache.patchTypedIndexWith
  cases hread : c.getTyped tenantId index with
  | none =>
    refine ⟨fun kind key hother => if_neg hother, fun e he => ?_⟩
    rw [Option.map_none] at he
    exact absurd (he.symm.trans (if_pos ⟨rfl, rfl⟩)) (Option.some_ne_none e)
  | some rows =>
    rw [Option.map_some]
    cases hpatch : patch rows with
    | replace next =>
      refine ⟨fun kind key hother => if_neg hother, fun e he => ⟨rows, rfl, .inl ⟨next, hpatch, ?_⟩⟩⟩
      have heq : some e = some ⟨true, index.write next⟩ := he.symm.trans (if_pos ⟨rfl, rfl⟩)
      rw [Option.some.inj heq]
    | keep => exact ⟨fun _ _ _ => rfl, fun e he => ⟨rows, rfl, .inr ⟨hpatch, he⟩⟩⟩
    | invalidate =>
      refine ⟨fun kind key hother => if_neg hother, fun e he => ?_⟩
      exact absurd (he.symm.trans (if_pos ⟨rfl, rfl⟩)) (Option.some_ne_none e)

theorem getTyped_eq_some {rows : List α} (h : c.getTyped tenantId index = some rows) :
    ∃ e, c.entries .lists (index.key tenantId) = some e ∧ index.read e.typed = some rows := by
  unfold AppCache.getTyped at h
  split at h
  · split at h
    · next e he =>
      split at h
      · exact ⟨e, he, h⟩
      · exact absurd h.symm (Option.some_ne_none rows)
    · exact absurd h.symm (Option.some_ne_none rows)
  · exact absurd h.symm (Option.some_ne_none rows)

/-- What a patch that removes rows leaves of an entry: its own type, and no row that goes. -/
theorem removed_entry {patch : List α → Patch α} {gone : α → Bool}
    (hpatch : ∀ rows, patch rows = .invalidate ∨ patch rows = removedBy rows gone) {e : Entry}
    (he : (c.patchTypedIndexWith tenantId index patch).1.entries .lists (index.key tenantId) = some e) :
    (∃ rows, e.typed = index.write rows ∧ ∀ r ∈ rows, gone r = false) ∨
    (∃ rows, index.read e.typed = some rows ∧ ∀ r ∈ rows, gone r = false) := by
  obtain ⟨rows, hread, ⟨next, hnext, htyped⟩ | ⟨hkeep, hsame⟩⟩ := (patch_entries patch c).2 e he
  · left
    refine ⟨next, htyped, ?_⟩
    rcases hpatch rows with hinvalid | hremoved
    · rw [hnext] at hinvalid
      cases hinvalid
    · rw [hnext] at hremoved
      unfold removedBy at hremoved
      split at hremoved
      · cases hremoved
        intro r hr
        simpa using (List.mem_filter.1 hr).2
      · cases hremoved
  · right
    obtain ⟨e', he', hrows⟩ := getTyped_eq_some hread
    rw [hsame] at he'
    obtain rfl := Option.some.inj he'
    refine ⟨rows, hrows, ?_⟩
    rcases hpatch rows with hinvalid | hremoved
    · rw [hkeep] at hinvalid
      cases hinvalid
    · rw [hkeep] at hremoved
      unfold removedBy at hremoved
      split at hremoved
      · cases hremoved
      · next hnone =>
        intro r hr
        rw [Bool.eq_false_iff]
        exact fun hgone => hnone (List.any_eq_true.2 ⟨r, hr, hgone⟩)

/-- What is stored under the key says nothing of the app. -/
def Clean (key : Text) (objectId appId : Text) (c : AppCache) : Prop :=
  ∀ e, c.entries .lists key = some e → ¬ e.typed.Mentions objectId appId

variable {key objectId appId : Text}

theorem Clean.drops {c c' : AppCache} {tier : CacheKind → Text → Prop} (h : Clean key objectId appId c)
    (hdrops : Drops c c' tier) : Clean key objectId appId c' := by
  intro e he
  by_cases htier : tier .lists key
  · rw [(hdrops .lists key).1 htier] at he
    exact absurd he.symm (Option.some_ne_none e)
  · rw [(hdrops .lists key).2 htier] at he
    exact h e he

theorem clean_of_drops {c c' : AppCache} {tier : CacheKind → Text → Prop} (hdrops : Drops c c' tier)
    (htier : tier .lists key) : Clean key objectId appId c' := by
  intro e he
  rw [(hdrops .lists key).1 htier] at he
  exact absurd he.symm (Option.some_ne_none e)

theorem Clean.patch_other {c : AppCache} (h : Clean key objectId appId c) (index : Index α)
    (hkey : key ≠ index.key tenantId) (patch : List α → Patch α) :
    Clean key objectId appId (c.patchTypedIndexWith tenantId index patch).1 := by
  intro e he
  rw [(patch_entries patch c).1 .lists key (fun hsame => hkey hsame.2)] at he
  exact h e he

/-- A patch that removes the app's rows leaves its entry without them. -/
theorem clean_patch (index : Index α) {patch : List α → Patch α} {gone : α → Bool}
    (hpatch : ∀ rows, patch rows = .invalidate ∨ patch rows = removedBy rows gone)
    (hread : ∀ typed rows, index.read typed = some rows → typed = index.write rows)
    (hgone : ∀ rows, (∀ r ∈ rows, gone r = false) → ¬ (index.write rows).Mentions objectId appId)
    (c : AppCache) :
    Clean (index.key tenantId) objectId appId (c.patchTypedIndexWith tenantId index patch).1 := by
  intro e he
  rcases removed_entry hpatch he with ⟨rows, htyped, hrows⟩ | ⟨rows, htyped, hrows⟩
  · rw [htyped]
    exact hgone rows hrows
  · rw [hread e.typed rows htyped]
    exact hgone rows hrows

theorem dropRows_cases (max : Nat) (gone : α → Bool) (rows : List α) :
    dropRows max gone rows = .invalidate ∨ dropRows max gone rows = removedBy rows gone := by
  unfold dropRows
  split
  · exact .inl rfl
  · exact .inr rfl

end Delete

/-! ## A recorded delete -/

section Record

variable {tenantId objectId appId : Text} {objectIds : List Text}

theorem tenantKey_ne {suffix suffix' : String} (h : suffix.toList ≠ suffix'.toList) (tenantId : Text) :
    tenantKey suffix tenantId ≠ tenantKey suffix' tenantId := by
  intro heq
  exact h (List.cons.inj (List.append_cancel_left heq)).2

/-- The rows of `objectIds` are the ones removed. -/
theorem rows_gone {rows : List AppRow} (hid : objectId ∈ objectIds)
    (hrows : ∀ r ∈ rows, objectIds.contains r.id = false) : ¬ ∃ r ∈ rows, r.id = objectId := by
  rintro ⟨r, hr, rfl⟩
  have hkept := hrows r hr
  rw [List.contains_iff_mem.2 hid] at hkept
  cases hkept

theorem member_gone {ids : List Text} {id : Text} (hid : id ∈ ids) {rows : List Text}
    (hrows : ∀ r ∈ rows, ids.contains r = false) : id ∉ rows := by
  intro hr
  have hkept := hrows id hr
  rw [List.contains_iff_mem.2 hid] at hkept
  cases hkept

/-- The application ids the cache knows of are the apps' own. -/
theorem cachedAppId_true {appIdOf : Text → Text} {c : AppCache} (htrue : RowsTrue appIdOf c) {id found : Text}
    (h : cachedAppId c tenantId id = some found) : found = appIdOf id := by
  have hrow : ∀ (index : Index AppRow), (∀ typed rows, index.read typed = some rows →
      typed = .pairing rows ∨ typed = .names rows) →
      (((c.getTyped tenantId index).bind (fun rows => rows.find? (fun r => r.id == id))).map (·.appId) =
        some found) → found = appIdOf id := by
    intro index hread hfound
    obtain ⟨r, hr, rfl⟩ := Option.map_eq_some_iff.1 hfound
    obtain ⟨rows, hrows, hfind⟩ := Option.bind_eq_some_iff.1 hr
    obtain ⟨e, he, htyped⟩ := getTyped_eq_some hrows
    have hid : r.id = id := by simpa using List.find?_some hfind
    rw [← hid]
    exact htrue .lists _ e he r ⟨rows, hread e.typed rows htyped, List.mem_of_find?_eq_some hfind⟩
  unfold cachedAppId at h
  rcases Option.or_eq_some_iff.1 h with hnames | ⟨-, hpairing⟩
  · refine hrow appNameIndex (fun typed rows hread => ?_) hnames
    cases typed <;> cases hread
    exact .inr rfl
  · refine hrow appsPairing (fun typed rows hread => ?_) hpairing
    cases typed <;> cases hread
    exact .inl rfl

theorem mem_appIds {appIdOf : Text → Text} {c : AppCache} (htrue : RowsTrue appIdOf c) {appIds : List Text}
    (h : objectIds.mapM (cachedAppId c tenantId) = some appIds) (hid : objectId ∈ objectIds) :
    appIdOf objectId ∈ appIds := by
  induction objectIds generalizing appIds with
  | nil => cases hid
  | cons id ids ih =>
    rw [List.mapM_cons] at h
    obtain ⟨found, hfound, hrest⟩ := Option.bind_eq_some_iff.1 h
    obtain ⟨more, hmore, hall⟩ := Option.bind_eq_some_iff.1 hrest
    obtain rfl := Option.some.inj hall
    rcases List.mem_cons.1 hid with rfl | hlater
    · rw [cachedAppId_true htrue hfound]
      exact List.mem_cons_self
    · exact List.mem_cons_of_mem found (ih hmore hlater)

/-- A recorded delete leaves no entry of the list tier that mentions a deleted app. -/
theorem recordDeletedApps_unmentioned {appIdOf : Text → Text} {c : AppCache} (htrue : RowsTrue appIdOf c)
    (hid : objectId ∈ objectIds) :
    Unmentioned (ListTier tenantId) objectId (appIdOf objectId) (recordDeletedApps c tenantId objectIds) := by
  unfold recordDeletedApps
  extract_lets appIds patched c₂ c₃ c₄
  have hpairs : ∀ rows, (∀ r ∈ rows, objectIds.contains r.id = false) →
      ¬ (appsPairing.write rows).Mentions objectId (appIdOf objectId) := fun rows hrows => rows_gone hid hrows
  have hnames : ∀ rows, (∀ r ∈ rows, objectIds.contains r.id = false) →
      ¬ (appNameIndex.write rows).Mentions objectId (appIdOf objectId) := fun rows hrows => rows_gone hid hrows
  have hpairing : Clean (appsPairing.key tenantId) objectId (appIdOf objectId) patched.1 :=
    clean_patch appsPairing (dropRows_cases appsMax _) (by intro typed rows h; cases typed <;> cases h; rfl)
      hpairs c
  have hpairing₂ : Clean (appsPairing.key tenantId) objectId (appIdOf objectId) c₂ :=
    hpairing.patch_other appNameIndex (tenantKey_ne (by decide) tenantId) _
  have hnames₂ : Clean (appNameIndex.key tenantId) objectId (appIdOf objectId) c₂ :=
    clean_patch appNameIndex (dropRows_cases appsMax _) (by intro typed rows h; cases typed <;> cases h; rfl)
      hnames patched.1
  have hkept₃ : ∀ key, key ≠ credentialExpirations.key tenantId →
      Clean key objectId (appIdOf objectId) c₂ → Clean key objectId (appIdOf objectId) c₃ := by
    intro key hkey hclean
    by_cases hpatched : patched.2 = true
    · rw [show c₃ = _ from if_pos hpatched]
      exact hclean.patch_other credentialExpirations hkey _
    · rw [show c₃ = _ from if_neg hpatched]
      exact hclean.drops (drops_invalidate _ .lists _)
  have hcredentials₃ : Clean (credentialExpirations.key tenantId) objectId (appIdOf objectId) c₃ := by
    by_cases hpatched : patched.2 = true
    · rw [show c₃ = _ from if_pos hpatched]
      exact clean_patch credentialExpirations (fun _ => .inr rfl)
        (by intro typed rows h; cases typed <;> cases h; rfl) (fun rows hrows => member_gone hid hrows) c₂
    · rw [show c₃ = _ from if_neg hpatched]
      exact clean_of_drops (drops_invalidate _ .lists _) ⟨rfl, rfl⟩
  have hkept₄ : ∀ key, key ≠ spIndex.key tenantId →
      Clean key objectId (appIdOf objectId) c₃ → Clean key objectId (appIdOf objectId) c₄ := by
    intro key hkey hclean
    cases hids : appIds with
    | some ids =>
      rw [show c₄ = _ by simp only [c₄, hids]; rfl]
      exact hclean.patch_other spIndex hkey _
    | none =>
      rw [show c₄ = _ by simp only [c₄, hids]; rfl]
      exact hclean.drops (drops_invalidate _ .lists _)
  have hprincipals₄ : Clean (spIndex.key tenantId) objectId (appIdOf objectId) c₄ := by
    cases hids : appIds with
    | some ids =>
      rw [show c₄ = _ by simp only [c₄, hids]; rfl]
      exact clean_patch spIndex (dropRows_cases spIndexMax _)
        (by intro typed rows h; cases typed <;> cases h; rfl)
        (fun rows hrows => member_gone (mem_appIds htrue hids hid) hrows) c₃
    | none =>
      rw [show c₄ = _ by simp only [c₄, hids]; rfl]
      exact clean_of_drops (drops_invalidate _ .lists _) ⟨rfl, rfl⟩
  -- the scanned entries keep none of the app's rows, and the rest of the tier is dropped
  rintro kind key e (⟨rfl, hscanned⟩ | hprojection) he
  · have hclean : Clean key objectId (appIdOf objectId) c₄ := by
      rcases hscanned with rfl | rfl | rfl | rfl
      · exact hkept₄ _ (tenantKey_ne (by decide) tenantId) (hkept₃ _ (tenantKey_ne (by decide) tenantId) hpairing₂)
      · exact hkept₄ _ (tenantKey_ne (by decide) tenantId) (hkept₃ _ (tenantKey_ne (by decide) tenantId) hnames₂)
      · exact hkept₄ _ (tenantKey_ne (by decide) tenantId) hcredentials₃
      · exact hprincipals₄
    exact hclean.drops (drops_projections c₄ tenantId) e he
  · rw [(drops_projections c₄ tenantId kind key).1 hprojection] at he
    exact absurd he.symm (Option.some_ne_none e)

end Record

end Tiers
