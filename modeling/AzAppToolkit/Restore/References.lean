import AzAppToolkit.Restore.Plan

set_option autoImplicit false

/-! # What a restored app refers to

The references `wire_application` of `commands/restore/wire.rs` writes: declared resources, identifier
URIs and pre-authorized clients. A `CrossTenantRestore` is a restore into a tenant where nothing was:
the apps of the backup are distinct, and the ids they are recreated under are fresh.

Nothing the app refers to may be left on the source: `ReferencesMoved`. -/

namespace Restore

open Remediation (RequiredResourceAccess)

/-! ## The writes -/

/-- The references of an app in the backup. A published scope is passed on as it is. -/
structure AppRegistrationBackup (Scope : Type) where
  sourceAppId : Text
  displayName : Text
  requiredResourceAccess : List RequiredResourceAccess
  identifierUris : List Text
  apiScopes : List Scope
  preAuthorizedApplications : List PreAuthorizedApplication

structure ExposeApiPatch (Scope : Type) where
  identifierUris : Option (List Text)
  oauth2PermissionScopes : Option (List Scope)
  preAuthorizedApplications : Option (List PreAuthorizedApplication)

/-- The values, if there are any. -/
def nonempty? {α : Type} (l : List α) : Option (List α) := if l.isEmpty then none else some l

variable {Scope : Type}

/-- The full replacement of the declared permissions. -/
def permissionsPatch (app : AppRegistrationBackup Scope) (appIdRemap : AppIdRemap) :
    Option (List RequiredResourceAccess) :=
  nonempty? (remapRequiredResourceAccess app.requiredResourceAccess appIdRemap)

def exposeApiPatch (app : AppRegistrationBackup Scope) (appIdRemap : AppIdRemap)
    (backupApps : BackupApps) (newAppId sourceTenantId destTenantId : Text) :
    Option (ExposeApiPatch Scope) :=
  let identifierUris := rewriteIdentifierUris app.identifierUris app.sourceAppId newAppId
    sourceTenantId destTenantId
  let preAuth := (planPreAuthorized app.preAuthorizedApplications appIdRemap backupApps).1
  let listsPreAuth := !app.preAuthorizedApplications.isEmpty
  if !identifierUris.isEmpty || !app.apiScopes.isEmpty || listsPreAuth then
    some
      { identifierUris := nonempty? identifierUris
        oauth2PermissionScopes := nonempty? app.apiScopes
        -- written even when every client is left out, so that it clears the list
        preAuthorizedApplications := if listsPreAuth then some preAuth else none }
  else none

/-! ## What is asked of the writes -/

/-- A reference to an app is written: to the appId the app was restored under, if it was, and as it is
    otherwise. -/
def Moved (appIdRemap : AppIdRemap) (listed written : Text) : Prop :=
  (∃ source, appIdRemap.lookup source = some written ∧ SameId source listed) ∨
    (∀ source new, appIdRemap.lookup source = some new → ¬ SameId source listed) ∧ written = listed

/-- The segments of an identifier URI. -/
def uriSegments (uri : Text) : List Text := Text.splitOn (· == '/') (uri.drop scheme.length)

def IsApiUri (uri : Text) : Prop := SameId (uri.take scheme.length) scheme

/-- A segment names an id. -/
def Names (seg id : Text) : Prop := id ≠ [] ∧ SameId seg id

instance (seg id : Text) : Decidable (Names seg id) :=
  inferInstanceAs (Decidable (id ≠ [] ∧ toAsciiLowercase seg = toAsciiLowercase id))

structure SegmentMoved (sourceAppId newAppId sourceTenantId destTenantId seg written : Text) :
    Prop where
  app : Names seg sourceAppId → written = newAppId
  tenant : ¬ Names seg sourceAppId → Names seg sourceTenantId → written = destTenantId
  other : ¬ Names seg sourceAppId → ¬ Names seg sourceTenantId → written = seg

structure UriMoved (sourceAppId newAppId sourceTenantId destTenantId uri written : Text) : Prop where
  other : ¬ IsApiUri uri → written = uri
  scheme : IsApiUri uri → written.take scheme.length = uri.take scheme.length
  segments : IsApiUri uri → List.Forall₂
    (SegmentMoved sourceAppId newAppId sourceTenantId destTenantId) (uriSegments uri)
    (uriSegments written)

/-- The entry is what is written for the client. -/
def WrittenFor (appIdRemap : AppIdRemap) (client : Text) (e : PreAuthorizedApplication) : Prop :=
  ∃ written, Moved appIdRemap client written ∧ SameId written e.appId

/-- The plan of the pre-authorized clients: one entry for each client that is written, one report for
    each that is not, and none on an appId of the backup. -/
structure ClientsMoved (appIdRemap : AppIdRemap) (backupApps : BackupApps)
    (listed kept : List PreAuthorizedApplication) (leftOut : List Text) : Prop where
  once : (kept.map PreAuthorizedApplication.clientKey).Nodup
  foreign : ∀ e ∈ kept, backupApps.contains e.appId = false
  origin : ∀ e ∈ kept, ∃ p ∈ listed, Moved appIdRemap p.appId e.appId
  permissions : ∀ e ∈ kept, ∀ key, key ∈ e.delegatedPermissionIds.map toAsciiLowercase ↔
    ∃ p ∈ listed, WrittenFor appIdRemap p.appId e ∧
      key ∈ p.delegatedPermissionIds.map toAsciiLowercase
  split : ∀ p ∈ listed, (∃ e ∈ kept, WrittenFor appIdRemap p.appId e) ↔
    ¬ ∃ id ∈ leftOut, SameId id p.appId
  reported : (leftOut.map toAsciiLowercase).Nodup
  leftOrigin : ∀ id ∈ leftOut, (∃ p ∈ listed, p.appId = id) ∧ backupApps.contains id = true ∧
    ∀ source new, appIdRemap.lookup source = some new → ¬ SameId source id

/-! ## Restores into another tenant -/

/-- A restored app of a backup. -/
structure CrossTenantRestore (Scope : Type) where
  /-- The apps of the backup: source appIds and display names. -/
  apps : List (Text × Text)
  distinct : (apps.map (fun a => toAsciiLowercase a.1)).Nodup
  remap : AppIdRemap
  owned : ∀ source new, remap.lookup source = some new → ∃ a ∈ apps, a.1 = source
  app : AppRegistrationBackup Scope
  newAppId : Text
  restored : remap.lookup app.sourceAppId = some newAppId
  sourceTenantId : Text
  destTenantId : Text

namespace CrossTenantRestore

variable (r : CrossTenantRestore Scope)

def backupApps : BackupApps := BackupApps.new r.apps

/-- What the backup, and the app's references in it, name. -/
def mentioned : List Text :=
  r.sourceTenantId :: (r.apps.map Prod.fst ++ r.app.identifierUris.flatMap uriSegments ++
    r.app.preAuthorizedApplications.map PreAuthorizedApplication.appId)

/-- An id of the destination: a text for one segment, which the source does not name. -/
structure FreshId (id : Text) : Prop where
  ne_nil : id ≠ []
  segment : '/' ∉ id
  fresh : ∀ m ∈ r.mentioned, ¬ SameId id m

/-- The ids of the destination are fresh, and each is given once. -/
structure Fresh : Prop where
  appId : ∀ source new, r.remap.lookup source = some new → r.FreshId new
  once : ∀ source source' new new', r.remap.lookup source = some new →
    r.remap.lookup source' = some new' → SameId new new' → source = source'
  tenant : r.destTenantId = r.sourceTenantId ∨ r.FreshId r.destTenantId
  apart : ∀ source new, r.remap.lookup source = some new → ¬ SameId new r.destTenantId

def writtenResources : List RequiredResourceAccess :=
  (permissionsPatch r.app r.remap).getD []

def exposeApi : Option (ExposeApiPatch Scope) :=
  exposeApiPatch r.app r.remap r.backupApps r.newAppId r.sourceTenantId r.destTenantId

def writtenUris : List Text := (r.exposeApi.bind ExposeApiPatch.identifierUris).getD []

def writtenClients : List PreAuthorizedApplication :=
  (r.exposeApi.bind ExposeApiPatch.preAuthorizedApplications).getD []

def leftOut : List Text :=
  (planPreAuthorized r.app.preAuthorizedApplications r.remap r.backupApps).2

/-- No reference of the app is left on what was restored, and all others are kept. -/
structure ReferencesMoved : Prop where
  resources : List.Forall₂ (fun listed written => written.resourceAccess = listed.resourceAccess ∧
    Moved r.remap listed.resourceAppId written.resourceAppId) r.app.requiredResourceAccess
    r.writtenResources
  clients : ClientsMoved r.remap r.backupApps r.app.preAuthorizedApplications r.writtenClients
    r.leftOut
  uris : List.Forall₂ (UriMoved r.app.sourceAppId r.newAppId r.sourceTenantId r.destTenantId)
    r.app.identifierUris r.writtenUris
  back : List.Forall₂ SameId r.app.identifierUris (rewriteIdentifierUris r.writtenUris r.newAppId
    r.app.sourceAppId r.destTenantId r.sourceTenantId)

/-- A declared resource that names a restored app does so as the backup spells it. -/
def SpelledAsInBackup : Prop :=
  ∀ a ∈ r.app.requiredResourceAccess, ∀ source new, r.remap.lookup source = some new →
    SameId source a.resourceAppId → source = a.resourceAppId

end CrossTenantRestore

/-! ## The writes, unwrapped -/

theorem getD_nonempty? {α : Type} (l : List α) : (nonempty? l).getD [] = l := by
  cases l <;> rfl

section Written

variable (r : CrossTenantRestore Scope)

theorem writtenResources_eq :
    r.writtenResources = remapRequiredResourceAccess r.app.requiredResourceAccess r.remap :=
  getD_nonempty? _

theorem writtenUris_eq : r.writtenUris = rewriteIdentifierUris r.app.identifierUris
    r.app.sourceAppId r.newAppId r.sourceTenantId r.destTenantId := by
  unfold CrossTenantRestore.writtenUris CrossTenantRestore.exposeApi exposeApiPatch
  dsimp only
  split
  · exact getD_nonempty? _
  · next hnone =>
    rw [Bool.or_eq_true, Bool.or_eq_true, not_or, not_or] at hnone
    have hempty := hnone.1.1
    rw [Bool.not_eq_true, Bool.not_eq_false', List.isEmpty_iff] at hempty
    rw [hempty]
    rfl

theorem writtenClients_eq : r.writtenClients =
    (planPreAuthorized r.app.preAuthorizedApplications r.remap r.backupApps).1 := by
  unfold CrossTenantRestore.writtenClients CrossTenantRestore.exposeApi exposeApiPatch
  dsimp only
  cases hlisted : r.app.preAuthorizedApplications with
  | nil =>
    split
    · rfl
    · rfl
  | cons p rest =>
    rw [if_pos (by simp)]
    rfl

end Written

/-! ## Declared resources -/

section Resources

variable {r : CrossTenantRestore Scope}

/-- No appId of the destination is one of the backup. -/
theorem not_owned (hfresh : r.Fresh) {source new : Text} (h : r.remap.lookup source = some new)
    {a : Text × Text} (ha : a ∈ r.apps) : ¬ SameId new a.1 := by
  apply (hfresh.appId source new h).fresh
  simp only [CrossTenantRestore.mentioned, List.mem_cons, List.mem_append, List.mem_map]
  exact .inr (.inl (.inl ⟨a, ha, rfl⟩))

/-- The keys of the remap are distinct, ignoring case. -/
theorem remap_key_inj {source source' new new' : Text} (h : r.remap.lookup source = some new)
    (h' : r.remap.lookup source' = some new') (hsame : SameId source source') : source = source' := by
  obtain ⟨a, ha, rfl⟩ := r.owned source new h
  obtain ⟨a', ha', rfl⟩ := r.owned source' new' h'
  rw [List.inj_on_of_nodup_map r.distinct ha ha' hsame]

/-- A resource moves exactly when the backup spells the app it names as it does. -/
theorem moved_remapOrKeep_iff (hfresh : r.Fresh) (resource : Text) :
    Moved r.remap resource (remapOrKeep resource r.remap) ↔
      ∀ source new, r.remap.lookup source = some new → SameId source resource →
        source = resource := by
  unfold remapOrKeep
  cases hlookup : r.remap.lookup resource with
  | some new =>
    constructor
    · intro _ source new' hsource hsame
      exact remap_key_inj hsource hlookup hsame
    · exact fun _ => .inl ⟨resource, hlookup, rfl⟩
  | none =>
    constructor
    · rintro (⟨source, hsource, hsame⟩ | ⟨hnone, -⟩) source' new' hsource' hsame'
      · -- the resource would be an appId of the destination
        obtain ⟨a, ha, rfl⟩ := r.owned _ _ hsource
        exact absurd hsame.symm (not_owned hfresh hsource ha)
      · exact absurd hsame' (hnone source' new' hsource')
    · intro hspelled
      refine .inr ⟨fun source new hsource hsame => ?_, rfl⟩
      have heq := hspelled source new hsource hsame
      rw [heq, hlookup] at hsource
      exact absurd hsource (by simp)

theorem resources_moved_iff (hfresh : r.Fresh) :
    List.Forall₂ (fun listed written => written.resourceAccess = listed.resourceAccess ∧
      Moved r.remap listed.resourceAppId written.resourceAppId) r.app.requiredResourceAccess
      r.writtenResources ↔ r.SpelledAsInBackup := by
  rw [writtenResources_eq]
  unfold remapRequiredResourceAccess
  rw [List.forall₂_map_right_iff, List.forall₂_same]
  unfold CrossTenantRestore.SpelledAsInBackup
  refine forall₂_congr (fun a _ => ?_)
  rw [moved_remapOrKeep_iff hfresh]
  simp only [true_and]

end Resources

end Restore
