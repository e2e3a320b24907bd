import AzAppToolkit.Lib.Merge
import AzAppToolkit.Remediation.Redundant

set_option autoImplicit false

/-! # The plan of a restored app

`restore_plan.rs`: what a restored application refers to, given the backup and the map from the appIds
of the backup to those they were recreated as. Three rewriters use three rules of identity: declared
resources are looked up exactly, pre-authorized clients as the backup spells them in any case, and the
segments of identifier URIs by their text in any case.

Modelling choices:
* a hash map collected from a list keeps the last entry of a key;
* `dedup_pre_authorized` finds a client's entry, and the permission ids it has, through a hash map
  kept beside the list; here both are read off the list. -/

namespace Restore

open Remediation (RequiredResourceAccess)

/-! ## Identity ignoring case -/

/-- The ids are one, ignoring ASCII case. -/
abbrev SameId (a b : Text) : Prop := toAsciiLowercase a = toAsciiLowercase b

/-! ## The apps of a backup -/

abbrev AppIdRemap := Table Text Text

structure BackupApp where
  sourceAppId : Text
  displayName : Text

/-- The apps of a backup, by their appId in lower case. -/
structure BackupApps where
  apps : Table Text BackupApp

namespace BackupApps

/-- From source appIds and display names. -/
def new (apps : List (Text × Text)) : BackupApps :=
  ⟨apps.foldl (fun t a => t.insert (toAsciiLowercase a.1) ⟨a.1, a.2⟩) ∅⟩

def get (backup : BackupApps) (appId : Text) : Option BackupApp :=
  backup.apps.lookup (toAsciiLowercase appId)

def contains (backup : BackupApps) (appId : Text) : Bool := (backup.get appId).isSome

/-- `appId` as the backup spells it. -/
def sourceAppId (backup : BackupApps) (appId : Text) : Option Text :=
  (backup.get appId).map BackupApp.sourceAppId

end BackupApps

/-! ## Declared resources -/

def remapOrKeep (appId : Text) (appIdRemap : AppIdRemap) : Text :=
  (appIdRemap.lookup appId).getD appId

def remapRequiredResourceAccess (rra : List RequiredResourceAccess) (appIdRemap : AppIdRemap) :
    List RequiredResourceAccess :=
  rra.map (fun r => ⟨remapOrKeep r.resourceAppId appIdRemap, r.resourceAccess⟩)

/-! ## Identifier URIs -/

def scheme : Text := "api://".toList

/-- The segment is the id; an empty id is none. -/
def names (seg id : Text) : Bool := !id.isEmpty && Text.eqIgnoreAsciiCase seg id

def rewriteSegment (sourceAppId newAppId sourceTenantId destTenantId seg : Text) : Text :=
  if names seg sourceAppId then newAppId
  else if names seg sourceTenantId then destTenantId
  else seg

def rewriteIdentifierUri (sourceAppId newAppId sourceTenantId destTenantId uri : Text) : Text :=
  if Text.eqIgnoreAsciiCase (uri.take scheme.length) scheme then
    uri.take scheme.length ++ Text.join ['/']
      ((Text.splitOn (· == '/') (uri.drop scheme.length)).map
        (rewriteSegment sourceAppId newAppId sourceTenantId destTenantId))
  else uri

def rewriteIdentifierUris (uris : List Text)
    (sourceAppId newAppId sourceTenantId destTenantId : Text) : List Text :=
  uris.map (rewriteIdentifierUri sourceAppId newAppId sourceTenantId destTenantId)

/-! ## Pre-authorized clients -/

structure PreAuthorizedApplication where
  appId : Text
  delegatedPermissionIds : List Text

namespace PreAuthorizedApplication

def clientKey (p : PreAuthorizedApplication) : Text := toAsciiLowercase p.appId

end PreAuthorizedApplication

/-- Add the ids that are not there yet, ignoring case. -/
def addPermissions (permissions ids : List Text) : List Text :=
  ids.foldl (Merge.upsert toAsciiLowercase id (fun id _ => id)) permissions

/-- One entry for each client, with the permissions of all its listings. -/
def dedupPreAuthorized (preAuth : List PreAuthorizedApplication) : List PreAuthorizedApplication :=
  Merge.merge PreAuthorizedApplication.clientKey
    (fun p => ⟨p.appId, addPermissions [] p.delegatedPermissionIds⟩)
    (fun out p => ⟨out.appId, addPermissions out.delegatedPermissionIds p.delegatedPermissionIds⟩)
    preAuth

/-- What becomes of a client: written, or left out and reported. -/
inductive ClientPlan where
  | kept (p : PreAuthorizedApplication)
  | ownNotRestored (appId : Text)

def planClient (appIdRemap : AppIdRemap) (backupApps : BackupApps)
    (p : PreAuthorizedApplication) : ClientPlan :=
  match backupApps.sourceAppId p.appId with
  | none => .kept p
  | some sourceAppId =>
    match appIdRemap.lookup sourceAppId with
    | some newAppId => .kept ⟨newAppId, p.delegatedPermissionIds⟩
    | none => .ownNotRestored p.appId

def ClientPlan.kept? : ClientPlan → Option PreAuthorizedApplication
  | .kept p => some p
  | .ownNotRestored _ => none

def ClientPlan.ownNotRestored? : ClientPlan → Option Text
  | .kept _ => none
  | .ownNotRestored appId => some appId

/-- The clients a restored API is written with, and those it must not be. -/
def planPreAuthorized (preAuth : List PreAuthorizedApplication) (appIdRemap : AppIdRemap)
    (backupApps : BackupApps) : List PreAuthorizedApplication × List Text :=
  let plans := (dedupPreAuthorized preAuth).map (planClient appIdRemap backupApps)
  (plans.filterMap ClientPlan.kept?, plans.filterMap ClientPlan.ownNotRestored?)

/-! ## The backup's spelling -/

/-- The apps of a backup are found under their own appIds. -/
def BackupApps.Sound (backup : BackupApps) : Prop :=
  ∀ key app, backup.apps.lookup key = some app → toAsciiLowercase app.sourceAppId = key

theorem BackupApps.sound_new (apps : List (Text × Text)) : (BackupApps.new apps).Sound := by
  have hfold : ∀ (apps : List (Text × Text)) (t : Table Text BackupApp),
      BackupApps.Sound ⟨t⟩ → BackupApps.Sound
        ⟨apps.foldl (fun t a => t.insert (toAsciiLowercase a.1) ⟨a.1, a.2⟩) t⟩ := by
    intro apps
    induction apps with
    | nil => exact fun t h => h
    | cons a rest ih =>
      intro t h
      refine ih _ (fun key app hlookup => ?_)
      dsimp only at hlookup
      rw [AList.lookup_insert_eq] at hlookup
      split at hlookup
      · next heq =>
        obtain rfl := Option.some.inj hlookup
        exact heq.symm
      · exact h key app hlookup
  refine hfold apps ∅ (fun key app hlookup => ?_)
  dsimp only at hlookup
  rw [AList.lookup_empty] at hlookup
  exact absurd hlookup (by simp)

/-- An app of the backup is found, in any case. -/
theorem BackupApps.mem_of_sourceAppId {apps : List (Text × Text)} {appId source : Text}
    (h : (BackupApps.new apps).sourceAppId appId = some source) :
    SameId source appId ∧ ∃ a ∈ apps, a.1 = source := by
  have hmem : ∀ (apps : List (Text × Text)) (t : Table Text BackupApp) (key : Text) (app : BackupApp),
      (apps.foldl (fun t a => t.insert (toAsciiLowercase a.1) (⟨a.1, a.2⟩ : BackupApp)) t).lookup key =
        some app → t.lookup key = some app ∨ ∃ a ∈ apps, a.1 = app.sourceAppId := by
    intro apps
    induction apps with
    | nil => exact fun t key app h => .inl h
    | cons a rest ih =>
      intro t key app h
      rcases ih _ key app h with hold | ⟨b, hb, hsource⟩
      · rw [AList.lookup_insert_eq] at hold
        split at hold
        · exact .inr ⟨a, List.mem_cons_self, congrArg BackupApp.sourceAppId (Option.some.inj hold)⟩
        · exact .inl hold
      · exact .inr ⟨b, List.mem_cons_of_mem a hb, hsource⟩
  obtain ⟨app, happ, rfl⟩ := Option.map_eq_some_iff.1 h
  refine ⟨BackupApps.sound_new apps _ app happ, ?_⟩
  rcases hmem apps ∅ _ app happ with hnone | hfound
  · rw [AList.lookup_empty] at hnone
    exact absurd hnone (by simp)
  · exact hfound

/-- With distinct appIds every app of the backup is found under its own. -/
theorem BackupApps.sourceAppId_of_mem {apps : List (Text × Text)}
    (hdistinct : (apps.map (fun a => toAsciiLowercase a.1)).Nodup) {a : Text × Text} (ha : a ∈ apps)
    {appId : Text} (hsame : SameId appId a.1) :
    (BackupApps.new apps).sourceAppId appId = some a.1 := by
  have hlookup : (BackupApps.new apps).apps.lookup (toAsciiLowercase a.1) =
      some (⟨a.1, a.2⟩ : BackupApp) := by
    refine AList.lookup_foldl_insert (fun a : Text × Text => toAsciiLowercase a.1)
      (fun a => (⟨a.1, a.2⟩ : BackupApp)) apps ∅ a ha ?_
    intro b hb hkey
    rw [List.inj_on_of_nodup_map hdistinct hb ha hkey]
  unfold BackupApps.sourceAppId BackupApps.get
  rw [hsame, hlookup]
  rfl

theorem BackupApps.sourceAppId_congr (backup : BackupApps) {a b : Text} (h : SameId a b) :
    backup.sourceAppId a = backup.sourceAppId b := by
  unfold BackupApps.sourceAppId BackupApps.get
  rw [h]

theorem BackupApps.sameId_sourceAppId {backup : BackupApps} (h : backup.Sound) {appId source : Text}
    (hsource : backup.sourceAppId appId = some source) : SameId source appId := by
  obtain ⟨app, happ, rfl⟩ := Option.map_eq_some_iff.1 hsource
  exact h _ app happ

/-! ## One entry for each client -/

theorem keyed_permissions : Merge.Keyed toAsciiLowercase id (fun id _ => id) :=
  ⟨fun _ => rfl, fun _ _ => rfl⟩

theorem keyed_clients : Merge.Keyed PreAuthorizedApplication.clientKey
    (fun p => ⟨p.appId, addPermissions [] p.delegatedPermissionIds⟩)
    (fun out p =>
      ⟨out.appId, addPermissions out.delegatedPermissionIds p.delegatedPermissionIds⟩) :=
  ⟨fun _ => rfl, fun _ _ => rfl⟩

theorem mem_addPermissions (permissions ids : List Text) (key : Text) :
    key ∈ (addPermissions permissions ids).map toAsciiLowercase ↔
      key ∈ permissions.map toAsciiLowercase ∨ key ∈ ids.map toAsciiLowercase :=
  Merge.mem_map_key_foldl keyed_permissions ids permissions key

theorem nodup_dedup (preAuth : List PreAuthorizedApplication) :
    ((dedupPreAuthorized preAuth).map PreAuthorizedApplication.clientKey).Nodup :=
  Merge.nodup_merge keyed_clients preAuth

theorem mem_dedup_key (preAuth : List PreAuthorizedApplication) (key : Text) :
    key ∈ (dedupPreAuthorized preAuth).map PreAuthorizedApplication.clientKey ↔
      key ∈ preAuth.map PreAuthorizedApplication.clientKey :=
  Merge.mem_map_key_merge keyed_clients preAuth key

/-- The permission ids the listings of a client name, ignoring case. -/
def Listed (preAuth : List PreAuthorizedApplication) (client permission : Text) : Prop :=
  ∃ p ∈ preAuth, p.clientKey = client ∧
    permission ∈ p.delegatedPermissionIds.map toAsciiLowercase

/-- An entry is spelled as one of its client's listings, with the permissions of them all. -/
structure Merged (preAuth : List PreAuthorizedApplication) (e : PreAuthorizedApplication) : Prop where
  spelled : ∃ p ∈ preAuth, p.appId = e.appId
  permissions : ∀ key, key ∈ e.delegatedPermissionIds.map toAsciiLowercase ↔
    Listed preAuth e.clientKey key

theorem listed_snoc (done : List PreAuthorizedApplication) (p : PreAuthorizedApplication)
    (client permission : Text) :
    Listed (done ++ [p]) client permission ↔ Listed done client permission ∨
      p.clientKey = client ∧ permission ∈ p.delegatedPermissionIds.map toAsciiLowercase := by
  unfold Listed
  constructor
  · rintro ⟨q, hq, hkey, hmem⟩
    rcases List.mem_append.1 hq with hq | hq
    · exact .inl ⟨q, hq, hkey, hmem⟩
    · obtain rfl := List.mem_singleton.1 hq
      exact .inr ⟨hkey, hmem⟩
  · rintro (⟨q, hq, hkey, hmem⟩ | ⟨hkey, hmem⟩)
    · exact ⟨q, List.mem_append_left _ hq, hkey, hmem⟩
    · exact ⟨p, by simp, hkey, hmem⟩

variable {preAuth : List PreAuthorizedApplication}

theorem merged_of_mem_dedup {e : PreAuthorizedApplication}
    (he : e ∈ dedupPreAuthorized preAuth) : Merged preAuth e := by
  refine Merge.merge_induction keyed_clients Merged ?_ ?_ ?_ preAuth he
  · intro done p hnew
    refine ⟨⟨p, by simp, rfl⟩, fun key => ?_⟩
    have hnone : ¬ Listed done p.clientKey key := by
      rintro ⟨q, hq, hkey, -⟩
      exact hnew (hkey ▸ List.mem_map_of_mem hq)
    rw [mem_addPermissions, listed_snoc]
    simp [PreAuthorizedApplication.clientKey] at hnone ⊢
    exact fun hlisted => absurd hlisted hnone
  · intro done q p hkey hmerged
    obtain ⟨r, hr, hspelled⟩ := hmerged.spelled
    refine ⟨⟨r, List.mem_append_left _ hr, hspelled⟩, fun key => ?_⟩
    rw [mem_addPermissions, listed_snoc, hmerged.permissions]
    have hsame : (⟨q.appId, addPermissions q.delegatedPermissionIds p.delegatedPermissionIds⟩ :
        PreAuthorizedApplication).clientKey = q.clientKey := rfl
    rw [hsame]
    simp [hkey]
  · intro done q p hkey hmerged
    obtain ⟨r, hr, hspelled⟩ := hmerged.spelled
    refine ⟨⟨r, List.mem_append_left _ hr, hspelled⟩, fun key => ?_⟩
    rw [listed_snoc, hmerged.permissions]
    simp [Ne.symm hkey]

/-- What is planned for different clients differs. -/
theorem nodup_plans {β : Type} {f : PreAuthorizedApplication → Option β} {key : β → Text}
    (h : ∀ d ∈ dedupPreAuthorized preAuth, ∀ d' ∈ dedupPreAuthorized preAuth, ∀ b b',
      f d = some b → f d' = some b' → key b = key b' → SameId d.appId d'.appId) :
    (((dedupPreAuthorized preAuth).filterMap f).map key).Nodup := by
  have hnodup := nodup_dedup preAuth
  unfold List.Nodup at hnodup ⊢
  rw [List.pairwise_map] at hnodup ⊢
  rw [List.pairwise_filterMap]
  refine hnodup.imp_of_mem (fun {d d'} hd hd' hne b hb b' hb' hkey => hne ?_)
  exact h d hd d' hd' b b' hb hb' hkey

theorem mem_kept_iff {appIdRemap : AppIdRemap} {backupApps : BackupApps} {e : PreAuthorizedApplication} :
    e ∈ (planPreAuthorized preAuth appIdRemap backupApps).1 ↔
      ∃ d ∈ dedupPreAuthorized preAuth, (planClient appIdRemap backupApps d).kept? = some e := by
  unfold planPreAuthorized
  simp only [List.mem_filterMap, List.mem_map, exists_exists_and_eq_and]

theorem mem_ownNotRestored_iff {appIdRemap : AppIdRemap} {backupApps : BackupApps} {id : Text} :
    id ∈ (planPreAuthorized preAuth appIdRemap backupApps).2 ↔
      ∃ d ∈ dedupPreAuthorized preAuth,
        (planClient appIdRemap backupApps d).ownNotRestored? = some id := by
  unfold planPreAuthorized
  simp only [List.mem_filterMap, List.mem_map, exists_exists_and_eq_and]

end Restore
