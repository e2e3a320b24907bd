import AzAppToolkit.Keyvault.Rotation
import AzAppToolkit.Lib.Run

set_option autoImplicit false

/-! # A rotation strands neither side

The cloud a rotation works in, where a write that failed may have landed, and what holds of every call of a
rotation and of its end. `Live` is the invariant from the mint on: the minted key is on the app, and a
version tagged with it is one of the secret rotated and holds the minted value. -/

namespace Keyvault

open Prog
open Graph (GraphError TokenError Attempt withRetries withRetriesFrom)

/-! ## Claims -/

/-- The version is among the latest created, or undated, of those that claim an owner. -/
def NewestClaim (versions : List SecretItem) (v : SecretItem) : Prop :=
  v ∈ versions ∧ claimsAnOwner v = true ∧ ∀ c, created v = some c →
    ∀ w ∈ versions, claimsAnOwner w = true → ∀ c', created w = some c' → c' ≤ c

def NamesOther (objectId : Text) (appId : Option Text) (v : SecretItem) : Prop :=
  ∃ tags, v.tags = some tags ∧ ownedByOtherApp tags objectId appId ≠ none

/-- No newest claim names another application. -/
def NoForeign (objectId : Text) (appId : Option Text) (versions : List SecretItem) : Prop :=
  ∀ v, NewestClaim versions v → ¬ NamesOther objectId appId v

def objectTag (v : SecretItem) : Option Text := v.tags.bind (·.lookup tagObjectId)

/-- The secret is claimed, and each newest claim is one application's. -/
def OwnedBy (owner : Text) (versions : List SecretItem) : Prop :=
  (∃ v ∈ versions, claimsAnOwner v = true) ∧ ∀ v, NewestClaim versions v → objectTag v = some owner

theorem NewestClaim.perm {versions versions' : List SecretItem} {v : SecretItem}
    (h : NewestClaim versions v) (hperm : versions.Perm versions') : NewestClaim versions' v :=
  ⟨hperm.mem_iff.1 h.1, h.2.1, fun c hc w hw => h.2.2 c hc w (hperm.mem_iff.2 hw)⟩

theorem NewestClaim.of_append {versions new : List SecretItem} {v : SecretItem}
    (h : NewestClaim (versions ++ new) v) : NewestClaim versions v ∨ v ∈ new := by
  rcases List.mem_append.1 h.1 with hold | hnew
  · exact .inl ⟨hold, h.2.1, fun c hc w hw => h.2.2 c hc w (List.mem_append_left _ hw)⟩
  · exact .inr hnew

variable {versions : List SecretItem}

theorem newest_eq_some {c : Int} (h : ((versions.filter claimsAnOwner).filterMap created).max? = some c) :
    (∃ v ∈ versions, claimsAnOwner v = true ∧ created v = some c) ∧
      ∀ w ∈ versions, claimsAnOwner w = true → ∀ c', created w = some c' → c' ≤ c := by
  obtain ⟨hmem, hmax⟩ := List.max?_eq_some_iff.1 h
  refine ⟨?_, fun w hw hclaim c' hc' => ?_⟩
  · obtain ⟨v, hv, hc⟩ := List.mem_filterMap.1 hmem
    obtain ⟨hv, hclaim⟩ := List.mem_filter.1 hv
    exact ⟨v, hv, hclaim, hc⟩
  · exact hmax c' (List.mem_filterMap.2 ⟨w, List.mem_filter.2 ⟨hw, hclaim⟩, hc'⟩)

theorem exists_newestClaim (h : ∃ v ∈ versions, claimsAnOwner v = true) : ∃ v, NewestClaim versions v := by
  obtain ⟨v, hv, hclaim⟩ := h
  cases hnewest : ((versions.filter claimsAnOwner).filterMap created).max? with
  | some c =>
    obtain ⟨⟨w, hw, hwclaim, hwc⟩, hmax⟩ := newest_eq_some hnewest
    refine ⟨w, hw, hwclaim, fun c' hc' => ?_⟩
    obtain rfl := Option.some.inj (hwc.symm.trans hc')
    exact hmax
  | none =>
    have hnil := List.max?_eq_none_iff.1 hnewest
    refine ⟨v, hv, hclaim, fun c hc => ?_⟩
    have hmem : c ∈ (versions.filter claimsAnOwner).filterMap created :=
      List.mem_filterMap.2 ⟨v, List.mem_filter.2 ⟨hv, hclaim⟩, hc⟩
    rw [hnil] at hmem
    exact absurd hmem (by simp)

theorem mem_newest_iff {v : SecretItem} :
    v ∈ (versions.filter claimsAnOwner).filter (fun v => (created v).all
        (fun c => some c == ((versions.filter claimsAnOwner).filterMap created).max?)) ↔
      NewestClaim versions v := by
  rw [List.mem_filter, List.mem_filter, NewestClaim, and_assoc]
  refine and_congr_right fun hv => and_congr_right fun hclaim => ?_
  cases hc : created v with
  | none => simp
  | some c =>
    simp only [Option.all_some, beq_iff_eq, Option.some.injEq, forall_eq']
    constructor
    · exact fun hmax => (newest_eq_some hmax.symm).2
    · intro hlatest
      refine (List.max?_eq_some_iff.2 ⟨?_, fun c' hc' => ?_⟩).symm
      · exact List.mem_filterMap.2 ⟨v, List.mem_filter.2 ⟨hv, hclaim⟩, hc⟩
      · obtain ⟨w, hw, hwc⟩ := List.mem_filterMap.1 hc'
        obtain ⟨hw, hwclaim⟩ := List.mem_filter.1 hw
        exact hlatest w hw hwclaim c' hwc

variable {appId : Option Text}

/-- The gate lets a rotation on when no newest claim names another application. -/
theorem currentOwnerIfOther_eq_none {objectId : Text} :
    currentOwnerIfOther versions objectId appId = none ↔ NoForeign objectId appId versions := by
  unfold currentOwnerIfOther NoForeign
  dsimp only
  rw [List.findSome?_eq_none_iff]
  refine forall_congr' fun v => ?_
  rw [mem_newest_iff]
  refine imp_congr_right fun _ => ?_
  unfold NamesOther
  cases v.tags with
  | none | some tags => simp

theorem lookup_objectTag_rotationTags (appId : Option Text) (objectId keyId : Text) :
    (rotationTags appId objectId keyId).lookup tagObjectId = some (normalized objectId) := by
  have hkey : tagObjectId ≠ tagKeyId := by decide
  have happ : tagObjectId ≠ tagAppId := by decide
  unfold rotationTags
  dsimp only
  rw [AList.lookup_insert_ne hkey]
  split
  · rw [AList.lookup_insert_ne happ, AList.lookup_insert]
  · rw [AList.lookup_insert]

theorem lookup_keyTag_rotationTags (appId : Option Text) (objectId keyId : Text) :
    (rotationTags appId objectId keyId).lookup tagKeyId = some keyId :=
  AList.lookup_insert _

theorem not_namesOther_of_rotationTags {objectId keyId : Text} {v : SecretItem}
    (h : v.tags = some (rotationTags appId objectId keyId)) : ¬ NamesOther objectId appId v := by
  rintro ⟨tags, htags, hother⟩
  obtain rfl := Option.some.inj (htags.symm.trans h)
  refine hother ?_
  unfold ownedByOtherApp
  rw [lookup_objectTag_rotationTags]
  simp [Option.filter]

theorem NoForeign.append {objectId : Text} {versions new : List SecretItem}
    (h : NoForeign objectId appId versions) (keyId : Text)
    (hnew : ∀ v ∈ new, v.tags = some (rotationTags appId objectId keyId)) :
    NoForeign objectId appId (versions ++ new) := by
  intro v hv
  rcases hv.of_append with hold | hmem
  · exact h v hold
  · exact not_namesOther_of_rotationTags (hnew v hmem)

/-- The owner of a claimed secret is the one application the gate lets on. -/
theorem OwnedBy.owner_eq {owner objectId : Text}
    (h : OwnedBy owner versions) (hfree : NoForeign objectId appId versions) :
    owner = normalized objectId := by
  obtain ⟨v, hv⟩ := exists_newestClaim h.1
  have htag := h.2 v hv
  obtain ⟨tags, htags, hlookup⟩ := Option.bind_eq_some_iff.1 htag
  by_contra hne
  refine hfree v hv ⟨tags, htags, ?_⟩
  unfold ownedByOtherApp
  rw [hlookup]
  simpa [Option.filter] using hne

theorem OwnedBy.append {owner objectId : Text}
    {versions new : List SecretItem} (h : OwnedBy owner versions) (keyId : Text)
    (hfree : NoForeign objectId appId versions)
    (hnew : ∀ v ∈ new, v.tags = some (rotationTags appId objectId keyId)) :
    OwnedBy owner (versions ++ new) := by
  obtain ⟨v, hv, hclaim⟩ := h.1
  refine ⟨⟨v, List.mem_append_left _ hv, hclaim⟩, fun w hw => ?_⟩
  rcases hw.of_append with hold | hmem
  · exact h.2 w hold
  · rw [h.owner_eq hfree, objectTag, hnew w hmem]
    exact lookup_objectTag_rotationTags appId objectId keyId

/-! ## The cloud -/

structure StoredVersion where
  item : SecretItem
  value : Text

/-- The vaults, and the client secrets of each application. -/
structure Cloud where
  versions : Text → Text → List StoredVersion
  keys : Text → List Text

def Cloud.items (cloud : Cloud) (vault secret : Text) : List SecretItem :=
  (cloud.versions vault secret).map (·.item)

def Cloud.addKey (cloud : Cloud) (objectId keyId : Text) : Cloud :=
  { cloud with keys := Function.update cloud.keys objectId (cloud.keys objectId ++ [keyId]) }

def Cloud.removeKey (cloud : Cloud) (objectId keyId : Text) : Cloud :=
  { cloud with keys := Function.update cloud.keys objectId ((cloud.keys objectId).filter (· != keyId)) }

def Cloud.addVersions (cloud : Cloud) (vault secret : Text) (new : List StoredVersion) : Cloud :=
  { cloud with versions := fun v s =>
    if v = vault ∧ s = secret then cloud.versions v s ++ new else cloud.versions v s }

/-- No version of any secret is tagged with the key. -/
def Untagged (cloud : Cloud) (keyId : Text) : Prop :=
  ∀ vault secret, ∀ v ∈ cloud.versions vault secret, carriesKey keyId v.item = false

/-- No application has the key, and no version is tagged with it. -/
def Fresh (cloud : Cloud) (keyId : Text) : Prop :=
  (∀ objectId, keyId ∉ cloud.keys objectId) ∧ Untagged cloud keyId

/-- What a call does. A write that failed may have landed, any number of times; a mint that failed may have
    added a key that nobody knows. -/
def Effect (cloud : Cloud) : (c : Call) → Answer c → Cloud → Prop
  | .listSecretVersions vault secret, r, cloud' => cloud' = cloud ∧
      match r with
      | .ok items => items.Perm (cloud.items vault secret)
      | .error (.notFound _) => cloud.versions vault secret = []
      | .error _ => True
  | .addPassword objectId _ _, r, cloud' =>
    match r with
    | .ok minted => Fresh cloud minted.keyId ∧ cloud' = cloud.addKey objectId minted.keyId
    | .error _ => cloud' = cloud ∨ ∃ keyId, Fresh cloud keyId ∧ cloud' = cloud.addKey objectId keyId
  | .removePassword objectId keyId, r, cloud' =>
    cloud' = cloud.removeKey objectId keyId ∨ (∀ u, r ≠ .ok u) ∧ cloud' = cloud
  | .put vault secret req, r, cloud' => ∃ new : List StoredVersion,
      (∀ v ∈ new, v.item.tags = req.tags ∧ v.value = req.value) ∧
      (∀ resp, r = .ok resp → Graph.isSuccess resp.status = true → new ≠ []) ∧
      cloud' = cloud.addVersions vault secret new
  | _, _, cloud' => cloud' = cloud

/-- The cloud, and what this rotation has asked so far. -/
structure State where
  cloud : Cloud
  log : Trace

def world : World Answer State := fun s c r s' => s'.log = s.log ++ [⟨c, r⟩] ∧ Effect s.cloud c r s'.cloud

def Minted (log : Trace) (minted : PasswordCredential) : Prop :=
  ∃ objectId displayName secs, ⟨.addPassword objectId displayName secs, .ok minted⟩ ∈ log

/-- The secret rotated holds the minted value, under its key. -/
def Held (input : RotateCredentialInput) (cloud : Cloud) (minted : PasswordCredential) : Prop :=
  ∃ v ∈ cloud.versions input.vaultName input.secretName, carriesKey minted.keyId v.item = true ∧
    minted.secretText = some v.value

/-- The ownership read allows the mint. -/
structure MayMint (input : RotateCredentialInput) (s : State) : Prop where
  read : ∃ r, ⟨.listSecretVersions input.vaultName input.secretName, r⟩ ∈ s.log
  noFailure : ∀ err, ⟨.listSecretVersions input.vaultName input.secretName, .error err⟩ ∈ s.log →
    ∃ body, err = .notFound body
  noForeign : NoForeign input.objectId input.appId (s.cloud.items input.vaultName input.secretName)

/-- Where the calls of a rotation may be made. -/
def Allowed (input : RotateCredentialInput) (s : State) : Call → Prop
  | .addPassword objectId _ _ => objectId = input.objectId ∧ MayMint input s
  | .put vault secret req => vault = input.vaultName ∧ secret = input.secretName ∧
      NoForeign input.objectId input.appId (s.cloud.items vault secret) ∧
      ∃ keyId, req.tags = some (rotationTags input.appId input.objectId keyId)
  | .removePassword objectId keyId => objectId = input.objectId ∧
      (∀ minted, Minted s.log minted → keyId = minted.keyId → Untagged s.cloud keyId) ∧
      ((∃ minted, Minted s.log minted ∧ keyId = minted.keyId) ∨
        keyId ∈ input.removeKeyIds ∧ ∃ minted, Minted s.log minted ∧ Held input s.cloud minted)
  | _ => True

/-- How a rotation ends. -/
def Ended (input : RotateCredentialInput) (s : State) : Except UiError RotateCredentialResult → Prop
  | .ok result => ∃ minted, Minted s.log minted ∧ result.newKeyId = minted.keyId ∧
      minted.keyId ∈ s.cloud.keys input.objectId ∧ Held input s.cloud minted
  | .error err => ∀ minted, Minted s.log minted →
      minted.keyId ∉ s.cloud.keys input.objectId ∨
      minted.keyId <:+: err.message ∧ ⟨.invalidateAppCredentials input.objectId, ()⟩ ∈ s.log

/-! ## Small facts -/

section Facts

variable {input : RotateCredentialInput} {s s' : State} {minted : PasswordCredential} {cloud : Cloud}

@[simp] theorem versions_addKey (objectId keyId : Text) :
    (cloud.addKey objectId keyId).versions = cloud.versions := rfl

@[simp] theorem versions_removeKey (objectId keyId : Text) :
    (cloud.removeKey objectId keyId).versions = cloud.versions := rfl

@[simp] theorem keys_addVersions (vault secret : Text) (new : List StoredVersion) :
    (cloud.addVersions vault secret new).keys = cloud.keys := rfl

theorem items_addVersions (vault secret : Text) (new : List StoredVersion) (v n : Text) :
    (cloud.addVersions vault secret new).items v n =
      cloud.items v n ++ if v = vault ∧ n = secret then new.map (·.item) else [] := by
  unfold Cloud.items Cloud.addVersions
  dsimp only
  split
  · rw [List.map_append]
  · rw [List.append_nil]

theorem mem_removeKey {objectId objectId' keyId k : Text} :
    k ∈ (cloud.removeKey objectId keyId).keys objectId' ↔
      k ∈ cloud.keys objectId' ∧ (objectId' = objectId → k ≠ keyId) := by
  unfold Cloud.removeKey
  dsimp only
  by_cases hobj : objectId' = objectId
  · subst hobj
    rw [Function.update_self]
    simp
  · rw [Function.update_of_ne hobj]
    simp [hobj]

theorem minted_snoc {log : Trace} {e : Exchanged Answer} :
    Minted (log ++ [e]) minted ↔ Minted log minted ∨
      ∃ objectId displayName secs, e = ⟨.addPassword objectId displayName secs, .ok minted⟩ := by
  unfold Minted
  simp only [List.mem_append, List.mem_singleton, exists_or]
  refine or_congr_right ?_
  simp only [eq_comm]

/-- The call mints nothing. -/
def mintsNothing : Call → Prop
  | .addPassword _ _ _ => False
  | _ => True

theorem minted_snoc_other {log : Trace} {c : Call} {r : Answer c} (hc : mintsNothing c) :
    Minted (log ++ [⟨c, r⟩]) minted ↔ Minted log minted := by
  rw [minted_snoc, or_iff_left]
  rintro ⟨objectId, displayName, secs, heq⟩
  rw [Sigma.mk.injEq] at heq
  rw [heq.1] at hc
  exact hc

/-! ## From the mint on -/

/-- A minted key is on the app, and only versions that hold its value are tagged with it. -/
structure Live (input : RotateCredentialInput) (minted : PasswordCredential) (s : State) : Prop where
  only : ∀ m, Minted s.log m ↔ m = minted
  onApp : minted.keyId ∈ s.cloud.keys input.objectId
  tagged : ∀ vault secret, ∀ v ∈ s.cloud.versions vault secret, carriesKey minted.keyId v.item = true →
    vault = input.vaultName ∧ secret = input.secretName ∧ minted.secretText = some v.value
  noForeign : NoForeign input.objectId input.appId (s.cloud.items input.vaultName input.secretName)

theorem Live.held (h : Live input minted s) {v : StoredVersion}
    (hv : v ∈ s.cloud.versions input.vaultName input.secretName)
    (hkey : carriesKey minted.keyId v.item = true) : Held input s.cloud minted :=
  ⟨v, hv, hkey, (h.tagged _ _ v hv hkey).2.2⟩

/-- A call that changes nothing of the cloud. -/
theorem Live.same (h : Live input minted s) {c : Call} {r : Answer c}
    (hlog : s'.log = s.log ++ [⟨c, r⟩]) (hcloud : s'.cloud = s.cloud) (hc : mintsNothing c) :
    Live input minted s' := by
  refine ⟨fun m => ?_, hcloud ▸ h.onApp, hcloud ▸ h.tagged, hcloud ▸ h.noForeign⟩
  rw [hlog, minted_snoc_other hc]
  exact h.only m

/-- The request that stores a minted secret. -/
structure Stores (input : RotateCredentialInput) (minted : PasswordCredential) (req : SecretSetRequest) :
    Prop where
  tags : req.tags = some (rotationTags input.appId input.objectId minted.keyId)
  value : minted.secretText = some req.value

theorem carriesKey_of_rotationTags {objectId keyId : Text} {v : SecretItem}
    (h : v.tags = some (rotationTags appId objectId keyId)) : carriesKey keyId v = true := by
  unfold carriesKey
  rw [h, Option.any_some, lookup_keyTag_rotationTags]
  exact beq_self_eq_true _

theorem Live.put (h : Live input minted s) {req : SecretSetRequest} (hreq : Stores input minted req)
    {r : Except Text Response} (hw : world s (.put input.vaultName input.secretName req) r s') :
    Live input minted s' ∧
      (∀ resp, r = .ok resp → Graph.isSuccess resp.status = true → Held input s'.cloud minted) := by
  obtain ⟨hlog, new, hnew, hsuccess, hcloud⟩ := hw
  have htags : ∀ v ∈ new, v.item.tags = some (rotationTags input.appId input.objectId minted.keyId) :=
    fun v hv => (hnew v hv).1.trans hreq.tags
  have hmem : ∀ vault secret v, v ∈ s'.cloud.versions vault secret → v ∈ s.cloud.versions vault secret ∨
      (vault = input.vaultName ∧ secret = input.secretName ∧ v ∈ new) := by
    intro vault secret v hv
    rw [hcloud] at hv
    unfold Cloud.addVersions at hv
    dsimp only at hv
    split at hv
    · next hhere =>
      exact (List.mem_append.1 hv).imp_right (fun hv => ⟨hhere.1, hhere.2, hv⟩)
    · exact .inl hv
  have hlive : Live input minted s' := by
    refine ⟨fun m => ?_, ?_, fun vault secret v hv hkey => ?_, ?_⟩
    · rw [hlog, minted_snoc_other (show mintsNothing (.put _ _ _) from trivial)]
      exact h.only m
    · rw [hcloud]
      exact h.onApp
    · rcases hmem vault secret v hv with hold | ⟨hvault, hsecret, hv⟩
      · exact h.tagged vault secret v hold hkey
      · exact ⟨hvault, hsecret, (hnew v hv).2 ▸ hreq.value⟩
    · rw [hcloud, items_addVersions, if_pos ⟨rfl, rfl⟩]
      refine h.noForeign.append minted.keyId (fun v hv => ?_)
      obtain ⟨stored, hstored, rfl⟩ := List.mem_map.1 hv
      exact htags stored hstored
  refine ⟨hlive, fun resp hresp hok => ?_⟩
  obtain ⟨v, hv⟩ := List.exists_mem_of_ne_nil new (hsuccess resp hresp hok)
  refine hlive.held (v := v) ?_ (carriesKey_of_rotationTags (htags v hv))
  rw [hcloud]
  unfold Cloud.addVersions
  dsimp only
  rw [if_pos ⟨rfl, rfl⟩]
  exact List.mem_append_right _ hv

/-! ## The write -/

/-- How an attempt ends: a body comes with a success, and no error says that nothing was sent. -/
theorem classify_cases (r : Except Text Response) :
    (∃ bytes resp, classify r = .done (.ok bytes) ∧ r = .ok resp ∧ Graph.isSuccess resp.status = true) ∨
    (∃ err : KeyVaultError, err.sentNothing = false ∧
      (classify r = .done (.error err) ∨ ∃ reason secs, classify r = .retry reason secs err)) := by
  cases r with
  | error chain => exact .inr ⟨.network chain, rfl, .inr ⟨_, _, rfl⟩⟩
  | ok resp =>
    unfold classify
    dsimp only
    split
    · next hok =>
      cases hbody : resp.body with
      | ok bytes => exact .inl ⟨bytes, resp, rfl, rfl, hok⟩
      | error err => cases err <;> exact .inr ⟨_, rfl, .inl rfl⟩
    · refine .inr ?_
      split
      · exact ⟨_, rfl, .inl rfl⟩
      · split
        · exact ⟨_, rfl, .inl rfl⟩
        · split
          · exact ⟨_, rfl, .inl rfl⟩
          · split
            · exact ⟨_, rfl, .inr ⟨_, _, rfl⟩⟩
            · split
              · exact ⟨_, rfl, .inl rfl⟩
              · exact ⟨_, rfl, .inr ⟨_, _, rfl⟩⟩

/-- An attempt ends the call, or may be followed by another. -/
def AfterAttempt {α ε : Type} (I : State → Prop) (post : State → Except ε α → Prop) (s : State) :
    Attempt α ε → Prop
  | .done r => post s r
  | .retry _ _ err => I s ∧ post s (.error err)

/-- The retry loop, by an invariant of its attempts and waits. -/
theorem meets_withRetriesFrom {α ε : Type} {w : World Answer State} {ok : State → Call → Prop}
    {I : State → Prop} {post : State → Except ε α → Prop} {wait : Option Nat → Nat → Async Unit}
    {attempt : Async (Attempt α ε)} (cls : Graph.RetryClass)
    (hattempt : ∀ s, I s → Meets w ok (AfterAttempt I post) s attempt)
    (hwait : ∀ s secs delay, I s → Meets w ok (fun s _ => I s) s (wait secs delay)) {s : State}
    (hs : I s) (left delay : Nat) : Meets w ok post s (withRetriesFrom wait cls attempt left delay) := by
  induction left generalizing s delay with
  | zero =>
    unfold withRetriesFrom
    refine Meets.bind ((hattempt s hs).mono (fun s a ha => ?_))
    cases a with
    | done r => exact ha
    | retry reason secs err =>
      dsimp only
      split
      · exact ha.2
      · exact ha.2
  | succ left ih =>
    unfold withRetriesFrom
    refine Meets.bind ((hattempt s hs).mono (fun s a ha => ?_))
    cases a with
    | done r => exact ha
    | retry reason secs err =>
      dsimp only
      split
      · exact ha.2
      · exact Meets.bind ((hwait s secs delay ha.1).mono (fun s _ hs => ih hs _))

/-- After the write: it held, or it failed, and where nothing was sent nothing is tagged. -/
def AfterWrite (input : RotateCredentialInput) (minted : PasswordCredential) {α : Type} :
    State → Except KeyVaultError α → Prop
  | s, .ok _ => Live input minted s ∧ Held input s.cloud minted
  | s, .error err => Live input minted s ∧ (err.sentNothing = true → Untagged s.cloud minted.keyId)

theorem meets_setSecret (wire : Wire) (h : Live input minted s) (hnone : Untagged s.cloud minted.keyId)
    {req : SecretSetRequest} (hreq : Stores input minted req) :
    Meets world (Allowed input) (AfterWrite input minted) s
      (setSecret wire input.vaultName input.secretName req) := by
  unfold setSecret
  split
  · exact ⟨h, fun _ => hnone⟩
  · have hsend : Meets world (Allowed input) (AfterWrite input minted) s
        (sendCoreUrl wire input.vaultName input.secretName req) := by
      unfold sendCoreUrl
      refine Meets.bind ⟨trivial, fun r s₁ hw => ?_⟩
      have hcloud : s₁.cloud = s.cloud := hw.2
      have h₁ : Live input minted s₁ := h.same hw.1 hcloud trivial
      cases r with
      | error err => exact ⟨h₁, fun _ => hcloud ▸ hnone⟩
      | ok bearer =>
        change Meets world (Allowed input) (AfterWrite input minted) s₁ (if _ then _ else _)
        split
        · refine meets_withRetriesFrom (I := Live input minted) _ (fun s₂ h₂ => ?_)
            (fun s₂ secs delay h₂ => ?_) h₁ _ _
          · refine Meets.bind ⟨⟨rfl, rfl, h₂.noForeign, _, hreq.tags⟩, fun r s₃ hw₃ => ?_⟩
            obtain ⟨h₃, hheld⟩ := h₂.put hreq hw₃
            change AfterAttempt (Live input minted) (AfterWrite input minted) s₃ (classify r)
            rcases classify_cases r with ⟨bytes, resp, hclass, hr, hok⟩ | ⟨err, hsent, hclass⟩
            · rw [hclass]
              exact ⟨h₃, hheld resp hr hok⟩
            · have hafter : AfterWrite (α := Graph.Bytes) input minted s₃ (.error err) :=
                ⟨h₃, fun hbad => absurd hbad (by rw [hsent]; simp)⟩
              rcases hclass with hdone | ⟨reason, secs, hretry⟩
              · rw [hdone]
                exact hafter
              · rw [hretry]
                exact ⟨h₃, hafter⟩
          · exact ⟨trivial, fun r s₃ hw₃ => h₂.same hw₃.1 hw₃.2 trivial⟩
        · exact ⟨h₁, fun _ => hcloud ▸ hnone⟩
    refine Meets.bind (hsend.mono (fun s₁ r hr => ?_))
    cases r with
    | error err => exact hr
    | ok bytes =>
      show AfterWrite input minted s₁ ((wire.parse bytes).mapError KeyVaultError.deserialize)
      cases wire.parse bytes with
      | ok item => exact hr
      | error message => exact ⟨hr.1, fun hbad => absurd hbad (by simp [KeyVaultError.sentNothing])⟩

theorem validateSecretName_cases (wire : Wire) (name : Text) :
    (∃ message, validateSecretName wire name = .error (.invalidName message)) ∨
      validateSecretName wire name = .ok () := by
  unfold validateSecretName
  split
  · exact .inr rfl
  · exact .inl ⟨_, rfl⟩

/-! ## Roll back or keep -/

/-- A rotation that stopped after its mint: the key is off the app, or the error names it. -/
structure Stopped (input : RotateCredentialInput) (minted : PasswordCredential) (s : State) (u : Unstored) :
    Prop where
  only : ∀ m, Minted s.log m ↔ m = minted
  gone : u.leftOnApp = false → minted.keyId ∉ s.cloud.keys input.objectId
  named : u.leftOnApp = true → minted.keyId <:+: u.err.message

theorem meets_rollBack (wire : Wire) (h : Live input minted s) (hnone : Untagged s.cloud minted.keyId)
    (displayName : Text) (err : UiError) :
    Meets world (Allowed input) (Stopped input minted) s
      (rollBack wire input.objectId minted displayName err) := by
  unfold rollBack
  refine Meets.bind ⟨⟨rfl, fun _ _ _ => hnone, .inl ⟨minted, (h.only minted).2 rfl, rfl⟩⟩,
    fun r s₁ hw => ?_⟩
  have honly : ∀ m, Minted s₁.log m ↔ m = minted := by
    intro m
    rw [hw.1, minted_snoc_other (show mintsNothing (.removePassword _ _) from trivial)]
    exact h.only m
  cases r with
  | ok u =>
    refine ⟨honly, fun _ hmem => ?_, fun hbad => absurd hbad (by simp)⟩
    rcases hw.2 with hcloud | ⟨hfailed, -⟩
    · rw [hcloud] at hmem
      exact (mem_removeKey.1 hmem).2 rfl rfl
    · exact hfailed u rfl
  | error rollback =>
    refine ⟨honly, fun hbad => absurd hbad (by simp), fun _ => ?_⟩
    dsimp only
    refine ⟨err.message ++ "\n\nThe new client secret '".toList ++ displayName ++
      "' (key id ".toList, ") couldn't be removed again (".toList ++ wire.showGraph rollback ++
      ("). Nobody holds its value: refresh this app, then delete it from " ++
        "the Credentials tab.").toList, ?_⟩
    simp only [List.append_assoc]

theorem untagged_of_held_false (h : Live input minted s)
    (hnone : ∀ v ∈ s.cloud.versions input.vaultName input.secretName,
      carriesKey minted.keyId v.item = false) : Untagged s.cloud minted.keyId := by
  intro vault secret v hv
  by_contra hkey
  obtain ⟨rfl, rfl, -⟩ := h.tagged vault secret v hv (by simpa using hkey)
  exact hkey (hnone v hv)

/-- The read-back is right about the vault. -/
def AfterReadBack (input : RotateCredentialInput) (minted : PasswordCredential) (s : State) :
    Except KeyVaultError Bool → Prop
  | .ok true => Live input minted s ∧ Held input s.cloud minted
  | .ok false => Live input minted s ∧ Untagged s.cloud minted.keyId
  | .error _ => Live input minted s

theorem meets_vaultHoldsKey (wire : Wire) (h : Live input minted s) :
    Meets world (Allowed input) (AfterReadBack input minted) s
      (vaultHoldsKey wire input.vaultName input.secretName minted.keyId) := by
  unfold vaultHoldsKey listSecretVersions
  rcases validateSecretName_cases wire input.secretName with ⟨message, hname⟩ | hname
  · rw [hname]
    exact h
  · rw [hname]
    refine Meets.bind ⟨trivial, fun r s₁ hw => ?_⟩
    have h₁ : Live input minted s₁ := h.same hw.1 hw.2.1 trivial
    have hlisted := hw.2.2
    cases r with
    | ok items =>
      have hperm : items.Perm (s₁.cloud.items input.vaultName input.secretName) := hw.2.1 ▸ hlisted
      show AfterReadBack input minted s₁ (.ok (items.any (carriesKey minted.keyId)))
      cases hany : items.any (carriesKey minted.keyId) with
      | true =>
        obtain ⟨item, hitem, hkey⟩ := List.any_eq_true.1 hany
        obtain ⟨v, hv, rfl⟩ := List.mem_map.1 (hperm.mem_iff.1 hitem)
        exact ⟨h₁, h₁.held hv hkey⟩
      | false =>
        refine ⟨h₁, untagged_of_held_false h₁ (fun v hv => ?_)⟩
        have hmem := hperm.mem_iff.2 (List.mem_map_of_mem (f := (·.item)) hv)
        simpa using List.any_eq_false.1 hany v.item hmem
    | error err =>
      cases err with
      | notFound body =>
        refine ⟨h₁, untagged_of_held_false h₁ (fun v hv => ?_)⟩
        have hempty : s₁.cloud.versions input.vaultName input.secretName = [] := hw.2.1 ▸ hlisted
        rw [hempty] at hv
        exact absurd hv (by simp)
      | _ => exact h₁

theorem keyId_infix_keptError (wire : Wire) (input : RotateCredentialInput) (minted : PasswordCredential)
    (displayName : Text) (err readBack : KeyVaultError) :
    minted.keyId <:+: (keptError wire input minted displayName err readBack).message := by
  unfold keptError
  dsimp only
  refine List.IsInfix.trans ?_ (List.prefix_append _ _).isInfix
  exact (List.suffix_append _ _).isInfix

def AfterStore (input : RotateCredentialInput) (minted : PasswordCredential) (s : State) :
    Except Unstored (List Text) → Prop
  | .ok _ => Live input minted s ∧ Held input s.cloud minted
  | .error u => Stopped input minted s u

theorem meets_storeMinted (wire : Wire) (h : Live input minted s) (hnone : Untagged s.cloud minted.keyId)
    (displayName : Text) :
    Meets world (Allowed input) (AfterStore input minted) s
      (storeMinted wire input minted displayName) := by
  unfold storeMinted
  cases hvalue : minted.secretText with
  | none => exact Meets.bind ((meets_rollBack wire h hnone displayName _).mono (fun _ _ hu => hu))
  | some value =>
    refine Meets.bind ((meets_setSecret wire h hnone ⟨rfl, hvalue⟩).mono (fun s₁ r hr => ?_))
    cases r with
    | ok item => exact hr
    | error err =>
      obtain ⟨h₁, hsent⟩ := hr
      dsimp only
      split
      · next hnothing =>
        exact Meets.bind ((meets_rollBack wire h₁ (hsent hnothing) displayName _).mono
          (fun _ _ hu => hu))
      · refine Meets.bind ((meets_vaultHoldsKey wire h₁).mono (fun s₂ r hr => ?_))
        match r, hr with
        | .ok true, hr => exact hr
        | .ok false, ⟨h₂, hnone₂⟩ =>
          exact Meets.bind ((meets_rollBack wire h₂ hnone₂ displayName _).mono (fun _ _ hu => hu))
        | .error readBack, h₂ =>
          exact ⟨h₂.only, fun hbad => absurd hbad (by simp),
            fun _ => keyId_infix_keptError wire input minted displayName err readBack⟩

/-! ## The end -/

theorem Live.removeOther (h : Live input minted s) {keyId : Text} {r : Except GraphError Unit}
    (hne : keyId ≠ minted.keyId) (hw : world s (.removePassword input.objectId keyId) r s') :
    Live input minted s' ∧ (Held input s.cloud minted → Held input s'.cloud minted) := by
  have hversions : s'.cloud.versions = s.cloud.versions := by
    rcases hw.2 with hcloud | ⟨-, hcloud⟩
    · exact hcloud ▸ rfl
    · exact hcloud ▸ rfl
  refine ⟨⟨fun m => ?_, ?_, hversions ▸ h.tagged, ?_⟩, fun hheld => ?_⟩
  · rw [hw.1, minted_snoc_other (show mintsNothing (.removePassword _ _) from trivial)]
    exact h.only m
  · rcases hw.2 with hcloud | ⟨-, hcloud⟩
    · rw [hcloud]
      exact mem_removeKey.2 ⟨h.onApp, fun _ => hne.symm⟩
    · rw [hcloud]
      exact h.onApp
  · unfold Cloud.items
    rw [hversions]
    exact h.noForeign
  · unfold Held
    rw [hversions]
    exact hheld

theorem meets_finishRotation (wire : Wire) (h : Live input minted s) (hheld : Held input s.cloud minted)
    (warnings : List Text) :
    Meets world (Allowed input) (fun s' result => Ended input s' (.ok result)) s
      (finishRotation wire input minted warnings) := by
  unfold finishRotation removePrevious
  refine Meets.bind ((Meets.foldlM (fun _ s _ => Live input minted s ∧ Held input s.cloud minted)
    (fun before keyId after s st hsplit hinv => ?_) ⟨h, hheld⟩).mono (fun s₁ st hinv => ?_))
  · split
    · exact hinv
    · next hne =>
      have hlisted : keyId ∈ input.removeKeyIds := by rw [hsplit]; simp
      have hne' : keyId ≠ minted.keyId := by simpa using hne
      refine Meets.bind ⟨⟨rfl, fun m hm hkey => ?_, .inr ⟨hlisted, minted, (hinv.1.only minted).2 rfl,
        hinv.2⟩⟩, fun r s₂ hw => ?_⟩
      · obtain rfl := (hinv.1.only m).1 hm
        exact absurd hkey hne'
      · have hkept := hinv.1.removeOther hne' hw
        cases r <;> exact ⟨hkept.1, hkept.2 hinv.2⟩
  · refine Meets.bind ⟨trivial, fun r s₂ hw => ?_⟩
    have h₂ : Live input minted s₂ := hinv.1.same hw.1 hw.2 trivial
    have hheld₂ : Held input s₂.cloud minted := by
      rw [show s₂.cloud = s₁.cloud from hw.2]
      exact hinv.2
    have hended : ∀ (s₃ : State) (warnings : List Text), s₃.cloud = s₂.cloud → Live input minted s₃ →
        Ended input s₃ (.ok ⟨minted.keyId, input.vaultName, input.secretName, minted.endDateTime,
          st.removed, warnings⟩) :=
      fun s₃ warnings hcloud h₃ => ⟨minted, (h₃.only minted).2 rfl, rfl, h₃.onApp, hcloud ▸ hheld₂⟩
    cases input.appId with
    | none => exact hended s₂ _ rfl h₂
    | some appId =>
      refine Meets.bind (p := call _ >>= _) (Meets.bind ⟨trivial, fun r s₃ hw₃ => ?_⟩)
      have h₃ : Live input minted s₃ := h₂.same hw₃.1 hw₃.2 trivial
      cases r <;> exact hended s₃ _ hw₃.2 h₃

/-! ## The whole rotation -/

theorem MayMint.today {r : Text} (h : MayMint input s) (hlog : s'.log = s.log ++ [⟨.today, r⟩])
    (hcloud : s'.cloud = s.cloud) : MayMint input s' := by
  obtain ⟨⟨answer, hread⟩, hfail, hfree⟩ := h
  refine ⟨⟨answer, ?_⟩, fun err herr => hfail err ?_, hcloud ▸ hfree⟩
  · rw [hlog]
    exact List.mem_append_left _ hread
  · rw [hlog] at herr
    simpa using herr

theorem live_of_mint {objectId displayName : Text} {secs : Nat} (hmay : MayMint input s)
    (hnone : ∀ m, ¬ Minted s.log m) (hobj : objectId = input.objectId)
    (hw : world s (.addPassword objectId displayName secs) (.ok minted) s') :
    Live input minted s' ∧ Untagged s'.cloud minted.keyId := by
  obtain ⟨hlog, ⟨-, huntagged⟩, hcloud⟩ := hw
  refine ⟨⟨fun m => ?_, ?_, fun vault secret v hv hkey => ?_, ?_⟩, ?_⟩
  · rw [hlog, minted_snoc, or_iff_right (hnone m)]
    constructor
    · rintro ⟨_, _, _, heq⟩
      rw [Sigma.mk.injEq, Call.addPassword.injEq] at heq
      obtain ⟨⟨rfl, rfl, rfl⟩, hans⟩ := heq
      exact (Except.ok.inj (eq_of_heq hans)).symm
    · rintro rfl
      exact ⟨_, _, _, rfl⟩
  · rw [hcloud, ← hobj]
    simp [Cloud.addKey]
  · rw [hcloud] at hv
    exact absurd hkey (by rw [huntagged vault secret v hv]; simp)
  · rw [hcloud]
    exact hmay.noForeign
  · rw [hcloud]
    exact huntagged

theorem meets_mintAndStore (wire : Wire) (hmay : MayMint input s) (hnone : ∀ m, ¬ Minted s.log m) :
    Meets world (Allowed input) (Ended input) s (mintAndStore wire input) := by
  unfold mintAndStore
  refine Meets.bind ⟨trivial, fun date s₁ hw₁ => ?_⟩
  have hmay₁ := hmay.today hw₁.1 hw₁.2
  have hnone₁ : ∀ m, ¬ Minted s₁.log m := by
    intro m
    rw [hw₁.1, minted_snoc_other (show mintsNothing .today from trivial)]
    exact hnone m
  refine Meets.bind ⟨⟨rfl, hmay₁⟩, fun r s₂ hw₂ => ?_⟩
  cases r with
  | error err =>
    intro m hm
    rw [hw₂.1, minted_snoc, or_iff_right (hnone₁ m)] at hm
    obtain ⟨_, _, _, heq⟩ := hm
    rw [Sigma.mk.injEq, Call.addPassword.injEq] at heq
    obtain ⟨⟨rfl, rfl, rfl⟩, hans⟩ := heq
    exact absurd (eq_of_heq hans) (by simp)
  | ok minted =>
    obtain ⟨hlive, huntagged⟩ := live_of_mint hmay₁ hnone₁ rfl hw₂
    refine Meets.bind ((meets_storeMinted wire hlive huntagged _).mono (fun s₃ stored h₃ => ?_))
    cases stored with
    | ok warnings =>
      exact Meets.bind ((meets_finishRotation wire h₃.1 h₃.2 warnings).mono (fun _ _ hend => hend))
    | error u =>
      dsimp only
      split
      · next hleft =>
        refine Meets.bind ⟨trivial, fun r s₄ hw₄ => fun m hm => .inr ?_⟩
        rw [hw₄.1, minted_snoc_other (show mintsNothing (.invalidateAppCredentials _) from trivial),
          h₃.only] at hm
        refine ⟨hm ▸ h₃.named hleft, ?_⟩
        rw [hw₄.1]
        exact List.mem_append_right _ (List.mem_singleton.2 rfl)
      · next hleft =>
        intro m hm
        rw [h₃.only] at hm
        exact .inl (hm ▸ h₃.gone (by simpa using hleft))

theorem not_minted_nil (m : PasswordCredential) : ¬ Minted ([] : Trace) m := by
  rintro ⟨_, _, _, hmem⟩
  exact absurd hmem (by simp)

/-- The gate minted nothing, and where it lets the rotation on the mint is allowed. -/
def Gated (input : RotateCredentialInput) (s : State) (r : Except UiError Unit) : Prop :=
  (∀ m, ¬ Minted s.log m) ∧ (r = .ok () → MayMint input s)

theorem meets_checkOwner (wire : Wire) (input : RotateCredentialInput) (cloud : Cloud) :
    Meets world (Allowed input) (Gated input) ⟨cloud, []⟩ (checkOwner wire input) := by
  unfold checkOwner listSecretVersions
  rcases validateSecretName_cases wire input.secretName with ⟨message, hname⟩ | hname
  · rw [hname]
    exact ⟨not_minted_nil, fun hbad => absurd hbad (by simp)⟩
  · rw [hname]
    refine Meets.bind ⟨trivial, fun r s₁ hw => ?_⟩
    have hlog : s₁.log = [⟨.listSecretVersions input.vaultName input.secretName, r⟩] := hw.1
    have hnone : ∀ m, ¬ Minted s₁.log m := by
      rintro m ⟨_, _, _, hmem⟩
      rw [hlog] at hmem
      simp at hmem
    have hmay : (∀ err, r = .error err → ∃ body, err = .notFound body) →
        NoForeign input.objectId input.appId (s₁.cloud.items input.vaultName input.secretName) →
        MayMint input s₁ := by
      intro hfail hfree
      refine ⟨⟨r, by rw [hlog]; simp⟩, fun err herr => hfail err ?_, hfree⟩
      rw [hlog, List.mem_singleton, Sigma.mk.injEq] at herr
      exact (eq_of_heq herr.2).symm
    have hlisted := hw.2.2
    rw [← show s₁.cloud = cloud from hw.2.1] at hlisted
    cases r with
    | ok items =>
      refine Meets.pure ?_
      dsimp only
      split
      · exact ⟨hnone, fun hbad => absurd hbad (by simp)⟩
      · next howner =>
        refine ⟨hnone, fun _ => hmay (by simp) (fun v hv => ?_)⟩
        have hperm : items.Perm (s₁.cloud.items input.vaultName input.secretName) := hlisted
        exact currentOwnerIfOther_eq_none.1 howner v (hv.perm hperm.symm)
    | error err =>
      cases err with
      | notFound body =>
        refine ⟨hnone, fun _ => hmay (by simp) (fun v hv => ?_)⟩
        have hversions : s₁.cloud.versions input.vaultName input.secretName = [] := hlisted
        have hmem := hv.1
        unfold Cloud.items at hmem
        rw [hversions] at hmem
        exact absurd hmem (by simp)
      | _ => exact ⟨hnone, fun hbad => absurd hbad (by simp)⟩

theorem meets_rotateAppCredentialCore (wire : Wire) (input : RotateCredentialInput) (cloud : Cloud) :
    Meets world (Allowed input) (Ended input) ⟨cloud, []⟩ (rotateAppCredentialCore wire input) := by
  have hquiet : ∀ {s : State} {err : UiError}, (∀ m, ¬ Minted s.log m) → Ended input s (.error err) :=
    fun hnone m hm => absurd hm (hnone m)
  unfold rotateAppCredentialCore
  split
  · exact hquiet not_minted_nil
  · refine Meets.bind ((meets_checkOwner wire input cloud).mono (fun s r hgate => ?_))
    cases r with
    | error err => exact hquiet hgate.1
    | ok u => exact meets_mintAndStore wire (hgate.2 rfl) hgate.1

/-! ## Rotations, one after the other -/

/-- A rotation from start to end. -/
def Rotation (wire : Wire) (cloud : Cloud)
    (e : RotateCredentialInput × Except UiError RotateCredentialResult) (cloud' : Cloud) : Prop :=
  ∃ log, Exec world ⟨cloud, []⟩ (rotateAppCredentialCore wire e.1) ⟨cloud', log⟩ e.2

theorem OwnedBy.call {owner vault secret : Text} {c : Call} {r : Answer c}
    (h : OwnedBy owner (s.cloud.items vault secret)) (hok : Allowed input s c) (hw : world s c r s') :
    OwnedBy owner (s'.cloud.items vault secret) := by
  have hsame : s'.cloud.versions = s.cloud.versions → OwnedBy owner (s'.cloud.items vault secret) := by
    intro hversions
    unfold Cloud.items
    rw [hversions]
    exact h
  obtain ⟨-, heffect⟩ := hw
  cases c with
  | put vault' secret' req =>
    obtain ⟨rfl, rfl, hfree, keyId, htags⟩ := hok
    obtain ⟨new, hnew, -, hcloud⟩ := heffect
    rw [hcloud, items_addVersions]
    split
    · next hhere =>
      rw [hhere.1, hhere.2] at h ⊢
      refine h.append keyId hfree (fun v hv => ?_)
      obtain ⟨stored, hstored, rfl⟩ := List.mem_map.1 hv
      exact (hnew stored hstored).1.trans htags
    · rw [List.append_nil]
      exact h
  | addPassword objectId displayName secs =>
    cases r with
    | ok m => exact hsame (heffect.2 ▸ rfl)
    | error err =>
      rcases heffect with hcloud | ⟨keyId, -, hcloud⟩
      · exact hsame (hcloud ▸ rfl)
      · exact hsame (hcloud ▸ rfl)
  | removePassword objectId keyId =>
    rcases heffect with hcloud | ⟨-, hcloud⟩
    · exact hsame (hcloud ▸ rfl)
    · exact hsame (hcloud ▸ rfl)
  | listSecretVersions vault' secret' => exact hsame (congrArg Cloud.versions heffect.1)
  | today | bearer | wait secs delay | invalidateAppCredentials objectId | setAppVaultBinding appId binding =>
    exact hsame (congrArg Cloud.versions heffect)

theorem OwnedBy.rotation {wire : Wire} {cloud cloud' : Cloud} {owner vault secret : Text}
    {e : RotateCredentialInput × Except UiError RotateCredentialResult}
    (h : OwnedBy owner (cloud.items vault secret)) (hrot : Rotation wire cloud e cloud') :
    OwnedBy owner (cloud'.items vault secret) := by
  obtain ⟨log, hexec⟩ := hrot
  have hkeep : Meets world (fun _ _ => True) _ _ _ := (meets_rotateAppCredentialCore wire e.1 cloud).keep
    (P := fun s => OwnedBy owner (s.cloud.items vault secret))
    (fun s c r s' hs hok hw => hs.call hok hw) (fun _ _ _ _ => trivial) h
  exact (hkeep.sound hexec).1

end Facts

/-- In every sequence of rotations, in each of them: a mint is behind an ownership read that lets it on, a
    minted key is removed only while no version is tagged with it, a previous key only when the vault holds
    the minted secret, and the end is as `Ended` says. A secret that one application owns stays its own,
    and no rotation of another mints. -/
theorem rotation_strands_neither_side (wire : Wire) {cloud₀ cloud : Cloud}
    {events : List (RotateCredentialInput × Except UiError RotateCredentialResult)}
    (hrun : Run (Rotation wire) cloud₀ events cloud) (input : RotateCredentialInput) :
    (∀ s c, Asks world ⟨cloud, []⟩ (rotateAppCredentialCore wire input) s c → Allowed input s c) ∧
    (∀ s r, Exec world ⟨cloud, []⟩ (rotateAppCredentialCore wire input) s r → Ended input s r) ∧
    (∀ owner vault secret, OwnedBy owner (cloud₀.items vault secret) →
      OwnedBy owner (cloud.items vault secret)) ∧
    (∀ owner, OwnedBy owner (cloud₀.items input.vaultName input.secretName) →
      owner ≠ normalized input.objectId → ∀ s r minted,
        Exec world ⟨cloud, []⟩ (rotateAppCredentialCore wire input) s r → ¬ Minted s.log minted) := by
  have hmeets := meets_rotateAppCredentialCore wire input cloud
  have howned : ∀ owner vault secret, OwnedBy owner (cloud₀.items vault secret) →
      OwnedBy owner (cloud.items vault secret) := by
    intro owner vault secret h
    exact hrun.invariant (fun _ cloud => OwnedBy owner (cloud.items vault secret)) h
      (fun _ _ _ _ _ h hrot => h.rotation hrot)
  refine ⟨fun s c hasks => hmeets.asked hasks, fun s r hexec => hmeets.sound hexec, howned, ?_⟩
  intro owner h hother s r minted hexec
  have hkeep : Meets world (fun _ _ => True) _ _ _ := hmeets.keep
    (P := fun s => OwnedBy owner (s.cloud.items input.vaultName input.secretName) ∧
      ∀ m, ¬ Minted s.log m)
    (fun s c r s' hs hok hw => ?_) (fun _ _ _ _ => trivial) ⟨howned owner _ _ h, not_minted_nil⟩
  · exact (hkeep.sound hexec).1.2 minted
  · refine ⟨hs.1.call hok hw, fun m => ?_⟩
    have hquiet : mintsNothing c := by
      cases c with
      | addPassword objectId displayName secs => exact hother (hs.1.owner_eq hok.2.noForeign)
      | _ => trivial
    rw [hw.1, minted_snoc_other hquiet]
    exact hs.2 m

/-! ## A secret with an owner -/

def plainWire : Wire where
  parse := fun _ => .ok ⟨none, none⟩
  validHeader := fun _ => true
  debug := id
  showVault := fun _ => []
  showGraph := fun _ => []
  uiVault := fun _ => ⟨[], [], false⟩
  uiGraph := fun _ => ⟨[], [], false⟩

def ownedItem : SecretItem := ⟨some ((∅ : Tags).insert tagObjectId ['a']), none⟩

/-- One secret, of the application `a`. -/
def ownedCloud : Cloud where
  versions := fun vault secret => if vault = "abc".toList ∧ secret = ['s'] then [⟨ownedItem, ['o']⟩] else []
  keys := fun _ => []

def rotationOf (objectId : Text) : RotateCredentialInput := ⟨objectId, none, "abc".toList, ['s'], none, []⟩

def freshPassword : PasswordCredential := ⟨['k'], some ['v'], none⟩

def storedVersion : StoredVersion := ⟨⟨some (rotationTags none ['a'] ['k']), none⟩, ['v']⟩

theorem items_ownedCloud : ownedCloud.items "abc".toList ['s'] = [ownedItem] := rfl

theorem fresh_ownedCloud : Fresh ownedCloud ['k'] := by
  refine ⟨fun objectId hmem => absurd hmem (by simp [ownedCloud]), fun vault secret v hv => ?_⟩
  unfold ownedCloud at hv
  dsimp only at hv
  split at hv
  · obtain rfl := List.mem_singleton.1 hv
    decide
  · exact absurd hv (by simp)

def storingCloud : Cloud :=
  (ownedCloud.addKey ['a'] ['k']).addVersions "abc".toList ['s'] [storedVersion]

def storingRequest : SecretSetRequest := ⟨['v'], none, some (rotationTags none ['a'] ['k']), none⟩

theorem world_call (cloud cloud' : Cloud) {c : Call} {r : Answer c} (h : Effect cloud c r cloud')
    (log : Trace) : world ⟨cloud, log⟩ c r ⟨cloud', log ++ [⟨c, r⟩]⟩ := ⟨rfl, h⟩

/-- The owner rotates its secret. -/
theorem rotation_ownedCloud : Rotation plainWire ownedCloud
    (rotationOf ['a'], .ok ⟨['k'], "abc".toList, ['s'], none, [], []⟩) storingCloud := by
  have hread := world_call ownedCloud ownedCloud (r := .ok [ownedItem])
    (c := .listSecretVersions "abc".toList ['s']) ⟨rfl, List.Perm.refl _⟩
  have htoday := world_call ownedCloud ownedCloud (c := .today) (r := ['d']) rfl
  have hmint := world_call ownedCloud (ownedCloud.addKey ['a'] ['k'])
    (c := .addPassword ['a'] "rotated-d".toList 15552000) (r := .ok freshPassword) ⟨fresh_ownedCloud, rfl⟩
  have hbearer := world_call (ownedCloud.addKey ['a'] ['k'])
    (ownedCloud.addKey ['a'] ['k']) (c := .bearer) (r := .ok ['t']) rfl
  have hstored : ∀ v ∈ [storedVersion], v.item.tags = storingRequest.tags ∧ v.value = storingRequest.value := by
    intro v hv
    obtain rfl := List.mem_singleton.1 hv
    exact ⟨rfl, rfl⟩
  have hput := world_call (ownedCloud.addKey ['a'] ['k']) storingCloud
    (c := .put "abc".toList ['s'] storingRequest) (r := .ok ⟨200, none, .ok [], []⟩)
    ⟨[storedVersion], hstored, fun _ _ _ => by simp, rfl⟩
  have hinvalidate := world_call storingCloud storingCloud
    (c := .invalidateAppCredentials ['a']) (r := ()) rfl
  apply Exists.intro
  refine .ask (hread _) (.ask (htoday _) (.ask (hmint _) (.ask (hbearer _) ?_)))
  unfold withRetries
  rw [withRetriesFrom]
  exact .ask (hput _) (.ask (hinvalidate _) (.done _ _))

/-- The owner has rotated its secret, and another application's rotation mints nothing. -/
theorem rotation_of_a_stranger_mints_nothing : ∃ cloud r,
    Rotation plainWire ownedCloud (rotationOf ['a'], r) cloud ∧
      OwnedBy ['a'] (cloud.items "abc".toList ['s']) ∧
      ∀ s r minted, Exec world ⟨cloud, []⟩ (rotateAppCredentialCore plainWire (rotationOf ['b'])) s r →
        ¬ Minted s.log minted := by
  have howned : OwnedBy ['a'] (ownedCloud.items "abc".toList ['s']) := by
    rw [items_ownedCloud]
    refine ⟨⟨ownedItem, by simp, rfl⟩, fun v hv => ?_⟩
    obtain rfl := List.mem_singleton.1 hv.1
    rfl
  have hall := rotation_strands_neither_side plainWire (Run.single rotation_ownedCloud) (rotationOf ['b'])
  refine ⟨_, _, rotation_ownedCloud, hall.2.2.1 ['a'] _ _ howned, ?_⟩
  exact hall.2.2.2 ['a'] howned (by decide)

end Keyvault
