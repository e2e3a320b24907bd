import AzAppToolkit.Sweeps.Vaults

set_option autoImplicit false

/-! # What a vault sweep covers

A sweep that was not cancelled and counts no failed vault has read every vault it dispatched. What is lost
before the dispatch is counted nowhere: the vaults of a subscription that could not be listed, those beyond
the cap and those without an id. -/

namespace Sweeps

open Prog Bulk Graph

/-! ## The tenant -/

/-- What the signed-in user can reach. -/
structure VaultTenant where
  subscriptions : List Text
  vaultsOf : Text → List KeyVaultResource
  assignmentsAt : Text → List RoleAssignment

/-- Every vault of every subscription. -/
def VaultTenant.vaults (t : VaultTenant) : List KeyVaultResource := t.subscriptions.flatMap t.vaultsOf

/-- The assignments that apply to a vault. -/
def VaultTenant.assignmentsOf (t : VaultTenant) (v : KeyVaultResource) : List RoleAssignment :=
  (v.id.map t.assignmentsAt).getD []

/-- What the sweep's calls may be answered: a read that does not fail answers what is there. -/
def VaultTenant.answers (t : VaultTenant) : Exchanged VaultAnswer → Prop
  | ⟨.listSubscriptions, .ok subs⟩ => subs = t.subscriptions
  | ⟨.nextListing pending, (i, r)⟩ => ∃ sub, (pending.take armConcurrency)[i]? = some sub ∧
      ∀ vaults, r = .ok vaults → vaults = t.vaultsOf sub
  | _ => True

def VaultTenant.sweep (t : VaultTenant) : Sweep ScopedVault VaultRead VaultAnswer where
  reports item _ r := r.1 = item.2 ∧ ∀ assignments, r.2 = .ok assignments →
    assignments = t.assignmentsAt item.1
  reports_of_grows _ hr := hr
  answers := t.answers

abbrev VaultState := FanState ScopedVault VaultRead VaultAnswer

/-! ## Listings -/

abbrev Listing := Text × Except ArmError (List KeyVaultResource)

def listingOf : Exchanged (FanAnswer ScopedVault VaultRead VaultAnswer) → Option Listing
  | ⟨.other (.nextListing pending), (i, r)⟩ => pending[i]?.map (fun sub => (sub, r))
  | _ => none

/-- The subscriptions that were listed, with the answers. -/
def listings (h : VaultState) : List Listing := h.history.filterMap listingOf

variable {t : VaultTenant}

theorem listings_of_world {h h' : VaultState} {c : FanCall ScopedVault VaultCall}
    {r : FanAnswer ScopedVault VaultRead VaultAnswer c} (hw : t.sweep.world h c r h') :
    listings h' = listings h ++ (listingOf ⟨c, r⟩).toList := by
  unfold listings
  rw [hw.2.2, List.filterMap_append]
  cases he : listingOf (⟨c, r⟩ : Exchanged (FanAnswer ScopedVault VaultRead VaultAnswer)) with
  | none | some item => simp [he]

def isListing : FanCall ScopedVault VaultCall → Prop
  | .other (.nextListing _) => True
  | _ => False

theorem listings_of_not_listing {h h' : VaultState} {c : FanCall ScopedVault VaultCall}
    {r : FanAnswer ScopedVault VaultRead VaultAnswer c} (hc : ¬ isListing c)
    (hw : t.sweep.world h c r h') : listings h' = listings h := by
  rw [listings_of_world hw]
  cases c with
  | other c =>
    cases c with
    | nextListing pending => exact absurd trivial hc
    | _ => simp [listingOf]
  | _ => simp [listingOf]

/-- An honest listing: it failed, or it is what the subscription holds. -/
def VaultTenant.Lists (t : VaultTenant) (listed : Listing) : Prop :=
  ∀ vaults, listed.2 = .ok vaults → vaults = t.vaultsOf listed.1

/-- What the enumeration has found, from the listings it has seen. -/
structure Enumerates (t : VaultTenant) (subs : List Text) (seen : List Listing)
    (found : List KeyVaultResource) : Prop where
  subs : (seen.map Prod.fst).Perm subs
  honest : ∀ listed ∈ seen, t.Lists listed
  found : found = seen.flatMap (fun listed => listedVaults listed.2)

/-- Calls that are not restricted: all but the store. -/
def notStore (_ : VaultState) : FanCall ScopedVault VaultCall → Prop
  | .other (.store _) => False
  | _ => True

variable {found : List KeyVaultResource} {h : VaultState}

theorem meets_enumerateVaults {subs seen : List Text} (n : Nat) {pending : List Text}
    (hn : pending.length = n)
    (hsubs : (seen ++ pending).Perm subs) (hspawned : h.spawned = []) (hjoined : h.joined = [])
    (hfound : Enumerates t seen (listings h) found) :
    Meets t.sweep.world notStore (fun h' found' => h'.spawned = [] ∧ h'.joined = [] ∧
        Enumerates t subs (listings h') found') h (enumerateVaults n pending found) := by
  induction n generalizing pending seen found h with
  | zero =>
    rw [List.length_eq_zero_iff.1 hn, List.append_nil] at hsubs
    exact ⟨hspawned, hjoined, { hfound with subs := hfound.subs.trans hsubs }⟩
  | succ n ih =>
    refine Meets.bind ⟨trivial, fun listed h' hw => ?_⟩
    obtain ⟨i, r⟩ := listed
    obtain ⟨sub, hsub, hvaults⟩ : ∃ sub, (pending.take armConcurrency)[i]? = some sub ∧
      ∀ vaults, r = .ok vaults → vaults = t.vaultsOf sub := hw.2.1
    have hget : pending[i]? = some sub := by
      obtain ⟨hlt, hget⟩ := List.getElem?_eq_some_iff.1 hsub
      rw [List.getElem_take] at hget
      rw [List.length_take] at hlt
      exact List.getElem?_eq_some_iff.2 ⟨by omega, hget⟩
    obtain ⟨hi, hget'⟩ := List.getElem?_eq_some_iff.1 hget
    have hlistings : listings h' = listings h ++ [(sub, r)] := by
      rw [listings_of_world hw]
      simp [listingOf, hget]
    obtain ⟨hspawned', hjoined'⟩ := quiet_of_world (P := fun _ => True)
      (c := .other (VaultCall.nextListing pending)) trivial hw
    have hsubs' : ((seen ++ [sub]) ++ pending.eraseIdx i).Perm subs := by
      refine .trans ?_ hsubs
      rw [List.append_assoc]
      refine List.Perm.append_left _ ?_
      have hperm := List.getElem_cons_eraseIdx_perm hi
      rwa [hget'] at hperm
    refine ih (by rw [List.length_eraseIdx_of_lt hi]; omega) hsubs' (hspawned'.trans hspawned)
      (hjoined'.trans hjoined) ⟨?_, ?_, ?_⟩
    · rw [hlistings, List.map_append]
      exact hfound.subs.append_right _
    · intro listed hmem
      rw [hlistings] at hmem
      rcases List.mem_append.1 hmem with hmem | hmem
      · exact hfound.honest listed hmem
      · rw [List.mem_singleton.1 hmem]
        exact hvaults
    · rw [hlistings, List.flatMap_append, ← hfound.found]
      simp

/-! ## The tally -/

def scannedVault : Option VaultRead → Option (KeyVaultResource × List RoleAssignment)
  | some (vault, .ok assignments) => some (vault, assignments)
  | _ => none

/-- The vaults that were read, with what was read. -/
def scannedVaults (h : VaultState) : List (KeyVaultResource × List RoleAssignment) :=
  (h.joined.map Prod.snd).filterMap scannedVault

theorem foldl_foldVault (joined : List (Option VaultRead)) (s : VaultTally) :
    (joined.foldl foldVault s).pairs = s.pairs ++ joined.filterMap scannedVault ∧
      (joined.foldl foldVault s).vaultsFailed =
        s.vaultsFailed + joined.countP (fun r => (scannedVault r).isNone) := by
  induction joined generalizing s with
  | nil => simp
  | cons r joined ih =>
    obtain ⟨hpairs, hfailed⟩ := ih (foldVault s r)
    rw [List.foldl_cons, hpairs, hfailed]
    match r with
    | none =>
      rw [List.filterMap_cons, List.countP_cons]
      exact ⟨rfl, by simp only [foldVault, scannedVault, Option.isNone_none, if_true]; omega⟩
    | some (vault, .error err) =>
      rw [List.filterMap_cons, List.countP_cons]
      exact ⟨rfl, by simp only [foldVault, scannedVault, Option.isNone_none, if_true]; omega⟩
    | some (vault, .ok assignments) => exact ⟨by simp [foldVault, scannedVault], by simp [foldVault, scannedVault]⟩

/-- The vaults that are left to be read. -/
def scannable (vaults : List KeyVaultResource) : List KeyVaultResource :=
  (vaults.take maxVaultsPerSweep).filter (fun v => v.id.isSome)

theorem map_scopedVaults (vaults : List KeyVaultResource) :
    (scopedVaults vaults).map (fun item => (item.2, t.assignmentsAt item.1)) =
      (scannable vaults).map (fun v => (v, t.assignmentsOf v)) := by
  unfold scopedVaults scannable
  induction vaults.take maxVaultsPerSweep with
  | nil => rfl
  | cons v vaults ih =>
    cases hid : v.id with
    | none => simpa [hid] using ih
    | some scope => simpa [hid, VaultTenant.assignmentsOf] using ih

/-- Tasks of which each came back with a read. -/
theorem scanned_eq {joined : List (ScopedVault × Option VaultRead)}
    (hread : ∀ r ∈ joined.map Prod.snd, (scannedVault r).isSome = true)
    (hreported : ∀ item r, (item, some r) ∈ joined →
      r.1 = item.2 ∧ ∀ assignments, r.2 = .ok assignments → assignments = t.assignmentsAt item.1) :
    (joined.map Prod.snd).filterMap scannedVault =
      joined.map (fun j => (j.1.2, t.assignmentsAt j.1.1)) := by
  induction joined with
  | nil => rfl
  | cons j joined ih =>
    obtain ⟨item, r⟩ := j
    have hrest := ih (fun r hr => hread r (List.mem_cons_of_mem _ hr))
      (fun item r hmem => hreported item r (List.mem_cons_of_mem _ hmem))
    have hthis := hread r List.mem_cons_self
    match r with
    | none => exact absurd hthis (by simp [scannedVault])
    | some (vault, .error err) => exact absurd hthis (by simp [scannedVault])
    | some (vault, .ok assignments) =>
      obtain ⟨hvault, hassigned⟩ := hreported item (vault, .ok assignments) List.mem_cons_self
      have hvault' : vault = item.2 := hvault
      show (vault, assignments) :: (joined.map Prod.snd).filterMap scannedVault =
        (item.2, t.assignmentsAt item.1) :: _
      rw [hrest, ← hassigned assignments rfl, ← hvault']

/-- With no task failed or lost, what was dispatched was read. -/
theorem scanned_of_running {s : VaultTally}
    (hrun : t.sweep.Running foldVault ⟨[], 0, 0, 0⟩ (scopedVaults found) [] s h)
    (hfailed : s.vaultsFailed = 0) :
    (scannedVaults h).Perm ((scannable found).map (fun v => (v, t.assignmentsOf v))) := by
  have htally := (foldl_foldVault (h.joined.map Prod.snd) ⟨[], 0, 0, 0⟩).2
  rw [← hrun.folded, hfailed, Nat.zero_add] at htally
  have hread : ∀ r ∈ h.joined.map Prod.snd, (scannedVault r).isSome = true := by
    intro r hr
    have hnone := List.countP_eq_zero.1 htally.symm r hr
    cases hs : scannedVault r with
    | none => exact absurd hs (by simpa using hnone)
    | some pair => rfl
  have hscanned : scannedVaults h = h.joined.map (fun j => (j.1.2, t.assignmentsAt j.1.1)) :=
    scanned_eq hread hrun.reported
  rw [hscanned, ← map_scopedVaults]
  have hjoined := hrun.joined
  rw [List.append_nil] at hjoined
  have hmap := hjoined.map (fun item : ScopedVault => (item.2, t.assignmentsAt item.1))
  rwa [List.map_map] at hmap

/-! ## What is dropped before the dispatch -/

/-- The vaults of the subscriptions that could not be listed. -/
def unlisted (t : VaultTenant) (seen : List Listing) : List KeyVaultResource :=
  seen.flatMap (fun listed => match listed.2 with
    | .ok _ => []
    | .error _ => t.vaultsOf listed.1)

/-- The vaults that are dispatched nowhere. -/
def dropped (t : VaultTenant) (seen : List Listing) (found : List KeyVaultResource) : List KeyVaultResource :=
  (found.take maxVaultsPerSweep).filter (fun v => !v.id.isSome) ++
    (found.drop maxVaultsPerSweep ++ unlisted t seen)

theorem perm_found {seen : List Listing}
    (hfound : Enumerates t t.subscriptions seen found) : (found ++ unlisted t seen).Perm t.vaults := by
  rw [hfound.found]
  refine (List.flatMap_append_perm seen _ _).trans ?_
  have hlisted : ∀ listed ∈ seen, listedVaults listed.2 ++ (match listed.2 with
      | .ok _ => []
      | .error _ => t.vaultsOf listed.1) = t.vaultsOf listed.1 := by
    intro listed hmem
    have hhonest := hfound.honest listed hmem
    obtain ⟨sub, r⟩ := listed
    cases r with
    | error err => rfl
    | ok vaults => exact (List.append_nil _).trans (hhonest vaults rfl)
  refine (List.Perm.flatMap_left _ (fun listed hmem => List.Perm.of_eq (hlisted listed hmem))).trans ?_
  have hsubs := hfound.subs.flatMap_right t.vaultsOf
  rwa [List.flatMap_map] at hsubs

theorem perm_dropped {seen : List Listing} (hfound : Enumerates t t.subscriptions seen found) :
    (scannable found ++ dropped t seen found).Perm t.vaults := by
  refine .trans ?_ (perm_found hfound)
  unfold scannable dropped
  rw [← List.append_assoc, ← List.append_assoc]
  refine List.Perm.append_right _ ?_
  refine .trans (List.Perm.append_right _ (List.filter_append_perm _ _)) ?_
  rw [List.take_append_drop]

/-- A subscription that could not be listed has no vaults, there are no more than the cap, and each has
    an id. -/
structure NothingDropped (t : VaultTenant) (seen : List Listing) : Prop where
  listed : ∀ sub err, (sub, .error err) ∈ seen → t.vaultsOf sub = []
  cap : t.vaults.length ≤ maxVaultsPerSweep
  ids : ∀ v ∈ t.vaults, v.id ≠ none

theorem dropped_eq_nil_iff {seen : List Listing} (hfound : Enumerates t t.subscriptions seen found) :
    dropped t seen found = [] ↔ NothingDropped t seen := by
  have hperm := perm_found hfound
  have hlength := hperm.length_eq
  rw [List.length_append] at hlength
  constructor
  · intro hnil
    obtain ⟨hids, hrest⟩ := List.append_eq_nil_iff.1 hnil
    obtain ⟨hcap, hlisted⟩ := List.append_eq_nil_iff.1 hrest
    rw [hlisted, List.append_nil] at hperm
    have hlen : found.length ≤ maxVaultsPerSweep := List.drop_eq_nil_iff.1 hcap
    rw [List.take_of_length_le hlen] at hids
    refine ⟨fun sub err hmem => ?_, by rw [← hperm.length_eq]; exact hlen, fun v hv hnone => ?_⟩
    · exact List.flatMap_eq_nil_iff.1 hlisted _ hmem
    · have hv' := List.filter_eq_nil_iff.1 hids v (hperm.mem_iff.2 hv)
      exact hv' (by rw [hnone]; rfl)
  · intro hnone
    have hlisted : unlisted t seen = [] := by
      refine List.flatMap_eq_nil_iff.2 (fun listed hmem => ?_)
      obtain ⟨sub, r⟩ := listed
      cases r with
      | ok vaults => rfl
      | error err => exact hnone.listed sub err hmem
    have hcap := hnone.cap
    unfold dropped
    rw [hlisted, List.drop_eq_nil_iff.2 (by omega), List.append_nil, List.append_nil,
      List.filter_eq_nil_iff]
    intro v hv hid
    have hmem : v ∈ t.vaults := hperm.mem_iff.1 (List.mem_append_left _ (List.mem_of_mem_take hv))
    cases hv' : v.id with
    | none => exact hnone.ids v hmem hv'
    | some scope => exact absurd hid (by simp [hv'])

/-! ## Rows -/

/-- The scope is there and is not the vault's, up to case and trailing slashes. -/
def madeElsewhere (scope : Option Text) (vaultId : Text) : Bool :=
  match scope with
  | none => false
  | some scope => !Text.eqIgnoreAsciiCase (trimEndSlashes scope) (trimEndSlashes vaultId)

theorem isInherited_eq_iff (scope : Option Text) (vaultId : Text) :
    isInherited scope vaultId = madeElsewhere scope vaultId ↔
      (scope = some [] → trimEndSlashes vaultId = []) := by
  match scope with
  | none => simp [isInherited, madeElsewhere]
  | some (c :: cs) =>
    have hsame : isInherited (some (c :: cs)) vaultId = madeElsewhere (some (c :: cs)) vaultId := rfl
    simp [hsame]
  | some [] =>
    have hempty : isInherited (some []) vaultId = false := rfl
    have htrim : trimEndSlashes [] = [] := rfl
    rw [hempty, madeElsewhere, htrim]
    cases hid : trimEndSlashes vaultId with
    | nil => simp [Text.eqIgnoreAsciiCase]
    | cons c cs => simp [Text.eqIgnoreAsciiCase, toAsciiLowercase]

theorem madeElsewhere_of_isInherited {scope : Option Text} {vaultId : Text}
    (h : isInherited scope vaultId = true) : madeElsewhere scope vaultId = true := by
  match scope with
  | none => exact h
  | some [] =>
    have hempty : isInherited (some []) vaultId = false := rfl
    rw [hempty] at h
    exact absurd h (by simp)
  | some (c :: cs) => exact h

/-- What a row says, but for the names that were looked up. -/
abbrev AccessKey := (Text × Option Text × Text × Text × Option Text) × Bool

def KeyVaultAccessRow.key (row : KeyVaultAccessRow) : AccessKey :=
  ((row.vaultId, row.vaultName, row.scope, row.principalId, row.principalType), row.inherited)

/-- What the row of a vault and an assignment is to say. -/
def pairKey (pair : KeyVaultResource × RoleAssignment) : Text × Option Text × Text × Text × Option Text :=
  (pair.1.id.getD [], pair.1.name, pair.2.scope.getD (pair.1.id.getD []), pair.2.principalId.getD [],
    pair.2.principalType)

def pairsOf (scanned : List (KeyVaultResource × List RoleAssignment)) :
    List (KeyVaultResource × RoleAssignment) :=
  scanned.flatMap (fun pair => pair.2.map (fun a => (pair.1, a)))

/-- Every vault with every assignment that applies to it. -/
def VaultTenant.pairs (t : VaultTenant) : List (KeyVaultResource × RoleAssignment) :=
  pairsOf (t.vaults.map (fun v => (v, t.assignmentsOf v)))

/-- One row for each vault and assignment, marked as it should be. -/
def RowsExact (t : VaultTenant) (rows : List KeyVaultAccessRow) : Prop :=
  (rows.map KeyVaultAccessRow.key).Perm
    (t.pairs.map (fun pair => (pairKey pair, madeElsewhere pair.2.scope (pair.1.id.getD []))))

theorem countP_eq_iff {α : Type} {f g : α → Bool} {l : List α}
    (hle : ∀ a ∈ l, f a = true → g a = true) : l.countP f = l.countP g ↔ ∀ a ∈ l, f a = g a := by
  induction l with
  | nil => simp
  | cons a l ih =>
    have hrest := ih (fun a ha => hle a (List.mem_cons_of_mem _ ha))
    have hmono : l.countP f ≤ l.countP g :=
      List.countP_mono_left (fun a ha => hle a (List.mem_cons_of_mem _ ha))
    have hthis := hle a List.mem_cons_self
    rw [List.forall_mem_cons, List.countP_cons, List.countP_cons, ← hrest]
    cases hf : f a with
    | false =>
      cases hg : g a with
      | false => simp
      | true =>
        simp only [Bool.false_eq_true, if_false, if_true, false_and, iff_false]
        omega
    | true =>
      rw [hthis hf]
      simp

/-- The two markings of the same pairs are the same up to order only if they agree. -/
theorem perm_marked_iff {α κ : Type} (key : α → κ) {f g : α → Bool} {l : List α}
    (hle : ∀ a ∈ l, f a = true → g a = true) :
    (l.map (fun a => (key a, f a))).Perm (l.map (fun a => (key a, g a))) ↔ ∀ a ∈ l, f a = g a := by
  constructor
  · intro hperm
    have hcount := hperm.countP_eq (fun p => p.2)
    rw [List.countP_map, List.countP_map] at hcount
    exact (countP_eq_iff hle).1 hcount
  · intro heq
    rw [List.map_congr_left (fun a ha => by rw [heq a ha])]

/-- No assignment that applies to a vault has an empty scope, unless the vault's id is empty too. -/
def ScopesPresent (t : VaultTenant) : Prop :=
  ∀ pair ∈ t.pairs, pair.2.scope = some [] → trimEndSlashes (pair.1.id.getD []) = []

theorem rowsExact_iff {rows : List KeyVaultAccessRow}
    {scanned : List (KeyVaultResource × List RoleAssignment)} {roleNames principalNames : List (Text × Text)}
    (hrows : rows.Perm ((pairsOf scanned).map (fun pair => accessRow roleNames principalNames pair.1 pair.2)))
    (hscanned : scanned.Perm (t.vaults.map (fun v => (v, t.assignmentsOf v)))) :
    RowsExact t rows ↔ ScopesPresent t := by
  have hpairs : (pairsOf scanned).Perm t.pairs := hscanned.flatMap_right _
  have hkeys : (rows.map KeyVaultAccessRow.key).Perm
      (t.pairs.map (fun pair => (pairKey pair, isInherited pair.2.scope (pair.1.id.getD [])))) := by
    have hmap := (hrows.trans (hpairs.map _)).map KeyVaultAccessRow.key
    rwa [List.map_map] at hmap
  have hmarked := perm_marked_iff pairKey
    (f := fun pair : KeyVaultResource × RoleAssignment => isInherited pair.2.scope (pair.1.id.getD []))
    (g := fun pair => madeElsewhere pair.2.scope (pair.1.id.getD [])) (l := t.pairs)
    (fun _ _ hi => madeElsewhere_of_isInherited hi)
  have hscopes : (∀ pair ∈ t.pairs, isInherited pair.2.scope (pair.1.id.getD []) =
      madeElsewhere pair.2.scope (pair.1.id.getD [])) ↔ ScopesPresent t :=
    forall₂_congr (fun pair _ => isInherited_eq_iff _ _)
  rw [← hscopes, ← hmarked]
  exact ⟨fun hexact => hkeys.symm.trans hexact, fun hperm => hkeys.trans hperm⟩

/-! ## The sweep -/

/-- What a sweep that counts no failure has read of the vaults found, and its rows. -/
structure VaultsCovered (t : VaultTenant) (found : List KeyVaultResource) (h : VaultState)
    (rows : List KeyVaultAccessRow) : Prop where
  scanned : (scannedVaults h).Perm ((scannable found).map (fun v => (v, t.assignmentsOf v)))
  rows : ∃ roleNames principalNames, rows.Perm ((pairsOf (scannedVaults h)).map
    (fun pair => accessRow roleNames principalNames pair.1 pair.2))

/-- The sweep's own calls once it dispatches: it lists nothing, and what it stores covers the vaults. -/
def vaultStoreOk (t : VaultTenant) (found : List KeyVaultResource) (h : VaultState)
    (c : FanCall ScopedVault VaultCall) : Prop :=
  ¬ isListing c ∧ ∀ result, c = .other (.store result) → VaultsCovered t found h result.rows

theorem collectVault_folds : Folds (fun _ => False) foldVault collectVault := by
  refine ⟨fun s r => ?_, fun s r => ?_⟩
  · match r with
    | none => trivial
    | some (vault, .ok assignments) => trivial
    | some (vault, .error err) => exact ⟨trivial, fun _ => trivial⟩
  · match r with
    | none => rfl
    | some (vault, .ok assignments) => rfl
    | some (vault, .error err) => exact fun _ _ => rfl

theorem meets_buildRows (flat : List (KeyVaultResource × RoleAssignment)) :
    Meets t.sweep.world (vaultStoreOk t found) (fun h' rows => h'.joined = h.joined ∧
      ∃ roleNames principalNames, rows.Perm (flat.map
        (fun pair => accessRow roleNames principalNames pair.1 pair.2))) h (buildRows flat) := by
  have hfree : ∀ (h : VaultState) (c : VaultCall), (∀ p, c ≠ .nextListing p) → (∀ r, c ≠ .store r) →
      vaultStoreOk t found h (.other c) := by
    intro h c hlist hstore
    refine ⟨fun hc => ?_, fun result heq => absurd (FanCall.other.inj heq) (hstore result)⟩
    cases c with
    | nextListing pending => exact hlist pending rfl
    | _ => exact hc
  refine Meets.bind ⟨hfree _ _ (by simp) (by simp), fun roleNames h₁ hw₁ => ?_⟩
  have hjoined₁ := (quiet_of_world (P := fun _ => True)
    (c := .other (VaultCall.resolveRoleNames _)) trivial hw₁).2
  have hprincipals : ∀ ids, Meets t.sweep.world (vaultStoreOk t found)
      (fun h' _ => h'.joined = h₁.joined) h₁ (resolvePrincipalNames ids) := by
    intro ids
    unfold resolvePrincipalNames
    split
    · exact rfl
    · refine Meets.bind ⟨hfree _ _ (by simp) (by simp), fun results h₂ hw₂ => ?_⟩
      exact (quiet_of_world (P := fun _ => True)
        (c := .other (VaultCall.batchGetServicePrincipals _)) trivial hw₂).2
  refine Meets.bind ((hprincipals _).mono (fun h₂ principalNames hjoined₂ => ?_))
  exact ⟨hjoined₂.trans hjoined₁, roleNames, principalNames, List.mergeSort_perm _ _⟩

theorem meets_vaultSweepCancelled (stoppedEarly : Bool) :
    Meets t.sweep.world (vaultStoreOk t found) (fun h' cancelled => h'.joined = h.joined ∧
        (cancelled = false → stoppedEarly = false)) h (vaultSweepCancelled stoppedEarly) := by
  cases stoppedEarly with
  | true => exact ⟨rfl, fun hfalse => absurd hfalse (by simp)⟩
  | false =>
    refine ⟨⟨id, fun _ heq => absurd heq (by simp)⟩, fun cancelled h' hw => ⟨?_, fun _ => rfl⟩⟩
    exact (quiet_of_world (P := fun _ => True) (c := .isCancelled) trivial hw).2

theorem scannedVaults_of_joined {h h' : VaultState} (hjoined : h'.joined = h.joined) :
    scannedVaults h' = scannedVaults h := by
  unfold scannedVaults
  rw [hjoined]

theorem meets_sweepVaults (found : List KeyVaultResource) (hspawned : h.spawned = [])
    (hjoined : h.joined = []) :
    Meets t.sweep.world (vaultStoreOk t found) (fun h' r => ∀ result, r = .ok result →
        result.cancelled = false → result.vaultsFailed = 0 → VaultsCovered t found h' result.rows) h
      (sweepVaults (scopedVaults found)) := by
  refine Meets.bind ⟨⟨id, fun _ heq => absurd heq (by simp)⟩, fun _ h₁ hw₁ => ?_⟩
  obtain ⟨hspawned₁, hjoined₁⟩ := quiet_of_world (P := fun _ => True)
    (c := .other (VaultCall.emit _)) trivial hw₁
  have hok : ∀ (h : VaultState) c, (∀ e : VaultCall, c = .other e → False) → vaultStoreOk t found h c := by
    intro h c hc
    refine ⟨fun hlist => ?_, fun result heq => (hc _ heq).elim⟩
    cases c with
    | other e => exact hc e rfl
    | _ => exact hlist
  have hdispatch := t.sweep.dispatched (P := fun _ => False) ⟨[], 0, 0, 0⟩
    (vaultStoreOk t found) hok (.done armConcurrency) trivial collectVault_folds
    (scopedVaults found) (hspawned₁.trans hspawned) (hjoined₁.trans hjoined)
  refine Meets.bind (hdispatch.mono (fun h₂ dispatch hdispatched => ?_))
  obtain ⟨started, -, hall, hrun⟩ := hdispatched
  refine Meets.bind ⟨hok _ _ (by simp), fun dead h₃ hw₃ => ?_⟩
  have hjoined₃ := (quiet_of_world (P := fun _ => True) (c := .isDead) trivial hw₃).2
  cases dead with
  | true => exact fun result heq => absurd heq (by simp)
  | false =>
    refine Meets.bind ((meets_vaultSweepCancelled dispatch.1).mono (fun h₄ cancelled hcancelled => ?_))
    obtain ⟨hjoined₄, hnot⟩ := hcancelled
    refine Meets.bind ((meets_buildRows _).mono (fun h₅ rows hrows => ?_))
    obtain ⟨hjoined₅, hrows⟩ := hrows
    have hscanned : scannedVaults h₅ = scannedVaults h₂ :=
      scannedVaults_of_joined (hjoined₅.trans (hjoined₄.trans hjoined₃))
    have hpairs : dispatch.2.pairs = scannedVaults h₅ := by
      have hfold := (foldl_foldVault (h₂.joined.map Prod.snd) ⟨[], 0, 0, 0⟩).1
      rw [← hrun.folded, List.nil_append] at hfold
      rw [hscanned]
      exact hfold
    have hcovered : cancelled = false → dispatch.2.vaultsFailed = 0 →
        VaultsCovered t found h₅ rows := by
      intro hfalse hfailed
      rw [hall (hnot hfalse)] at hrun
      refine ⟨hscanned ▸ scanned_of_running hrun hfailed, ?_⟩
      rwa [← hpairs]
    dsimp only
    split
    · next hcacheable =>
      obtain ⟨hfalse, hfailed⟩ : cancelled = false ∧ dispatch.2.vaultsFailed = 0 := by
        simpa using hcacheable
      refine Meets.bind ⟨⟨id, fun result heq => ?_⟩, fun _ h₆ hw₆ => ?_⟩
      · cases heq
        exact hcovered hfalse hfailed
      · intro result heq _ _
        cases heq
        have hscanned₆ : scannedVaults h₆ = scannedVaults h₅ := scannedVaults_of_joined
          (quiet_of_world (P := fun _ => True) (c := .other (VaultCall.store _)) trivial hw₆).2
        obtain ⟨hread, hrows₆⟩ := hcovered hfalse hfailed
        exact ⟨hscanned₆ ▸ hread, hscanned₆ ▸ hrows₆⟩
    · intro result heq hfalse hfailed
      cases heq
      exact hcovered hfalse hfailed

/-! ## From the subscriptions on -/

/-- What is stored covers the vaults that the subscriptions were found to hold. -/
def keyVaultStoreOk (t : VaultTenant) (h : VaultState) (c : FanCall ScopedVault VaultCall) : Prop :=
  ∀ result, c = .other (.store result) →
    ∃ found, Enumerates t t.subscriptions (listings h) found ∧ VaultsCovered t found h result.rows

theorem meets_sweepKeyVaultAccess (hstart : h.history = []) :
    Meets t.sweep.world (keyVaultStoreOk t) (fun h' r => ∀ result, r = .ok result →
        result.cancelled = false → result.vaultsFailed = 0 →
        ∃ found, Enumerates t t.subscriptions (listings h') found ∧ VaultsCovered t found h' result.rows) h
      sweepKeyVaultAccess := by
  have hother : ∀ {h h' : VaultState} {e : VaultCall} {r : VaultAnswer e}, ¬ isListing (.other e) →
      t.sweep.world h (.other e) r h' →
      h.spawned = [] ∧ h.joined = [] ∧ listings h = [] →
      h'.spawned = [] ∧ h'.joined = [] ∧ listings h' = [] := by
    intro h h' e r he hw hclean
    obtain ⟨hspawned, hjoined⟩ := quiet_of_world (P := fun _ => True) (c := .other e) trivial hw
    exact ⟨hspawned.trans hclean.1, hjoined.trans hclean.2.1,
      (listings_of_not_listing he hw).trans hclean.2.2⟩
  have hclean : h.spawned = [] ∧ h.joined = [] ∧ listings h = [] := by
    simp [FanState.spawned, FanState.joined, listings, hstart]
  refine Meets.bind ⟨fun _ heq => absurd heq (by simp), fun proved h₁ hw₁ => ?_⟩
  have hclean₁ := hother (e := .proveTenantSession) id hw₁ hclean
  cases proved with
  | error message => exact fun result heq => absurd heq (by simp)
  | ok _ =>
    refine Meets.bind ⟨fun _ heq => absurd heq (by simp), fun token h₂ hw₂ => ?_⟩
    have hclean₂ := hother (e := .ensureArmToken) id hw₂ hclean₁
    cases token with
    | error message => exact fun result heq => absurd heq (by simp)
    | ok _ =>
      refine Meets.bind ⟨fun _ heq => absurd heq (by simp), fun listed h₃ hw₃ => ?_⟩
      obtain ⟨hspawned₃, hjoined₃, hlistings₃⟩ := hother (e := .listSubscriptions) id hw₃ hclean₂
      cases listed with
      | error err => exact fun result heq => absurd heq (by simp)
      | ok subs =>
        obtain rfl : subs = t.subscriptions := hw₃.2.1
        have hnone : Enumerates t [] (listings h₃) [] := by
          rw [hlistings₃]
          exact ⟨.refl _, by simp, rfl⟩
        have henum : Meets t.sweep.world (keyVaultStoreOk t) _ h₃ _ :=
          (meets_enumerateVaults t.subscriptions.length rfl (.refl _) hspawned₃ hjoined₃ hnone).keep
          (P := fun _ => True) (fun _ _ _ _ _ _ _ => trivial)
          (fun h c _ hok result heq => by rw [heq] at hok; exact hok.elim) trivial
        refine Meets.bind (henum.mono (fun h₄ found hfound => ?_))
        obtain ⟨-, hspawned₄, hjoined₄, hfound⟩ := hfound
        -- the listings are fixed from here on
        refine ((meets_sweepVaults found hspawned₄ hjoined₄).keep
          (P := fun h => listings h = listings h₄) ?_ ?_ rfl).mono ?_
        · intro h c r h' hlist hok hw
          exact (listings_of_not_listing hok.1 hw).trans hlist
        · intro h c hlist hok result heq
          exact ⟨found, hlist ▸ hfound, hok.2 result heq⟩
        · intro h r hr result heq hcancelled hfailed
          exact ⟨found, hr.1 ▸ hfound, hr.2 result heq hcancelled hfailed⟩

/-- Every vault of every subscription was read, and the rows are those of what was read. -/
def VaultsComplete (t : VaultTenant) (h : VaultState) (rows : List KeyVaultAccessRow) : Prop :=
  (scannedVaults h).Perm (t.vaults.map (fun v => (v, t.assignmentsOf v))) ∧ RowsExact t rows

theorem vaultsComplete_iff {rows : List KeyVaultAccessRow}
    (hfound : Enumerates t t.subscriptions (listings h) found) (hcovered : VaultsCovered t found h rows) :
    VaultsComplete t h rows ↔ NothingDropped t (listings h) ∧ ScopesPresent t := by
  obtain ⟨roleNames, principalNames, hrows⟩ := hcovered.rows
  have hread : (scannedVaults h).Perm (t.vaults.map (fun v => (v, t.assignmentsOf v))) ↔
      NothingDropped t (listings h) := by
    rw [← dropped_eq_nil_iff hfound]
    have hperm := perm_dropped hfound
    constructor
    · intro hall
      have hlength := (hcovered.scanned.symm.trans hall).length_eq
      rw [List.length_map, List.length_map, ← hperm.length_eq, List.length_append] at hlength
      exact List.length_eq_zero_iff.1 (by omega)
    · intro hnil
      rw [hnil, List.append_nil] at hperm
      exact hcovered.scanned.trans (hperm.map _)
  constructor
  · rintro ⟨hall, hexact⟩
    exact ⟨hread.1 hall, (rowsExact_iff hrows hall).1 hexact⟩
  · rintro ⟨hnone, hscopes⟩
    have hall := hread.2 hnone
    exact ⟨hall, (rowsExact_iff hrows hall).2 hscopes⟩

/-- A sweep that counts no failure, or is stored, has read every vault and has exactly its rows if and only
    if nothing was dropped before the dispatch and no assignment comes with an empty scope. -/
theorem vault_sweep_complete_iff {h : VaultState} (hstart : h.history = []) :
    (∀ h' result, Exec t.sweep.world h sweepKeyVaultAccess h' (.ok result) →
      result.cancelled = false → result.vaultsFailed = 0 →
      (VaultsComplete t h' result.rows ↔ NothingDropped t (listings h') ∧ ScopesPresent t)) ∧
    (∀ h' result, Asks t.sweep.world h sweepKeyVaultAccess h' (.other (.store result)) →
      (VaultsComplete t h' result.rows ↔ NothingDropped t (listings h') ∧ ScopesPresent t)) := by
  have hmeets := meets_sweepKeyVaultAccess (t := t) hstart
  refine ⟨fun h' result hexec hcancelled hfailed => ?_, fun h' result hasks => ?_⟩
  · obtain ⟨found, hfound, hcovered⟩ := hmeets.sound hexec result rfl hcancelled hfailed
    exact vaultsComplete_iff hfound hcovered
  · obtain ⟨found, hfound, hcovered⟩ := hmeets.asked hasks result rfl
    exact vaultsComplete_iff hfound hcovered

/-! ## A tenant with one vault -/

def someVault : KeyVaultResource := ⟨some ['/', 'v'], none, none⟩

/-- One subscription with one vault, and one assignment on it. -/
def oneVault : VaultTenant where
  subscriptions := [['s']]
  vaultsOf _ := [someVault]
  assignmentsAt _ := [⟨none, some ['/', 'V', '/'], some ['p'], none⟩]

/-- The tenant answers, and nobody cancels; the listing of the subscription is given. -/
def serveVault (listing : Except ArmError (List KeyVaultResource)) (flags : Flags) :
    (c : FanCall ScopedVault VaultCall) → Option (FanAnswer ScopedVault VaultRead VaultAnswer c)
  | .limit => none
  | .isCancelled => some flags.cancelled
  | .isDead => some flags.dead
  | .noteCode _ => none
  | .spawn _ => some ()
  | .next inFlight =>
    if inFlight = [(['/', 'v'], someVault)] then
      some (0, some (someVault, .ok (oneVault.assignmentsAt ['/', 'v'])))
    else none
  | .other .proveTenantSession => some (.ok ())
  | .other .ensureArmToken => some (.ok ())
  | .other .listSubscriptions => some (.ok [['s']])
  | .other (.nextListing pending) => if pending = [['s']] then some (0, listing) else none
  | .other (.emit _) => some ()
  | .other (.resolveRoleNames _) => some []
  | .other (.batchGetServicePrincipals _) => some (.ok [])
  | .other (.store _) => some ()

theorem serveVault_honest {listing : Except ArmError (List KeyVaultResource)}
    (hlisting : oneVault.Lists (['s'], listing)) (flags : Flags) (c : FanCall ScopedVault VaultCall)
    (r : FanAnswer ScopedVault VaultRead VaultAnswer c) (hr : serveVault listing flags c = some r) :
    oneVault.sweep.Honest flags flags ⟨c, r⟩ := by
  cases c with
  | isCancelled =>
    cases hr
    cases hflag : flags.cancelled <;> simp [Sweep.Honest, hflag]
  | isDead =>
    cases hr
    cases hflag : flags.dead <;> simp [Sweep.Honest, hflag]
  | noteCode code => exact absurd hr (by simp [serveVault])
  | next inFlight =>
    have hr' : (if inFlight = [(['/', 'v'], someVault)] then
      some (0, some (someVault, .ok (oneVault.assignmentsAt ['/', 'v']))) else none) = some r := hr
    split at hr'
    · next heq =>
      cases hr'
      refine ⟨(['/', 'v'], someVault), by rw [heq]; rfl, fun res hres => ?_⟩
      cases hres
      exact ⟨rfl, fun assignments heq => (Except.ok.inj heq).symm⟩
    · exact absurd hr' (by simp)
  | limit | spawn item => trivial
  | other c =>
    cases c with
    | nextListing pending =>
      have hr' : (if pending = [['s']] then some (0, listing) else none) = some r := hr
      split at hr'
      · next heq =>
        cases hr'
        exact ⟨['s'], by rw [heq]; rfl, hlisting⟩
      · exact absurd hr' (by simp)
    | listSubscriptions =>
      cases hr
      exact rfl
    | _ => trivial

/-- What is looked at in a run. -/
def vaultView (out : Except VaultSweepError KeyVaultSweepResult × VaultState) :
    Option ((Bool × Nat) × List (KeyVaultResource × List RoleAssignment) × List Listing) :=
  match out.1 with
  | .ok result => some ((result.cancelled, result.vaultsFailed), scannedVaults out.2, listings out.2)
  | .error _ => none

theorem exec_of_serveVault (listing : Except ArmError (List KeyVaultResource))
    (hlisting : oneVault.Lists (['s'], listing)) (scanned : List (KeyVaultResource × List RoleAssignment))
    (hrun : (run (FanState.serve (serveVault listing)) sweepKeyVaultAccess ⟨⟨false, false⟩, []⟩).map
      vaultView = some (some ((false, 0), scanned, [(['s'], listing)]))) :
    ∃ h' result, Exec oneVault.sweep.world ⟨⟨false, false⟩, []⟩ sweepKeyVaultAccess h' (.ok result) ∧
      result.cancelled = false ∧ result.vaultsFailed = 0 ∧ scannedVaults h' = scanned ∧
      listings h' = [(['s'], listing)] := by
  obtain ⟨r, h', hexec, hview⟩ := exists_exec_of_run
    (oneVault.sweep.world_of_serve (serveVault_honest hlisting)) hrun
  cases r with
  | error err => exact absurd hview (by simp [vaultView])
  | ok result =>
    obtain ⟨⟨hcancelled, hfailed⟩, hscanned, hlistings⟩ :
        (result.cancelled = false ∧ result.vaultsFailed = 0) ∧ scannedVaults h' = scanned ∧
          listings h' = [(['s'], listing)] := by
      simpa [vaultView] using hview
    exact ⟨h', result, hexec, hcancelled, hfailed, hscanned, hlistings⟩

/-- The listing of the only subscription fails: the sweep returns with no failure counted and has read
    nothing of its vault. -/
theorem failed_listing_reads_as_complete : ∃ h' result,
    Exec oneVault.sweep.world ⟨⟨false, false⟩, []⟩ sweepKeyVaultAccess h' (.ok result) ∧
      result.cancelled = false ∧ result.vaultsFailed = 0 ∧
      ¬ VaultsComplete oneVault h' result.rows := by
  obtain ⟨h', result, hexec, hcancelled, hfailed, hscanned, -⟩ :=
    exec_of_serveVault (.error .unauthorized) (fun vaults heq => absurd heq (by simp)) [] rfl
  refine ⟨h', result, hexec, hcancelled, hfailed, fun hcomplete => ?_⟩
  have hlength := hcomplete.1.length_eq
  rw [hscanned] at hlength
  exact absurd hlength (by decide)

/-- The listing answers: the vault was read and its rows are there. -/
theorem listed_vault_is_covered : ∃ h' result,
    Exec oneVault.sweep.world ⟨⟨false, false⟩, []⟩ sweepKeyVaultAccess h' (.ok result) ∧
      VaultsComplete oneVault h' result.rows := by
  obtain ⟨h', result, hexec, hcancelled, hfailed, -, hlistings⟩ :=
    exec_of_serveVault (.ok [someVault]) (fun vaults heq => (Except.ok.inj heq).symm)
      [(someVault, [⟨none, some ['/', 'V', '/'], some ['p'], none⟩])] rfl
  refine ⟨h', result, hexec, ((vault_sweep_complete_iff rfl).1 h' result hexec hcancelled hfailed).2 ?_⟩
  rw [hlistings]
  refine ⟨⟨fun sub err hmem => absurd hmem (by simp), by decide, by decide⟩, ?_⟩
  intro pair hpair hscope
  obtain rfl : pair = (someVault, ⟨none, some ['/', 'V', '/'], some ['p'], none⟩) := by
    simpa [VaultTenant.pairs, VaultTenant.vaults, oneVault, pairsOf, VaultTenant.assignmentsOf,
      someVault] using hpair
  exact absurd hscope (by simp)

end Sweeps
