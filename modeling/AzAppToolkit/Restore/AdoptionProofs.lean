import AzAppToolkit.Restore.Adoption

set_option autoImplicit false

/-! # What pending adoptions settle on

Under distinct destination appIds that no manifest lists, more refusals never silence the rule, so what
is refused is the least set there is, in whatever order the adoptions are gone through. Where two apps
have one destination, the scopes a client is written with may be those of either. -/

namespace Restore

variable {Scope : Type}

/-! ## More refusals never silence the rule -/

section Monotone

variable {apps : List (Text × Text)} {remap remap' : AppIdRemap}
  {preAuth : List PreAuthorizedApplication}

variable {backupApps : BackupApps}

/-- A client that is written with less of the remap is written the same with more. -/
theorem kept_mono
    (hsub : ∀ source new, remap'.lookup source = some new → remap.lookup source = some new)
    {d e : PreAuthorizedApplication} (h : (planClient remap' backupApps d).kept? = some e) :
    (planClient remap backupApps d).kept? = some e := by
  unfold planClient at h ⊢
  split at h
  · exact h
  · next source hsource =>
    split at h
    · next new hnew =>
      rw [hsub source new hnew]
      exact h
    · exact absurd h (by simp [ClientPlan.kept?])

/-- A client is written as it is, or as the app of the backup it names. -/
theorem kept_cases (hsound : backupApps.Sound)
    {d e : PreAuthorizedApplication} (h : (planClient remap backupApps d).kept? = some e) :
    e.appId = d.appId ∨
      ∃ source, remap.lookup source = some e.appId ∧ SameId source d.appId := by
  unfold planClient at h
  split at h
  · exact .inl (congrArg PreAuthorizedApplication.appId (Option.some.inj h)).symm
  · next source hsource =>
    split at h
    · next new hnew =>
      obtain rfl := Option.some.inj h
      exact .inr ⟨source, hnew, BackupApps.sameId_sourceAppId hsound hsource⟩
    · exact absurd h (by simp [ClientPlan.kept?])

/-- With distinct destinations that no manifest lists, the clients written are distinct. -/
theorem nodup_kept (hsound : backupApps.Sound)
    (hlisted : ∀ p ∈ preAuth, ∀ source new, remap.lookup source = some new → ¬ SameId p.appId new)
    (hdistinct : DistinctDestinations remap) :
    ((planPreAuthorized preAuth remap backupApps).1.map PreAuthorizedApplication.clientKey).Nodup := by
  unfold planPreAuthorized
  dsimp only
  rw [List.filterMap_map]
  refine nodup_plans (fun d hd d' hd' e e' he he' hkey => ?_)
  have hnever : ∀ c ∈ dedupPreAuthorized preAuth, ∀ source new, remap.lookup source = some new →
      ¬ SameId c.appId new := by
    intro c hc source new hlookup
    obtain ⟨p, hp, hspelled⟩ := (merged_of_mem_dedup hc).spelled
    exact hspelled ▸ hlisted p hp source new hlookup
  have hsame : SameId e.appId e'.appId := hkey
  rcases kept_cases hsound he with hself | ⟨source, hsource, hnamed⟩
  · rcases kept_cases hsound he' with hself' | ⟨source', hsource', -⟩
    · rw [hself, hself'] at hsame
      exact hsame
    · rw [hself] at hsame
      exact absurd hsame (hnever d hd source' _ hsource')
  · rcases kept_cases hsound he' with hself' | ⟨source', hsource', hnamed'⟩
    · rw [hself'] at hsame
      exact absurd hsame.symm (hnever d' hd' source _ hsource)
    · obtain rfl := hdistinct source source' _ _ hsource hsource' hsame
      exact hnamed.symm.trans hnamed'

/-- With distinct clients each is looked up with its own scopes. -/
theorem lookup_writtenScopes {written : List PreAuthorizedApplication}
    (hnodup : (written.map PreAuthorizedApplication.clientKey).Nodup)
    {e : PreAuthorizedApplication} (he : e ∈ written) :
    (writtenScopes written).lookup e.clientKey =
      some (e.delegatedPermissionIds.map toAsciiLowercase) := by
  refine AList.lookup_foldl_insert PreAuthorizedApplication.clientKey
    (fun p => p.delegatedPermissionIds.map toAsciiLowercase) written ∅ e he (fun e' he' hkey => ?_)
  rw [List.inj_on_of_nodup_map hnodup he' he hkey]

/-- What is looked up was written. -/
theorem mem_of_lookup_writtenScopes {written : List PreAuthorizedApplication} {key : Text}
    {scopes : List Text} (h : (writtenScopes written).lookup key = some scopes) :
    ∃ e ∈ written, e.clientKey = key ∧ e.delegatedPermissionIds.map toAsciiLowercase = scopes := by
  have hfold : ∀ (written : List PreAuthorizedApplication) (t : Table Text (List Text)),
      (written.foldl (fun t p => t.insert p.clientKey
        (p.delegatedPermissionIds.map toAsciiLowercase)) t).lookup key = some scopes →
      t.lookup key = some scopes ∨ ∃ e ∈ written, e.clientKey = key ∧
        e.delegatedPermissionIds.map toAsciiLowercase = scopes := by
    intro written
    induction written with
    | nil => exact fun t h => .inl h
    | cons e rest ih =>
      intro t h
      rcases ih _ h with hold | ⟨e', he', hfound⟩
      · rw [AList.lookup_insert_eq] at hold
        split at hold
        · next heq => exact .inr ⟨e, List.mem_cons_self, heq.symm, Option.some.inj hold⟩
        · exact .inl hold
      · exact .inr ⟨e', List.mem_cons_of_mem e he', hfound⟩
  rcases hfold written ∅ h with hnone | hfound
  · rw [AList.lookup_empty] at hnone
    exact absurd hnone (by simp)
  · exact hfound

/-- Less is written with less of the remap, and nothing differently. -/
theorem writtenScopes_mono (hsound : backupApps.Sound)
    (hlisted : ∀ p ∈ preAuth, ∀ source new, remap.lookup source = some new → ¬ SameId p.appId new)
    (hdistinct : DistinctDestinations remap)
    (hsub : ∀ source new, remap'.lookup source = some new → remap.lookup source = some new)
    {key : Text} {scopes : List Text}
    (h : (writtenScopes (planPreAuthorized preAuth remap' backupApps).1).lookup key = some scopes) :
    (writtenScopes (planPreAuthorized preAuth remap backupApps).1).lookup key = some scopes := by
  obtain ⟨e, he, rfl, rfl⟩ := mem_of_lookup_writtenScopes h
  obtain ⟨d, hd, hkept⟩ := mem_kept_iff.1 he
  apply lookup_writtenScopes (nodup_kept hsound hlisted hdistinct)
  exact mem_kept_iff.2 ⟨d, hd, kept_mono hsub hkept⟩

theorem foreignLabel_mono {written written' : Table Text (List Text)}
    (hsub : ∀ key scopes, written'.lookup key = some scopes → written.lookup key = some scopes)
    {p : PreAuthorizedApplication} (h : foreignLabel written' p = none) :
    foreignLabel written p = none := by
  unfold foreignLabel at h ⊢
  cases hlookup : written'.lookup p.clientKey with
  | none =>
    rw [hlookup] at h
    exact absurd h (by simp)
  | some scopes =>
    rw [hlookup] at h
    rw [hsub _ _ hlookup]
    exact h

theorem refuses_monotone {created : List (CreatedApp Scope)}
    {pending : List (PendingAdoption created.length)} (hlisted : NoListedDestination created remap)
    (hdistinct : DistinctDestinations remap) :
    Removal.Monotone (refuses created (BackupApps.new apps) remap pending) := by
  intro refused refused' hsub i hfires
  unfold refuses at hfires ⊢
  rw [Bool.not_eq_true'] at hfires ⊢
  rw [← Bool.not_eq_true] at hfires ⊢
  intro hquiet
  apply hfires
  rw [List.isEmpty_iff] at hquiet ⊢
  unfold foreignPreAuthorized at hquiet ⊢
  rw [List.filterMap_eq_nil_iff] at hquiet ⊢
  intro p hp
  refine foreignLabel_mono (fun key scopes => writtenScopes_mono (BackupApps.sound_new apps) ?_ ?_
    (fun source new h => lookup_without_mono hsub h)) (hquiet p hp)
  · intro q hq source new hlookup
    exact hlisted (created.get i) (List.get_mem _ _) q hq source new
      (lookup_without_mono (List.nil_subset refused) hlookup)
  · intro source source' new new' h h' hsame
    exact hdistinct source source' new new' (lookup_without_mono (List.nil_subset refused) h)
      (lookup_without_mono (List.nil_subset refused) h') hsame

end Monotone

/-! ## Settling -/

section Settle

variable {created : List (CreatedApp Scope)} {backupApps : BackupApps} {remap : AppIdRemap}
  {pending pending' : List (PendingAdoption created.length)}

/-- What is foreign depends on what is looked up only. -/
theorem foreign_congr {app : AppRegistrationBackup Scope} {live : List PreAuthorizedApplication}
    {remap' : AppIdRemap} (h : ∀ key, remap.lookup key = remap'.lookup key) :
    foreignPreAuthorized app live remap backupApps =
      foreignPreAuthorized app live remap' backupApps := by
  have hplan : ∀ p, planClient remap backupApps p = planClient remap' backupApps p := by
    intro p
    unfold planClient
    simp only [h]
  unfold foreignPreAuthorized planPreAuthorized
  rw [funext hplan]

/-- The order in which the apps are taken out does not matter. -/
theorem lookup_without_congr {refused refused' : List (Fin created.length)}
    (h : ∀ i, i ∈ refused ↔ i ∈ refused') (key : Text) :
    (without created remap refused).lookup key = (without created remap refused').lookup key := by
  have hmem : key ∈ refused.map (sourceOf created) ↔ key ∈ refused'.map (sourceOf created) := by
    simp only [List.mem_map, h]
  rw [lookup_without, lookup_without]
  simp only [hmem]

theorem closed_of_settled (hpos : (pending.map PendingAdoption.position).Nodup)
    {refused : List (Fin created.length)} (h : Settled created backupApps remap pending refused) :
    Removal.Closed (refuses created backupApps remap pending)
      (pending.map PendingAdoption.position) refused := by
  intro i hi hnot
  obtain ⟨p, hp, rfl⟩ := List.mem_map.1 hi
  unfold refuses
  rw [liveAt_position hpos hp, h.quiet p hp hnot]
  rfl

theorem settled_of_closed (hpos : (pending.map PendingAdoption.position).Nodup)
    {refused result : List (Fin created.length)} (hmem : ∀ i, i ∈ refused ↔ i ∈ result)
    (hsubset : result ⊆ pending.map PendingAdoption.position)
    (hclosed : Removal.Closed (refuses created backupApps remap pending)
      (pending.map PendingAdoption.position) result) :
    Settled created backupApps remap pending refused := by
  refine ⟨fun i hi => hsubset ((hmem i).1 hi), fun p hp hnot => ?_⟩
  have hquiet := hclosed p.position (List.mem_map_of_mem hp) (fun hi => hnot ((hmem _).2 hi))
  unfold refuses at hquiet
  rw [liveAt_position hpos hp, Bool.not_eq_false', List.isEmpty_iff] at hquiet
  rw [foreign_congr (lookup_without_congr hmem), hquiet]

/-- The candidates are read the same in any order. -/
theorem refuses_perm (hpos : (pending.map PendingAdoption.position).Nodup) (hperm : pending'.Perm pending) :
    refuses created backupApps remap pending' = refuses created backupApps remap pending := by
  have hpos' : (pending'.map PendingAdoption.position).Nodup :=
    (hperm.map PendingAdoption.position).nodup_iff.2 hpos
  have hlive : ∀ i, liveAt created pending' i = liveAt created pending i := by
    intro i
    by_cases hi : i ∈ pending.map PendingAdoption.position
    · obtain ⟨p, hp, rfl⟩ := List.mem_map.1 hi
      rw [liveAt_position hpos hp, liveAt_position hpos' (hperm.mem_iff.2 hp)]
    · have hnone : ∀ l : List (PendingAdoption created.length),
          i ∉ l.map PendingAdoption.position → liveAt created l i = [] := by
        intro l hl
        have hfind : l.find? (fun p => p.position == i) = none := by
          rw [List.find?_eq_none]
          intro p hp heq
          exact hl ((beq_iff_eq.1 heq) ▸ List.mem_map_of_mem hp)
        unfold liveAt
        rw [hfind]
        rfl
      have hi' : i ∉ pending'.map PendingAdoption.position :=
        fun h => hi ((hperm.map PendingAdoption.position).mem_iff.1 h)
      rw [hnone pending hi, hnone pending' hi']
  funext refused i
  unfold refuses
  rw [hlive i]

/-- What a settling returns. -/
structure SettledOn (created : List (CreatedApp Scope)) (backupApps : BackupApps)
    (remap : AppIdRemap) (pending : List (PendingAdoption created.length))
    (result : List (Fin created.length)) (final : Refusals created.length) : Prop where
  remap_eq : final.remap = without created remap result
  perm : final.positions.Perm result
  sorted : final.positions.Pairwise (· ≤ ·)
  nodup : result.Nodup
  subset : result ⊆ pending.map PendingAdoption.position
  closed : Removal.Closed (refuses created backupApps remap pending)
    (pending.map PendingAdoption.position) result

/-- A round for each pending adoption and one more are enough. -/
theorem settles (created : List (CreatedApp Scope)) (backupApps : BackupApps) (remap : AppIdRemap)
    {pending : List (PendingAdoption created.length)} (hpos : (pending.map PendingAdoption.position).Nodup) :
    ∃ result, Removal.settle (refuses created backupApps remap pending)
        (pending.map PendingAdoption.position) (pending.length + 1) [] = some result ∧
      ∀ rounds, pending.length + 1 ≤ rounds → ∃ final,
        refuseForeignPreAuthorized created backupApps rounds pending remap = some final ∧
        SettledOn created backupApps remap pending result final := by
  have hstart : Removal.Valid (pending.map PendingAdoption.position) [] :=
    ⟨List.nodup_nil, List.nil_subset _⟩
  obtain ⟨result, hresult, hvalid, hclosed⟩ :=
    Removal.settle_closed (refuses created backupApps remap pending) (pending.length + 1) hstart
      (by rw [List.length_map]; exact Nat.lt_succ_of_le (Nat.sub_le _ _))
  refine ⟨result, hresult, fun rounds hrounds => ?_⟩
  have hfollows : Follows remap (⟨remap, []⟩ : Refusals created.length) [] := ⟨rfl, rfl⟩
  obtain ⟨final, hfinal, hremap, hperm, hsorted⟩ :=
    refuseRounds_eq hpos rounds hfollows (Removal.settle_mono _ _ hrounds hresult)
  exact ⟨final, hfinal, hremap, hperm, hsorted, hvalid.nodup, hvalid.subset, hclosed⟩

variable {result : List (Fin created.length)}

theorem SettledOn.mem_iff {final : Refusals created.length}
    (h : SettledOn created backupApps remap pending result final) (i : Fin created.length) :
    i ∈ final.positions ↔ i ∈ result := h.perm.mem_iff

theorem SettledOn.strict {final : Refusals created.length}
    (h : SettledOn created backupApps remap pending result final) :
    final.positions.Pairwise (· < ·) := by
  have hnodup : final.positions.Nodup := h.perm.nodup_iff.2 h.nodup
  exact (h.sorted.and hnodup).imp (fun hij => lt_of_le_of_ne hij.1 hij.2)

theorem SettledOn.lookup {final : Refusals created.length}
    (h : SettledOn created backupApps remap pending result final) (key : Text) :
    final.remap.lookup key =
      if key ∈ final.positions.map (sourceOf created) then none else remap.lookup key := by
  rw [h.remap_eq, lookup_without_congr (fun i => (h.mem_iff i).symm), lookup_without]

theorem sourceOf_injective (hsources : (created.map (fun c => c.backup.sourceAppId)).Nodup) :
    Function.Injective (sourceOf created) := by
  intro i j h
  have hget := List.inj_on_of_nodup_map hsources (List.get_mem created i) (List.get_mem created j) h
  exact (List.Nodup.of_map _ hsources).injective_get hget

end Settle

/-- Pending adoptions settle within a round for each of them and one more: the remap loses the refused
    apps and nothing else, every adoption that is left is held to nothing it would not be written with,
    and the refused positions are pending ones, in ascending order. If no manifest lists a destination
    appId and no two apps have one, no set of refusals is smaller, and the order of the adoptions does
    not matter. -/
theorem adoptions_settle (created : List (CreatedApp Scope)) (apps : List (Text × Text))
    (remap : AppIdRemap) (pending : List (PendingAdoption created.length))
    (hsources : (created.map (fun c => c.backup.sourceAppId)).Nodup)
    (hpos : (pending.map PendingAdoption.position).Nodup) :
    ∃ final, (∀ rounds, pending.length + 1 ≤ rounds →
        refuseForeignPreAuthorized created (BackupApps.new apps) rounds pending remap =
          some final) ∧
      (∀ key, final.remap.lookup key =
        if key ∈ final.positions.map (sourceOf created) then none else remap.lookup key) ∧
      (∀ i, i ∉ final.positions →
        final.remap.lookup (sourceOf created i) = remap.lookup (sourceOf created i)) ∧
      (∀ p ∈ pending, p.position ∉ final.positions →
        foreignPreAuthorized (created.get p.position).backup p.preAuthorized final.remap
          (BackupApps.new apps) = []) ∧
      final.positions ⊆ pending.map PendingAdoption.position ∧
      final.positions.Pairwise (· < ·) ∧
      (NoListedDestination created remap → DistinctDestinations remap →
        (∀ refused, Settled created (BackupApps.new apps) remap pending refused →
          final.positions ⊆ refused) ∧
        ∀ pending', pending'.Perm pending → ∃ final',
          refuseForeignPreAuthorized created (BackupApps.new apps) (pending'.length + 1) pending'
            remap = some final' ∧ final'.positions = final.positions) := by
  obtain ⟨result, hresult, hrounds⟩ := settles created (BackupApps.new apps) remap hpos
  obtain ⟨final, hfinal, hend⟩ := hrounds _ (le_refl _)
  have hsettled : Settled created (BackupApps.new apps) remap pending final.positions :=
    settled_of_closed hpos hend.mem_iff hend.subset hend.closed
  refine ⟨final, ?_, hend.lookup, ?_, ?_, hsettled.subset, hend.strict, ?_⟩
  · intro rounds hle
    exact refuseRounds_mono hle hfinal
  · intro i hnot
    rw [hend.lookup, if_neg]
    intro hmem
    obtain ⟨j, hj, hsource⟩ := List.mem_map.1 hmem
    exact hnot (sourceOf_injective hsources hsource ▸ hj)
  · intro p hp hnot
    have hlookup : ∀ key, final.remap.lookup key =
        (without created remap final.positions).lookup key := by
      intro key
      rw [hend.lookup, lookup_without]
    rw [foreign_congr hlookup, hsettled.quiet p hp hnot]
  · intro hlisted hdistinct
    have hmono : Removal.Monotone (refuses created (BackupApps.new apps) remap pending) :=
      refuses_monotone hlisted hdistinct
    refine ⟨fun refused hrefused i hi => ?_, fun pending' hperm => ?_⟩
    · exact Removal.settle_subset hmono (closed_of_settled hpos hrefused) (List.nil_subset _) hresult
        ((hend.mem_iff i).1 hi)
    · have hpos' : (pending'.map PendingAdoption.position).Nodup :=
        (hperm.map PendingAdoption.position).nodup_iff.2 hpos
      obtain ⟨result', hresult', hrounds'⟩ := settles created (BackupApps.new apps) remap hpos'
      obtain ⟨final', hfinal', hend'⟩ := hrounds' _ (le_refl _)
      refine ⟨final', hfinal', ?_⟩
      have hclosed' := hend'.closed
      rw [refuses_perm hpos hperm] at hresult' hclosed'
      have hmem := Removal.settle_perm hmono
        (fun i => ((hperm.map PendingAdoption.position).mem_iff (a := i)).symm) hresult hresult'
        hend.closed hclosed'
      refine hend'.strict.eq_of_mem_iff hend.strict (fun i => ?_)
      rw [hend'.mem_iff, hend.mem_iff, hmem]

/-! ## Two clients written as one -/

/-- The positions refused, a round for each adoption and one more being enough. -/
def refusedPositions (created : List (CreatedApp Scope)) (apps : List (Text × Text))
    (remap : AppIdRemap) (pending : List (PendingAdoption created.length)) :
    Option (List (Fin created.length)) :=
  (refuseForeignPreAuthorized created (BackupApps.new apps) (pending.length + 1) pending remap).map
    Refusals.positions

/-- As many are refused as the rule settles on. -/
theorem length_refusedPositions {created : List (CreatedApp Scope)} {apps : List (Text × Text)}
    {remap : AppIdRemap} {pending : List (PendingAdoption created.length)}
    (hpos : (pending.map PendingAdoption.position).Nodup) :
    (refusedPositions created apps remap pending).map List.length =
      (Removal.settle (refuses created (BackupApps.new apps) remap pending)
        (pending.map PendingAdoption.position) (pending.length + 1) []).map List.length := by
  obtain ⟨result, hresult, hrounds⟩ := settles created (BackupApps.new apps) remap hpos
  obtain ⟨final, hfinal, hend⟩ := hrounds _ (le_refl _)
  unfold refusedPositions
  rw [hresult, hfinal]
  exact congrArg some hend.perm.length_eq

/-- An app with the clients its manifest lists. -/
def createdWith (sourceAppId newAppId : Text) (clients : List PreAuthorizedApplication) :
    CreatedApp Unit where
  backup :=
    { sourceAppId := sourceAppId
      displayName := sourceAppId
      requiredResourceAccess := []
      identifierUris := []
      apiScopes := []
      preAuthorizedApplications := clients }
  newAppId := newAppId

/-- An app that lists clients, and one that lists none. -/
def adoptedPair (clients : List PreAuthorizedApplication) : List (CreatedApp Unit) :=
  [createdWith ['a'] ['x'] clients, createdWith ['c'] ['d'] []]

/-- The first is live with the second as its client, the second with a stranger. -/
def pairPending (clients : List PreAuthorizedApplication) :
    List (PendingAdoption (adoptedPair clients).length) :=
  [⟨⟨0, Nat.zero_lt_two⟩, [⟨['d'], [['s']]⟩]⟩, ⟨⟨1, Nat.one_lt_two⟩, [⟨['z'], [['s']]⟩]⟩]

def pairRemap : AppIdRemap := ((∅ : AppIdRemap).insert ['c'] ['d']).insert ['a'] ['x']

/-- A third app of the backup, restored as the second. -/
def sharedRemap : AppIdRemap := pairRemap.insert ['b'] ['d']

theorem mem_clients_of_adoptedPair {clients : List PreAuthorizedApplication} {c : CreatedApp Unit}
    (hc : c ∈ adoptedPair clients) {p : PreAuthorizedApplication}
    (hp : p ∈ c.backup.preAuthorizedApplications) : p ∈ clients := by
  rcases List.mem_cons.1 hc with rfl | hc
  · exact hp
  · obtain rfl := List.mem_singleton.1 hc
    exact absurd hp List.not_mem_nil

theorem pairRemap_cases {source new : Text} (h : pairRemap.lookup source = some new) :
    (source = ['a'] ∧ new = ['x']) ∨ (source = ['c'] ∧ new = ['d']) := by
  unfold pairRemap at h
  rw [AList.lookup_insert_eq, AList.lookup_insert_eq] at h
  split at h
  · next ha => exact .inl ⟨ha, (Option.some.inj h).symm⟩
  · split at h
    · next hc => exact .inr ⟨hc, (Option.some.inj h).symm⟩
    · exact absurd h (by simp)

theorem sharedRemap_cases {source new : Text} (h : sharedRemap.lookup source = some new) :
    new = ['x'] ∨ new = ['d'] := by
  unfold sharedRemap at h
  rw [AList.lookup_insert_eq] at h
  split at h
  · exact .inr (Option.some.inj h).symm
  · rcases pairRemap_cases h with ⟨-, rfl⟩ | ⟨-, rfl⟩
    · exact .inl rfl
    · exact .inr rfl

theorem pairRemap_distinct : DistinctDestinations pairRemap := by
  intro source source' new new' h h' hsame
  rcases pairRemap_cases h with ⟨rfl, rfl⟩ | ⟨rfl, rfl⟩
  · rcases pairRemap_cases h' with ⟨rfl, -⟩ | ⟨-, rfl⟩
    · rfl
    · exact absurd hsame (by decide)
  · rcases pairRemap_cases h' with ⟨-, rfl⟩ | ⟨rfl, -⟩
    · exact absurd hsame (by decide)
    · rfl

/-- The refusal of the second app takes the first with it, in any order. -/
theorem adoptions_settle_pair :
    ∃ final, refuseForeignPreAuthorized (adoptedPair [⟨['c'], [['s']]⟩])
        (BackupApps.new [(['a'], []), (['c'], [])]) 3 (pairPending _) pairRemap = some final ∧
      final.positions.length = 2 ∧
      ∀ pending', pending'.Perm (pairPending _) → ∃ final',
        refuseForeignPreAuthorized (adoptedPair [⟨['c'], [['s']]⟩])
          (BackupApps.new [(['a'], []), (['c'], [])]) (pending'.length + 1) pending' pairRemap =
            some final' ∧ final'.positions = final.positions := by
  have hlisted : NoListedDestination (adoptedPair [⟨['c'], [['s']]⟩]) pairRemap := by
    intro c hc p hp source new h
    obtain rfl := List.mem_singleton.1 (mem_clients_of_adoptedPair hc hp)
    rcases pairRemap_cases h with ⟨-, rfl⟩ | ⟨-, rfl⟩
    · decide
    · decide
  obtain ⟨final, hfinal, -, -, -, -, -, hleast⟩ := adoptions_settle
    (adoptedPair [⟨['c'], [['s']]⟩]) [(['a'], []), (['c'], [])] pairRemap (pairPending _)
    (by decide) (by decide)
  have hlength : (refusedPositions (adoptedPair [⟨['c'], [['s']]⟩]) [(['a'], []), (['c'], [])]
      pairRemap (pairPending _)).map List.length = some 2 := by
    rw [length_refusedPositions (by decide)]
    decide
  unfold refusedPositions at hlength
  rw [hfinal _ (le_refl _)] at hlength
  exact ⟨final, hfinal 3 (le_refl _), Option.some.inj hlength,
    (hleast hlisted pairRemap_distinct).2⟩

/-- Where two apps have one destination, or a manifest lists one in another case, the order of the
    adoptions matters. -/
theorem adoption_order_matters :
    (¬ ∀ (created : List (CreatedApp Unit)) (apps : List (Text × Text)) (remap : AppIdRemap)
        (pending pending' : List (PendingAdoption created.length)),
      (created.map (fun c => c.backup.sourceAppId)).Nodup →
      (pending.map PendingAdoption.position).Nodup → NoListedDestination created remap →
      pending'.Perm pending →
      refusedPositions created apps remap pending' = refusedPositions created apps remap pending) ∧
    ¬ ∀ (created : List (CreatedApp Unit)) (apps : List (Text × Text)) (remap : AppIdRemap)
        (pending pending' : List (PendingAdoption created.length)),
      (created.map (fun c => c.backup.sourceAppId)).Nodup →
      (pending.map PendingAdoption.position).Nodup → DistinctDestinations remap →
      (∀ c ∈ created, ∀ p ∈ c.backup.preAuthorizedApplications, ∀ source new,
        remap.lookup source = some new → p.appId ≠ new) →
      pending'.Perm pending →
      refusedPositions created apps remap pending' = refusedPositions created apps remap pending := by
  constructor
  · intro hclaim
    have hlisted : NoListedDestination (adoptedPair [⟨['b'], [['s']]⟩, ⟨['c'], [['t']]⟩])
        sharedRemap := by
      intro c hc p hp source new h
      rcases List.mem_pair.1 (mem_clients_of_adoptedPair hc hp) with rfl | rfl
      · rcases sharedRemap_cases h with rfl | rfl <;> decide
      · rcases sharedRemap_cases h with rfl | rfl <;> decide
    have heq := hclaim _ [(['a'], []), (['b'], []), (['c'], [])] sharedRemap (pairPending _)
      (pairPending _).reverse (by decide) (by decide) hlisted (List.reverse_perm _)
    have hlength := congrArg (Option.map List.length) heq
    rw [length_refusedPositions (by decide), length_refusedPositions (by decide)] at hlength
    exact absurd hlength (by decide)
  · intro hclaim
    have hlisted : ∀ c ∈ adoptedPair [⟨['D'], [['s']]⟩, ⟨['c'], [['t']]⟩],
        ∀ p ∈ c.backup.preAuthorizedApplications, ∀ source new,
          pairRemap.lookup source = some new → p.appId ≠ new := by
      intro c hc p hp source new h
      rcases List.mem_pair.1 (mem_clients_of_adoptedPair hc hp) with rfl | rfl
      · rcases pairRemap_cases h with ⟨-, rfl⟩ | ⟨-, rfl⟩ <;> decide
      · rcases pairRemap_cases h with ⟨-, rfl⟩ | ⟨-, rfl⟩ <;> decide
    have heq := hclaim _ [(['a'], []), (['c'], [])] pairRemap (pairPending _)
      (pairPending _).reverse (by decide) (by decide) pairRemap_distinct hlisted
      (List.reverse_perm _)
    have hlength := congrArg (Option.map List.length) heq
    rw [length_refusedPositions (by decide), length_refusedPositions (by decide)] at hlength
    exact absurd hlength (by decide)

end Restore
