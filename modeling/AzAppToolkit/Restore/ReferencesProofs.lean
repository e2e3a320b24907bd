import AzAppToolkit.Lib.Cuts
import AzAppToolkit.Restore.References

set_option autoImplicit false

/-! # References of a restored app move

The planned clients and the identifier URIs of a restore under fresh ids move as they should, whatever
they are. Declared resources move when the backup spells the apps they name as they do, and only
then. -/

namespace Restore

open Remediation (RequiredResourceAccess)

variable {Scope : Type} {r : CrossTenantRestore Scope}

/-! ## Clients -/

section Clients

/-- An app that was restored is named, in any case, by texts the backup owns. -/
theorem sourceAppId_of_restored {source new client : Text} (h : r.remap.lookup source = some new)
    (hsame : SameId source client) : r.backupApps.sourceAppId client = some source := by
  obtain ⟨a, ha, rfl⟩ := r.owned source new h
  exact BackupApps.sourceAppId_of_mem r.distinct ha hsame.symm

/-- A client of no restored app is kept as it is. -/
theorem moved_self {client : Text}
    (h : ∀ source, r.backupApps.sourceAppId client = some source → r.remap.lookup source = none) :
    Moved r.remap client client := by
  refine .inr ⟨fun source new hsource hsame => ?_, rfl⟩
  have hnone := h source (sourceAppId_of_restored hsource hsame)
  rw [hsource] at hnone
  exact absurd hnone (by simp)

/-- What a client moves to is determined. -/
theorem moved_unique {client written written' : Text} (h : Moved r.remap client written)
    (h' : Moved r.remap client written') : written = written' := by
  rcases h with ⟨source, hsource, hsame⟩ | ⟨hnone, rfl⟩
  · rcases h' with ⟨source', hsource', hsame'⟩ | ⟨hnone, -⟩
    · obtain rfl := remap_key_inj hsource hsource' (hsame.trans hsame'.symm)
      exact Option.some.inj (hsource.symm.trans hsource')
    · exact absurd hsame (hnone source written hsource)
  · rcases h' with ⟨source', hsource', hsame'⟩ | ⟨-, rfl⟩
    · exact absurd hsame' (hnone source' written' hsource')
    · rfl

/-- An entry of the plan, and the client it is planned for. -/
structure PlannedFor (r : CrossTenantRestore Scope) (d e : PreAuthorizedApplication) : Prop where
  moved : Moved r.remap d.appId e.appId
  permissions : e.delegatedPermissionIds = d.delegatedPermissionIds
  kept : ∀ source, r.backupApps.sourceAppId d.appId = some source →
    r.remap.lookup source = some e.appId

theorem plannedFor_of_kept {d e : PreAuthorizedApplication}
    (h : (planClient r.remap r.backupApps d).kept? = some e) : PlannedFor r d e := by
  unfold planClient at h
  split at h
  · next hnone =>
    obtain rfl := Option.some.inj h
    refine ⟨moved_self (fun source hsource => ?_), rfl, fun source hsource => ?_⟩
    · rw [hnone] at hsource
      exact absurd hsource (by simp)
    · rw [hnone] at hsource
      exact absurd hsource (by simp)
  · next source hsource =>
    split at h
    · next new hnew =>
      obtain rfl := Option.some.inj h
      refine ⟨.inl ⟨source, hnew, ?_⟩, rfl, fun source' hsource' => ?_⟩
      · exact (BackupApps.mem_of_sourceAppId hsource).1
      · rw [hsource] at hsource'
        exact Option.some.inj hsource' ▸ hnew
    · exact absurd h (by simp [ClientPlan.kept?])

/-- A client that is left out is one of the backup's that was not restored. -/
theorem leftOut_of_ownNotRestored {d : PreAuthorizedApplication} {id : Text}
    (h : (planClient r.remap r.backupApps d).ownNotRestored? = some id) :
    d.appId = id ∧ ∃ source, r.backupApps.sourceAppId d.appId = some source ∧
      r.remap.lookup source = none := by
  unfold planClient at h
  split at h
  · exact absurd h (by simp [ClientPlan.ownNotRestored?])
  · next source hsource =>
    split at h
    · exact absurd h (by simp [ClientPlan.ownNotRestored?])
    · next hnone => exact ⟨Option.some.inj h, source, hsource, hnone⟩

/-- A client is written or left out. -/
theorem plan_cases (d : PreAuthorizedApplication) :
    (∃ e, (planClient r.remap r.backupApps d).kept? = some e) ∨
      (planClient r.remap r.backupApps d).ownNotRestored? = some d.appId := by
  unfold planClient
  split
  · exact .inl ⟨_, rfl⟩
  · split
    · exact .inl ⟨_, rfl⟩
    · exact .inr rfl

theorem mem_kept {e : PreAuthorizedApplication} (he : e ∈ r.writtenClients) :
    ∃ d ∈ dedupPreAuthorized r.app.preAuthorizedApplications, PlannedFor r d e := by
  rw [writtenClients_eq] at he
  obtain ⟨d, hd, hkept⟩ := mem_kept_iff.1 he
  exact ⟨d, hd, plannedFor_of_kept hkept⟩

/-- An entry is spelled as a listed client. -/
theorem listed_of_mem_dedup {d : PreAuthorizedApplication}
    (hd : d ∈ dedupPreAuthorized r.app.preAuthorizedApplications) : d.appId ∈ r.mentioned := by
  obtain ⟨p, hp, hspelled⟩ := (merged_of_mem_dedup hd).spelled
  simp only [CrossTenantRestore.mentioned, List.mem_cons, List.mem_append, List.mem_map]
  exact .inr (.inr ⟨p, hp, hspelled⟩)

/-- Every listing of a client is merged into one entry. -/
theorem exists_dedup {p : PreAuthorizedApplication} (hp : p ∈ r.app.preAuthorizedApplications) :
    ∃ d ∈ dedupPreAuthorized r.app.preAuthorizedApplications, SameId d.appId p.appId := by
  have hkey := (mem_dedup_key r.app.preAuthorizedApplications p.clientKey).2
    (List.mem_map_of_mem hp)
  obtain ⟨d, hd, hsame⟩ := List.mem_map.1 hkey
  exact ⟨d, hd, hsame⟩

/-- Clients that are one ignoring case move to what is one ignoring case. -/
theorem moved_congr {a b written : Text} (h : Moved r.remap a written) (hsame : SameId a b) :
    ∃ written', Moved r.remap b written' ∧ SameId written' written := by
  rcases h with ⟨source, hsource, hnamed⟩ | ⟨hnone, rfl⟩
  · exact ⟨written, .inl ⟨source, hsource, hnamed.trans hsame⟩, rfl⟩
  · exact ⟨b, .inr ⟨fun source new hsource hnamed =>
    hnone source new hsource (hnamed.trans hsame.symm), rfl⟩, hsame.symm⟩

/-- Different clients are written to different entries. -/
theorem plannedFor_inj (hfresh : r.Fresh) {d d' e e' : PreAuthorizedApplication}
    (hd : d.appId ∈ r.mentioned) (hd' : d'.appId ∈ r.mentioned) (h : PlannedFor r d e)
    (h' : PlannedFor r d' e') (hsame : SameId e.appId e'.appId) : SameId d.appId d'.appId := by
  rcases h.moved with ⟨source, hsource, hnamed⟩ | ⟨-, hself⟩
  · rcases h'.moved with ⟨source', hsource', hnamed'⟩ | ⟨-, hself'⟩
    · obtain rfl := hfresh.once _ _ _ _ hsource hsource' hsame
      exact hnamed.symm.trans hnamed'
    · exact absurd (hself' ▸ hsame) ((hfresh.appId _ _ hsource).fresh _ hd')
  · rcases h'.moved with ⟨source', hsource', -⟩ | ⟨-, hself'⟩
    · exact absurd (hself ▸ hsame.symm) ((hfresh.appId _ _ hsource').fresh _ hd)
    · rw [hself, hself'] at hsame
      exact hsame

/-- No entry is written on an appId of the backup. -/
theorem not_contains_of_plannedFor (hfresh : r.Fresh) {d e : PreAuthorizedApplication}
    (h : PlannedFor r d e) : r.backupApps.contains e.appId = false := by
  cases hget : r.backupApps.get e.appId with
  | none => simp [BackupApps.contains, hget]
  | some app =>
    have hsource : r.backupApps.sourceAppId e.appId = some app.sourceAppId := by
      simp [BackupApps.sourceAppId, hget]
    obtain ⟨hsame, a, ha, heq⟩ := BackupApps.mem_of_sourceAppId hsource
    rcases h.moved with ⟨source, hmoved, -⟩ | ⟨hnone, hself⟩
    · exact absurd (heq ▸ hsame.symm) (not_owned hfresh hmoved ha)
    · rw [hself] at hsource
      have hmoved := h.kept app.sourceAppId hsource
      rw [hself] at hmoved
      exact absurd (hself ▸ hsame) (hnone _ _ hmoved)

/-- An entry is what is written for its client, in any spelling, and for no other. -/
theorem writtenFor_iff (hfresh : r.Fresh) {p d e : PreAuthorizedApplication}
    (hp : p ∈ r.app.preAuthorizedApplications)
    (hd : d ∈ dedupPreAuthorized r.app.preAuthorizedApplications) (h : PlannedFor r d e) :
    WrittenFor r.remap p.appId e ↔ SameId p.appId d.appId := by
  constructor
  · rintro ⟨written, hmoved, hsame⟩
    by_cases howned : ∃ source, r.backupApps.sourceAppId p.appId = some source ∧
        r.remap.lookup source = none
    · -- the entry would be written on an appId of the backup
      obtain ⟨source, hsource, hnone⟩ := howned
      have hself : Moved r.remap p.appId p.appId := by
        apply moved_self
        intro source' hsource'
        obtain rfl := Option.some.inj (hsource.symm.trans hsource')
        exact hnone
      obtain rfl := moved_unique hself hmoved
      have hforeign := not_contains_of_plannedFor hfresh h
      have hcontains : r.backupApps.contains e.appId = true := by
        unfold BackupApps.contains BackupApps.get
        rw [← hsame]
        obtain ⟨app, happ, -⟩ := Option.map_eq_some_iff.1 hsource
        exact Option.isSome_iff_exists.2 ⟨app, happ⟩
      rw [hforeign] at hcontains
      exact absurd hcontains (by simp)
    · have hplanned : PlannedFor r p ⟨written, p.delegatedPermissionIds⟩ := by
        refine ⟨hmoved, rfl, fun source hsource => ?_⟩
        cases hlookup : r.remap.lookup source with
        | none => exact absurd ⟨source, hsource, hlookup⟩ howned
        | some new =>
          have hnew : Moved r.remap p.appId new :=
            .inl ⟨source, hlookup, (BackupApps.mem_of_sourceAppId hsource).1⟩
          rw [moved_unique hnew hmoved]
      have hmentioned : p.appId ∈ r.mentioned := by
        simp only [CrossTenantRestore.mentioned, List.mem_cons, List.mem_append, List.mem_map]
        exact .inr (.inr ⟨p, hp, rfl⟩)
      exact plannedFor_inj hfresh hmentioned (listed_of_mem_dedup hd) hplanned h hsame
  · intro hsame
    obtain ⟨written, hmoved, hwritten⟩ := moved_congr h.moved hsame.symm
    exact ⟨written, hmoved, hwritten⟩

theorem clients_moved (hfresh : r.Fresh) : ClientsMoved r.remap r.backupApps
    r.app.preAuthorizedApplications r.writtenClients r.leftOut where
  once := by
    rw [writtenClients_eq]
    unfold planPreAuthorized
    dsimp only
    rw [List.filterMap_map]
    refine nodup_plans (fun d hd d' hd' e e' he he' hkey => ?_)
    exact plannedFor_inj hfresh (listed_of_mem_dedup hd) (listed_of_mem_dedup hd')
      (plannedFor_of_kept he) (plannedFor_of_kept he') hkey
  foreign := by
    intro e he
    obtain ⟨d, -, hplanned⟩ := mem_kept he
    exact not_contains_of_plannedFor hfresh hplanned
  origin := by
    intro e he
    obtain ⟨d, hd, hplanned⟩ := mem_kept he
    obtain ⟨p, hp, hspelled⟩ := (merged_of_mem_dedup hd).spelled
    exact ⟨p, hp, hspelled ▸ hplanned.moved⟩
  permissions := by
    intro e he key
    obtain ⟨d, hd, hplanned⟩ := mem_kept he
    rw [hplanned.permissions, (merged_of_mem_dedup hd).permissions]
    constructor
    · rintro ⟨p, hp, hclient, hmem⟩
      exact ⟨p, hp, (writtenFor_iff hfresh hp hd hplanned).2 hclient, hmem⟩
    · rintro ⟨p, hp, hwritten, hmem⟩
      exact ⟨p, hp, (writtenFor_iff hfresh hp hd hplanned).1 hwritten, hmem⟩
  split := by
    intro p hp
    obtain ⟨d, hd, hsame⟩ := exists_dedup hp
    constructor
    · rintro ⟨e, he, hwritten⟩ ⟨id, hid, hleft⟩
      obtain ⟨d', hd', hplanned⟩ := mem_kept he
      obtain ⟨d'', hd'', hown⟩ := mem_ownNotRestored_iff.1 hid
      obtain ⟨rfl, source, hsource, hnone⟩ := leftOut_of_ownNotRestored hown
      have hclient : SameId d'.appId d''.appId :=
        ((writtenFor_iff hfresh hp hd' hplanned).1 hwritten).symm.trans hleft.symm
      rw [← BackupApps.sourceAppId_congr _ hclient] at hsource
      have hkept := hplanned.kept source hsource
      rw [hnone] at hkept
      exact absurd hkept (by simp)
    · intro hnot
      rcases plan_cases (r := r) d with ⟨e, hkept⟩ | hown
      · refine ⟨e, ?_, (writtenFor_iff hfresh hp hd (plannedFor_of_kept hkept)).2 hsame.symm⟩
        rw [writtenClients_eq]
        exact mem_kept_iff.2 ⟨d, hd, hkept⟩
      · exact absurd ⟨d.appId, mem_ownNotRestored_iff.2 ⟨d, hd, hown⟩, hsame⟩ hnot
  reported := by
    unfold CrossTenantRestore.leftOut planPreAuthorized
    dsimp only
    rw [List.filterMap_map]
    refine nodup_plans (fun d hd d' hd' id id' hid hid' hkey => ?_)
    obtain ⟨rfl, -⟩ := leftOut_of_ownNotRestored hid
    obtain ⟨rfl, -⟩ := leftOut_of_ownNotRestored hid'
    exact hkey
  leftOrigin := by
    intro id hid
    obtain ⟨d, hd, hown⟩ := mem_ownNotRestored_iff.1 hid
    obtain ⟨rfl, source, hsource, hnone⟩ := leftOut_of_ownNotRestored hown
    refine ⟨(merged_of_mem_dedup hd).spelled, ?_, fun source' new hlookup hsame => ?_⟩
    · obtain ⟨app, happ, -⟩ := Option.map_eq_some_iff.1 hsource
      exact Option.isSome_iff_exists.2 ⟨app, happ⟩
    · have hsource' := sourceAppId_of_restored hlookup hsame
      obtain rfl := Option.some.inj (hsource.symm.trans hsource')
      rw [hnone] at hlookup
      exact absurd hlookup (by simp)

end Clients

/-! ## Segments -/

section Segments

theorem slash_notMem_splitOn {s part : Text} (h : part ∈ Text.splitOn (· == '/') s) : '/' ∉ part :=
  fun hin => absurd (Cuts.not_sep_of_mem_splitOn h '/' hin) (by decide)

/-- A separator is no letter. -/
theorem slash_mem_congr {a b : Text} (h : SameId a b) : '/' ∈ a ↔ '/' ∈ b := by
  have hslash : Char.isAlpha '/' = false := by decide
  rw [← Letters.mem_toAsciiLowercase (s := a) hslash, h, Letters.mem_toAsciiLowercase hslash]

theorem names_iff (seg id : Text) : names seg id = true ↔ Names seg id := by
  unfold names Names
  rw [Bool.and_eq_true, Text.eqIgnoreAsciiCase_iff, Bool.not_eq_true', ← Bool.not_eq_true,
    List.isEmpty_iff]

theorem segmentMoved (sourceAppId newAppId sourceTenantId destTenantId seg : Text) :
    SegmentMoved sourceAppId newAppId sourceTenantId destTenantId seg
      (rewriteSegment sourceAppId newAppId sourceTenantId destTenantId seg) := by
  unfold rewriteSegment
  simp only [names_iff]
  exact ⟨fun happ => if_pos happ, fun happ htenant => by rw [if_neg happ, if_pos htenant],
    fun happ htenant => by rw [if_neg happ, if_neg htenant]⟩

theorem isApiUri_iff (uri : Text) :
    Text.eqIgnoreAsciiCase (uri.take scheme.length) scheme = true ↔ IsApiUri uri :=
  Text.eqIgnoreAsciiCase_iff

theorem length_take_scheme {uri : Text} (h : IsApiUri uri) :
    (uri.take scheme.length).length = scheme.length := by
  have hlength := congrArg List.length h
  unfold toAsciiLowercase at hlength
  rwa [List.length_map, List.length_map] at hlength

end Segments

/-! ## Identifier URIs -/

section Uris

/-- The segment as it is written. -/
def movedSegment (r : CrossTenantRestore Scope) (seg : Text) : Text :=
  rewriteSegment r.app.sourceAppId r.newAppId r.sourceTenantId r.destTenantId seg

def movedUri (r : CrossTenantRestore Scope) (uri : Text) : Text :=
  rewriteIdentifierUri r.app.sourceAppId r.newAppId r.sourceTenantId r.destTenantId uri

theorem freshId_newAppId (hfresh : r.Fresh) : r.FreshId r.newAppId :=
  hfresh.appId _ _ r.restored

/-- What is written for a segment is one segment. -/
theorem slash_notMem_movedSegment (hfresh : r.Fresh) {seg : Text} (hseg : '/' ∉ seg) :
    '/' ∉ movedSegment r seg := by
  unfold movedSegment rewriteSegment
  split
  · exact (freshId_newAppId hfresh).segment
  · split
    · next htenant =>
      rcases hfresh.tenant with hsame | hdest
      · rw [hsame, ← slash_mem_congr ((names_iff _ _).1 htenant).2]
        exact hseg
      · exact hdest.segment
    · exact hseg

theorem movedUri_other {uri : Text} (h : ¬ IsApiUri uri) : movedUri r uri = uri := by
  unfold movedUri rewriteIdentifierUri
  rw [if_neg (fun hapi => h ((isApiUri_iff uri).1 hapi))]

theorem movedUri_api {uri : Text} (h : IsApiUri uri) : movedUri r uri =
    uri.take scheme.length ++ Text.join ['/'] ((uriSegments uri).map (movedSegment r)) := by
  unfold movedUri rewriteIdentifierUri
  rw [if_pos ((isApiUri_iff uri).2 h)]
  rfl

theorem take_movedUri {uri : Text} (h : IsApiUri uri) :
    (movedUri r uri).take scheme.length = uri.take scheme.length := by
  rw [movedUri_api h]
  exact List.take_left' (length_take_scheme h)

/-- The segments of a rewritten URI are the rewritten segments. -/
theorem uriSegments_movedUri (hfresh : r.Fresh) {uri : Text} (h : IsApiUri uri) :
    uriSegments (movedUri r uri) = (uriSegments uri).map (movedSegment r) := by
  rw [movedUri_api h]
  unfold uriSegments
  rw [List.drop_left' (length_take_scheme h)]
  apply Cuts.splitOn_join
  · intro part hpart
    obtain ⟨seg, hseg, rfl⟩ := List.mem_map.1 hpart
    exact slash_notMem_movedSegment hfresh (slash_notMem_splitOn hseg)
  · rw [Ne, List.map_eq_nil_iff]
    exact Cuts.splitOn_ne_nil _ _

theorem uriMoved (hfresh : r.Fresh) (uri : Text) : UriMoved r.app.sourceAppId r.newAppId
    r.sourceTenantId r.destTenantId uri (movedUri r uri) where
  other := movedUri_other
  scheme := take_movedUri
  segments := by
    intro h
    rw [uriSegments_movedUri hfresh h, List.forall₂_map_right_iff, List.forall₂_same]
    exact fun seg _ => segmentMoved _ _ _ _ seg

/-- A segment moves back. -/
theorem segment_back (hfresh : r.Fresh) {seg : Text} (hseg : seg ∈ r.mentioned) :
    SameId seg (rewriteSegment r.newAppId r.app.sourceAppId r.destTenantId r.sourceTenantId
      (movedSegment r seg)) := by
  have hnew := freshId_newAppId hfresh
  have htenant : r.sourceTenantId ∈ r.mentioned := List.mem_cons_self
  have hapart : ¬ SameId r.destTenantId r.newAppId := fun h => hfresh.apart _ _ r.restored h.symm
  unfold movedSegment rewriteSegment
  simp only [names_iff]
  by_cases happ : Names seg r.app.sourceAppId
  · rw [if_pos happ, if_pos ⟨hnew.ne_nil, rfl⟩]
    exact happ.2
  · rw [if_neg happ]
    by_cases hten : Names seg r.sourceTenantId
    · rw [if_pos hten, if_neg (fun h => hapart h.2)]
      have hdest : r.destTenantId ≠ [] := by
        rcases hfresh.tenant with hsame | hdest
        · exact hsame ▸ hten.1
        · exact hdest.ne_nil
      rw [if_pos ⟨hdest, rfl⟩]
      exact hten.2
    · rw [if_neg hten, if_neg (fun h => hnew.fresh seg hseg h.2.symm)]
      rw [if_neg]
      rintro ⟨hne, hsame⟩
      rcases hfresh.tenant with heq | hdest
      · exact hten ⟨heq ▸ hne, heq ▸ hsame⟩
      · exact hdest.fresh seg hseg hsame.symm

/-- Texts joined from parts that are one, ignoring case. -/
theorem sameId_join {parts parts' : List Text} (h : List.Forall₂ SameId parts parts') :
    SameId (Text.join ['/'] parts) (Text.join ['/'] parts') := by
  have hjoin : ∀ parts : List Text, toAsciiLowercase (Text.join ['/'] parts) =
      Text.join ['/'] (parts.map toAsciiLowercase) := by
    intro parts
    unfold Text.join
    induction parts with
    | nil => rfl
    | cons part rest ih =>
      cases rest with
      | nil => simp [List.intercalate]
      | cons part' rest =>
        rw [List.map_cons, List.map_cons, List.intercalate_cons_cons,
          List.intercalate_cons_cons, ← List.map_cons, ← ih]
        simp
  have hparts : parts.map toAsciiLowercase = parts'.map toAsciiLowercase := by
    induction h with
    | nil => rfl
    | cons hpart _ ih => rw [List.map_cons, List.map_cons, hpart, ih]
  rw [SameId, hjoin, hjoin, hparts]

theorem uri_back (hfresh : r.Fresh) {uri : Text} (huri : uri ∈ r.app.identifierUris) :
    SameId uri (rewriteIdentifierUri r.newAppId r.app.sourceAppId r.destTenantId r.sourceTenantId
      (movedUri r uri)) := by
  by_cases hapi : IsApiUri uri
  · have htake := take_movedUri (r := r) hapi
    have hmoved : IsApiUri (movedUri r uri) := by
      unfold IsApiUri
      rw [htake]
      exact hapi
    unfold rewriteIdentifierUri
    rw [if_pos ((isApiUri_iff _).2 hmoved), htake]
    have hsegments : Text.splitOn (· == '/') ((movedUri r uri).drop scheme.length) =
        (uriSegments uri).map (movedSegment r) := uriSegments_movedUri hfresh hapi
    rw [hsegments, List.map_map]
    have hback : SameId (Text.join ['/'] (uriSegments uri)) (Text.join ['/'] ((uriSegments uri).map
        (rewriteSegment r.newAppId r.app.sourceAppId r.destTenantId r.sourceTenantId ∘
          movedSegment r))) := by
      apply sameId_join
      rw [List.forall₂_map_right_iff, List.forall₂_same]
      intro seg hseg
      apply segment_back hfresh
      simp only [CrossTenantRestore.mentioned, List.mem_cons, List.mem_append, List.mem_flatMap]
      exact .inr (.inl (.inr ⟨uri, huri, hseg⟩))
    have hwhole : uri = uri.take scheme.length ++ Text.join ['/'] (uriSegments uri) := by
      unfold uriSegments
      rw [Cuts.join_splitOn, List.take_append_drop]
    have hsplit : toAsciiLowercase uri = toAsciiLowercase (uri.take scheme.length) ++
        toAsciiLowercase (Text.join ['/'] (uriSegments uri)) := by
      rw [← Letters.toAsciiLowercase_append, ← hwhole]
    rw [SameId, hsplit, Letters.toAsciiLowercase_append, hback]
  · rw [movedUri_other hapi]
    unfold rewriteIdentifierUri
    rw [if_neg (fun h => hapi ((isApiUri_iff uri).1 h))]

end Uris

/-- Under fresh ids nothing a restored app refers to is left on the source, and the rest is kept, if and
    only if the declared resources that name a restored app spell its appId as the backup does. -/
theorem references_moved_iff (r : CrossTenantRestore Scope) (hfresh : r.Fresh) :
    r.ReferencesMoved ↔ r.SpelledAsInBackup := by
  constructor
  · exact fun h => (resources_moved_iff hfresh).1 h.resources
  · intro hspelled
    refine ⟨(resources_moved_iff hfresh).2 hspelled, clients_moved hfresh, ?_, ?_⟩
    · rw [writtenUris_eq]
      unfold rewriteIdentifierUris
      rw [List.forall₂_map_right_iff, List.forall₂_same]
      exact fun uri _ => uriMoved hfresh uri
    · rw [writtenUris_eq]
      unfold rewriteIdentifierUris
      rw [List.map_map, List.forall₂_map_right_iff, List.forall₂_same]
      exact fun uri huri => uri_back hfresh huri

/-! ## A resource in another case -/

/-- Two apps, `a` and `b`, recreated as `x` and `y`. What is restored is `a`, which declares a
    permission of the resource. -/
def pairRestore (resource : Text) : CrossTenantRestore Unit where
  apps := [(['a'], ['A', 'p', 'p']), (['b'], ['A', 'p', 'i'])]
  distinct := by decide
  remap := (AList.insert ['b'] ['y'] ∅).insert ['a'] ['x']
  owned := by
    intro source new hlookup
    rw [AList.lookup_insert_eq, AList.lookup_insert_eq] at hlookup
    split at hlookup
    · next ha => exact ⟨_, List.mem_cons_self, ha.symm⟩
    · split at hlookup
      · next hb => exact ⟨_, List.mem_cons_of_mem _ List.mem_cons_self, hb.symm⟩
      · exact absurd hlookup (by simp)
  app :=
    { sourceAppId := ['a']
      displayName := ['A', 'p', 'p']
      requiredResourceAccess := [⟨resource, []⟩]
      identifierUris := ["api://A".toList]
      apiScopes := []
      preAuthorizedApplications := [⟨['B'], [['p']]⟩, ⟨['e'], [['p']]⟩] }
  newAppId := ['x']
  restored := by simp
  sourceTenantId := ['s']
  destTenantId := ['t']

theorem pairRestore_lookup {resource source new : Text}
    (h : (pairRestore resource).remap.lookup source = some new) :
    (source = ['a'] ∧ new = ['x']) ∨ (source = ['b'] ∧ new = ['y']) := by
  unfold pairRestore at h
  dsimp only at h
  rw [AList.lookup_insert_eq, AList.lookup_insert_eq] at h
  split at h
  · next ha => exact .inl ⟨ha, (Option.some.inj h).symm⟩
  · split at h
    · next hb => exact .inr ⟨hb, (Option.some.inj h).symm⟩
    · exact absurd h (by simp)

theorem pairRestore_mentioned (resource : Text) :
    (pairRestore resource).mentioned = [['s'], ['a'], ['b'], ['A'], ['B'], ['e']] := by
  have hsegments : uriSegments ['a', 'p', 'i', ':', '/', '/', 'A'] = [['A']] := by decide
  simp [CrossTenantRestore.mentioned, pairRestore, hsegments]

/-- An id of one new letter. -/
theorem pairRestore_freshId {resource : Text} (c : Char) (hslash : '/' ≠ c)
    (hnew : ∀ m ∈ [['s'], ['a'], ['b'], ['A'], ['B'], ['e']], ¬ SameId [c] m) :
    (pairRestore resource).FreshId [c] where
  ne_nil := List.cons_ne_nil c []
  segment := fun h => hslash (List.mem_singleton.1 h)
  fresh := by
    rw [pairRestore_mentioned]
    exact hnew

theorem pairRestore_fresh (resource : Text) : (pairRestore resource).Fresh where
  appId := by
    intro source new h
    rcases pairRestore_lookup h with ⟨-, rfl⟩ | ⟨-, rfl⟩
    · exact pairRestore_freshId 'x' (by decide) (by decide)
    · exact pairRestore_freshId 'y' (by decide) (by decide)
  once := by
    intro source source' new new' h h' hsame
    rcases pairRestore_lookup h with ⟨rfl, rfl⟩ | ⟨rfl, rfl⟩
    · rcases pairRestore_lookup h' with ⟨rfl, -⟩ | ⟨-, rfl⟩
      · rfl
      · exact absurd hsame (by decide)
    · rcases pairRestore_lookup h' with ⟨-, rfl⟩ | ⟨rfl, -⟩
      · exact absurd hsame (by decide)
      · rfl
  tenant := .inr (pairRestore_freshId 't' (by decide) (by decide))
  apart := by
    intro source new h
    have hdest : (pairRestore resource).destTenantId = ['t'] := rfl
    rw [hdest]
    rcases pairRestore_lookup h with ⟨-, rfl⟩ | ⟨-, rfl⟩
    · decide
    · decide

/-- Spelled as in the backup, the resource moves, and so does everything else. -/
theorem references_moved_iff_pair : (pairRestore ['b']).Fresh ∧ (pairRestore ['b']).ReferencesMoved := by
  refine ⟨pairRestore_fresh _, (references_moved_iff _ (pairRestore_fresh _)).2 ?_⟩
  intro a ha source new h hsame
  obtain rfl := List.mem_singleton.1 ha
  rcases pairRestore_lookup h with ⟨rfl, -⟩ | ⟨rfl, -⟩
  · exact absurd hsame (by decide)
  · rfl

/-- Spelled in another case, the resource stays on the source. -/
theorem resource_left_on_source : ¬ ∀ r : CrossTenantRestore Unit, r.Fresh → r.ReferencesMoved := by
  intro hclaim
  have hspelled := (resources_moved_iff (pairRestore_fresh ['B'])).1
    (hclaim _ (pairRestore_fresh ['B'])).resources
  have hlookup : (pairRestore ['B']).remap.lookup ['b'] = some ['y'] := by
    unfold pairRestore
    dsimp only
    rw [AList.lookup_insert_eq, AList.lookup_insert_eq, if_neg (by decide), if_pos rfl]
  have heq := hspelled _ List.mem_cons_self ['b'] ['y'] hlookup rfl
  exact absurd heq (by decide)

end Restore
