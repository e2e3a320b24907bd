import AzAppToolkit.Lib.Removal
import AzAppToolkit.Restore.References

set_option autoImplicit false

/-! # Pending adoptions

`commands/restore/adoption.rs`: an app of an earlier run is adopted only if it pre-authorizes no client
that this run would not write. What is written depends on which apps have a destination appId, so each
refusal takes an entry out of the remap and may make the next one; this repeats until nothing changes.

`refuse_foreign_pre_authorized` is `Removal.settle` at the rule `refuses`: `Follows` carries the code
along that loop, round by round.

Modelling choice: a `PendingAdoption` has a position of `created`; another index would be a panic. -/

namespace Restore

variable {Scope : Type}

/-! ## The code -/

/-- An app Pass 1 created or adopted. -/
structure CreatedApp (Scope : Type) where
  backup : AppRegistrationBackup Scope
  newAppId : Text

structure PendingAdoption (count : Nat) where
  position : Fin count
  preAuthorized : List PreAuthorizedApplication

/-- The scopes each client is written with; of two entries for one client the last counts. -/
def writtenScopes (written : List PreAuthorizedApplication) : Table Text (List Text) :=
  written.foldl
    (fun t p => t.insert p.clientKey (p.delegatedPermissionIds.map toAsciiLowercase)) ∅

/-- The label of a client, if it or one of its scopes would not be written. -/
def foreignLabel (written : Table Text (List Text)) (p : PreAuthorizedApplication) : Option Text :=
  match written.lookup p.clientKey with
  | none => some ("pre-authorized client ".toList ++ p.appId)
  | some scopes =>
    let extra := p.delegatedPermissionIds.filter (fun id => !scopes.contains (toAsciiLowercase id))
    if extra.isEmpty then none
    else some ("pre-authorized client ".toList ++ p.appId ++ " for scope id(s) ".toList ++
      Text.join ", ".toList extra)

def foreignPreAuthorized (app : AppRegistrationBackup Scope) (live : List PreAuthorizedApplication)
    (remap : AppIdRemap) (backupApps : BackupApps) : List Text :=
  let written := (planPreAuthorized app.preAuthorizedApplications remap backupApps).1
  live.filterMap (foreignLabel (writtenScopes written))

/-- Why an adoption is refused. -/
def refusalReason (c : CreatedApp Scope) (foreign : List Text) : Text :=
  "'".toList ++ c.backup.displayName ++ "' (appId ".toList ++ c.newAppId ++
    (") carries this app's restore tag, but it pre-authorizes client(s) this restore would not " ++
      "(").toList ++ Text.join ", ".toList foreign ++
    ("), so it is not provably the app an earlier run created. It was not adopted (that would " ++
      "give it this app's permissions and admin consent) and not created again. A client that is " ++
      "itself in this backup counts only under the appId this run restored it as: if one listed " ++
      "is a client this run did not restore, settle that app's own item first; if it is a stale " ++
      "entry an earlier run wrote for a client since deleted (or deleted and recreated), remove " ++
      "that entry from this app's Expose an API tab and run the restore again. If you added a " ++
      "client yourself after an earlier run, finish this app by hand or remove it and run the " ++
      "restore again; otherwise find out who added it, and delete the app to have the restore " ++
      "recreate it.").toList

section Refuse

variable (created : List (CreatedApp Scope)) (backupApps : BackupApps)

structure Refusals (count : Nat) where
  remap : AppIdRemap
  refused : List (Fin count × Text)

/-- One pending adoption of a round. -/
def refuseOne (st : Refusals created.length) (p : PendingAdoption created.length) :
    Refusals created.length :=
  if st.refused.any (fun r => r.1 == p.position) then st
  else
    let c := created.get p.position
    let foreign := foreignPreAuthorized c.backup p.preAuthorized st.remap backupApps
    if foreign.isEmpty then st
    else
      ⟨st.remap.erase c.backup.sourceAppId, st.refused ++ [(p.position, refusalReason c foreign)]⟩

/-- At most so many rounds. -/
def refuseRounds (pending : List (PendingAdoption created.length)) :
    Nat → Refusals created.length → Option (Refusals created.length)
  | 0, _ => none
  | rounds + 1, st =>
    let next := pending.foldl (refuseOne created backupApps) st
    if next.refused.length = st.refused.length then
      some ⟨next.remap, next.refused.mergeSort (fun a b => decide (a.1 ≤ b.1))⟩
    else refuseRounds pending rounds next

def refuseForeignPreAuthorized (rounds : Nat) (pending : List (PendingAdoption created.length))
    (remap : AppIdRemap) : Option (Refusals created.length) :=
  refuseRounds created backupApps pending rounds ⟨remap, []⟩

end Refuse

/-- The refused positions. -/
def Refusals.positions {count : Nat} (st : Refusals count) : List (Fin count) :=
  st.refused.map Prod.fst

/-! ## The rule -/

section Rule

variable (created : List (CreatedApp Scope)) (backupApps : BackupApps) (remap : AppIdRemap)

def sourceOf (i : Fin created.length) : Text := (created.get i).backup.sourceAppId

/-- The remap less the apps refused. -/
def without (refused : List (Fin created.length)) : AppIdRemap :=
  refused.foldl (fun t i => t.erase (sourceOf created i)) remap

/-- The clients of the candidate at a position, as read live. -/
def liveAt (pending : List (PendingAdoption created.length)) (i : Fin created.length) :
    List PreAuthorizedApplication :=
  ((pending.find? (fun p => p.position == i)).map PendingAdoption.preAuthorized).getD []

/-- The adoption at a position is refused once the others are. -/
def refuses (pending : List (PendingAdoption created.length)) (refused : List (Fin created.length))
    (i : Fin created.length) : Bool :=
  !(foreignPreAuthorized (created.get i).backup (liveAt created pending i)
    (without created remap refused) backupApps).isEmpty

/-- A set of positions that could be what is refused: every other pending adoption is held to nothing
    it would not be written with. -/
structure Settled (pending : List (PendingAdoption created.length))
    (refused : List (Fin created.length)) : Prop where
  subset : refused ⊆ pending.map PendingAdoption.position
  quiet : ∀ p ∈ pending, p.position ∉ refused → foreignPreAuthorized (created.get p.position).backup
    p.preAuthorized (without created remap refused) backupApps = []

/-- No client listed in a manifest has a destination appId. -/
def NoListedDestination : Prop :=
  ∀ c ∈ created, ∀ p ∈ c.backup.preAuthorizedApplications, ∀ source new,
    remap.lookup source = some new → ¬ SameId p.appId new

/-- No two apps have one destination appId. -/
def DistinctDestinations : Prop :=
  ∀ source source' new new', remap.lookup source = some new → remap.lookup source' = some new' →
    SameId new new' → source = source'

end Rule

section Lookups

variable {created : List (CreatedApp Scope)} {backupApps : BackupApps} {remap : AppIdRemap}
  {pending : List (PendingAdoption created.length)}

theorem lookup_without (refused : List (Fin created.length)) (key : Text) :
    (without created remap refused).lookup key =
      if key ∈ refused.map (sourceOf created) then none else remap.lookup key := by
  unfold without
  induction refused generalizing remap with
  | nil => simp
  | cons i rest ih =>
    rw [List.foldl_cons, ih, AList.lookup_erase_eq, List.map_cons]
    by_cases hi : key = sourceOf created i
    · simp [hi]
    · simp [hi]

theorem lookup_without_mono {refused refused' : List (Fin created.length)}
    (hsub : refused ⊆ refused') {key new : Text}
    (h : (without created remap refused').lookup key = some new) :
    (without created remap refused).lookup key = some new := by
  rw [lookup_without] at h ⊢
  split at h
  · exact absurd h (by simp)
  · next hnot =>
    rw [if_neg]
    · exact h
    · intro hmem
      obtain ⟨i, hi, hsource⟩ := List.mem_map.1 hmem
      exact hnot (hsource ▸ List.mem_map_of_mem (hsub hi))

theorem without_snoc (refused : List (Fin created.length)) (i : Fin created.length) :
    without created remap (refused ++ [i]) =
      (without created remap refused).erase (sourceOf created i) := by
  unfold without
  rw [List.foldl_append]
  rfl

/-- At distinct positions, what is read for a position is its own. -/
theorem liveAt_position (hpos : (pending.map PendingAdoption.position).Nodup)
    {p : PendingAdoption created.length} (hp : p ∈ pending) :
    liveAt created pending p.position = p.preAuthorized := by
  unfold liveAt
  cases hfind : pending.find? (fun q => q.position == p.position) with
  | none =>
    have hnot := List.find?_eq_none.1 hfind p hp
    exact absurd (beq_self_eq_true _) hnot
  | some q =>
    have hq : q.position = p.position := by simpa using List.find?_some hfind
    rw [List.inj_on_of_nodup_map hpos (List.mem_of_find?_eq_some hfind) hp hq]
    rfl

end Lookups

/-- More rounds than needed change nothing. -/
theorem refuseRounds_mono {created : List (CreatedApp Scope)} {backupApps : BackupApps}
    {pending : List (PendingAdoption created.length)} {rounds rounds' : Nat} (hle : rounds ≤ rounds')
    {st final : Refusals created.length}
    (h : refuseRounds created backupApps pending rounds st = some final) :
    refuseRounds created backupApps pending rounds' st = some final := by
  induction rounds generalizing rounds' st with
  | zero => exact absurd h (by simp [refuseRounds])
  | succ rounds ih =>
    obtain ⟨rounds', rfl⟩ : ∃ m, rounds' = m + 1 := ⟨rounds' - 1, by omega⟩
    unfold refuseRounds at h ⊢
    dsimp only at h ⊢
    split at h
    · next hsame =>
      rw [if_pos hsame]
      exact h
    · next hmore =>
      rw [if_neg hmore]
      exact ih (by omega) h

/-! ## The code follows the rule -/

section Follow

variable {created : List (CreatedApp Scope)} {backupApps : BackupApps} {remap : AppIdRemap}
  {pending : List (PendingAdoption created.length)}

/-- The code has refused the positions, and nothing else has happened to the remap. -/
structure Follows (remap : AppIdRemap) (st : Refusals created.length)
    (refused : List (Fin created.length)) : Prop where
  positions : st.positions = refused
  remap : st.remap = without created remap refused

variable {st : Refusals created.length} {refused : List (Fin created.length)}

theorem Follows.one (hpos : (pending.map PendingAdoption.position).Nodup)
    (h : Follows remap st refused) {p : PendingAdoption created.length} (hp : p ∈ pending) :
    Follows remap (refuseOne created backupApps st p)
      (Removal.look (refuses created backupApps remap pending) refused p.position) := by
  have hany : st.refused.any (fun r => r.1 == p.position) = refused.contains p.position := by
    rw [← h.positions]
    unfold Refusals.positions
    rw [Bool.eq_iff_iff, List.any_eq_true, List.contains_iff_mem, List.mem_map]
    simp only [beq_iff_eq]
  unfold refuseOne Removal.look
  rw [hany]
  dsimp only
  split
  · exact h
  · unfold refuses
    rw [liveAt_position hpos hp, h.remap]
    by_cases hforeign : (foreignPreAuthorized (created.get p.position).backup p.preAuthorized
        (without created remap refused) backupApps).isEmpty
    · rw [if_pos hforeign, hforeign, if_neg (by simp)]
      exact h
    · rw [if_neg hforeign, Bool.eq_false_iff.2 hforeign, if_pos (by rfl)]
      refine ⟨?_, ?_⟩
      · show (st.refused ++ [_]).map Prod.fst = _
        rw [List.map_append, List.map_singleton]
        exact congrArg (· ++ [p.position]) h.positions
      · exact (without_snoc refused p.position).symm

theorem Follows.round (hpos : (pending.map PendingAdoption.position).Nodup)
    (seen : List (PendingAdoption created.length)) (hseen : seen ⊆ pending) (h : Follows remap st refused) :
    Follows remap (seen.foldl (refuseOne created backupApps) st)
      ((seen.map PendingAdoption.position).foldl
        (Removal.look (refuses created backupApps remap pending)) refused) := by
  induction seen generalizing st refused with
  | nil => exact h
  | cons p rest ih =>
    have hrest : rest ⊆ pending := fun q hq => hseen (List.mem_cons_of_mem p hq)
    exact ih hrest (h.one hpos (hseen List.mem_cons_self))

theorem Follows.length (h : Follows remap st refused) : st.refused.length = refused.length := by
  rw [← h.positions]
  exact (List.length_map _).symm

/-- `sort_by_key` on the position. -/
theorem sorted_mergeSort {count : Nat} (refused : List (Fin count × Text)) :
    (refused.mergeSort (fun a b => decide (a.1 ≤ b.1))).Pairwise (fun a b => a.1 ≤ b.1) := by
  have htrans : ∀ a b c : Fin count × Text, decide (a.1 ≤ b.1) = true →
      decide (b.1 ≤ c.1) = true → decide (a.1 ≤ c.1) = true := by
    intro a b c hab hbc
    rw [decide_eq_true_eq] at hab hbc ⊢
    exact le_trans hab hbc
  have htotal : ∀ a b : Fin count × Text, (decide (a.1 ≤ b.1) || decide (b.1 ≤ a.1)) = true := by
    intro a b
    rw [Bool.or_eq_true, decide_eq_true_eq, decide_eq_true_eq]
    exact le_total a.1 b.1
  exact (List.pairwise_mergeSort htrans htotal refused).imp (fun hab => of_decide_eq_true hab)

/-- What the code returns is what the rule settles on, in ascending order. -/
theorem refuseRounds_eq (hpos : (pending.map PendingAdoption.position).Nodup) (rounds : Nat)
    {refused result : List (Fin created.length)} (h : Follows remap st refused)
    (hresult : Removal.settle (refuses created backupApps remap pending)
      (pending.map PendingAdoption.position) rounds refused = some result) :
    ∃ final, refuseRounds created backupApps pending rounds st = some final ∧
      final.remap = without created remap result ∧
      final.positions.Perm result ∧ final.positions.Pairwise (· ≤ ·) := by
  induction rounds generalizing st refused with
  | zero => exact absurd hresult (by simp [Removal.settle])
  | succ rounds ih =>
    have hround : Follows remap (pending.foldl (refuseOne created backupApps) st)
        (Removal.sweep (refuses created backupApps remap pending)
          (pending.map PendingAdoption.position) refused) :=
      h.round hpos pending (List.Subset.refl pending)
    unfold Removal.settle at hresult
    unfold refuseRounds
    dsimp only at hresult ⊢
    rw [hround.length, h.length]
    split at hresult
    · next hsame =>
      obtain rfl := Option.some.inj hresult
      rw [if_pos hsame]
      refine ⟨_, rfl, hround.remap, ?_, ?_⟩
      · have hperm := List.mergeSort_perm
          (pending.foldl (refuseOne created backupApps) st).refused
          (fun a b => decide (a.1 ≤ b.1))
        exact (hperm.map Prod.fst).trans (List.Perm.of_eq hround.positions)
      · unfold Refusals.positions
        rw [List.pairwise_map]
        exact sorted_mergeSort _
    · next hmore =>
      rw [if_neg hmore]
      exact ih hround hresult

end Follow

end Restore
