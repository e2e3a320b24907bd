import AzAppToolkit.Graph.Errors
import AzAppToolkit.Lib.Serve

set_option autoImplicit false

/-! # Replacing an application's owners

`set_application_owners_core` of `applications/owners.rs`, against a directory in which every change
applies or fails without effect. Adding before removing keeps an owner only if an add succeeds: the
removals run whatever became of the adds, unless one failed on a dead session. -/

namespace Owners

open Prog
open Graph (GraphError)

/-! ## Data -/

inductive Action where
  | add
  | remove
deriving DecidableEq

def Action.text : Action → Text
  | .add => "add".toList
  | .remove => "remove".toList

/-- One owner to add or to remove. -/
abbrev Change := Action × Text

structure UiError where
  code : Text
  message : Text

structure OwnerChangeFailure where
  principalId : Text
  action : Text
  code : Text
  message : Text

def OwnerChangeFailure.isReauthFatal (f : OwnerChangeFailure) : Bool :=
  Graph.reauthFatalCodes.contains f.code

structure SetOwnersResult where
  added : List Text
  removed : List Text
  failures : List OwnerChangeFailure

inductive Call where
  | listOwners
  /-- `add_owner` and `remove_owner`. -/
  | change (action : Action) (id : Text)
  | invalidateAppDetailState

abbrev Answer : Call → Type
  | .listOwners => Except GraphError (List Text)
  | .change _ _ => Except GraphError Unit
  | .invalidateAppDetailState => Unit

abbrev Async (α : Type) := Prog Answer α

def call (c : Call) : Async (Answer c) := Prog.call c

/-- How a `HashSet` goes through what was put into it. -/
structure HashOrder where
  iterate : List Text → List Text
  perm : ∀ l, (iterate l).Perm l.dedup

/-- What the command does not fix: the wording of errors and the order of its two sets. -/
structure Setting where
  toUi : GraphError → UiError
  current : HashOrder
  desired : HashOrder

/-! ## The command -/

section Command

variable (cfg : Setting)

def ownerFailure (principalId : Text) (action : Action) (err : UiError) : OwnerChangeFailure :=
  ⟨principalId, action.text, err.code, err.message⟩

/-- Either loop: what succeeded, what failed, and whether a dead session ended it. -/
def changeOwners (action : Action) : List Text → Async (List Text × List OwnerChangeFailure × Bool)
  | [] => pure ([], [], false)
  | id :: rest => do
      match ← call (.change action id) with
      | .ok () =>
        let (changed, failures, stopped) ← changeOwners action rest
        pure (id :: changed, failures, stopped)
      | .error err =>
        let failure := ownerFailure id action (cfg.toUi err)
        if failure.isReauthFatal then pure ([], [failure], true)
        else
          let (changed, failures, stopped) ← changeOwners action rest
          pure (changed, failure :: failures, stopped)

/-- The ids to add, in the order of the set. -/
def toAdd (current principalIds : List Text) : List Text :=
  (cfg.desired.iterate principalIds).filter (fun id => !current.contains id)

/-- The ids to remove, in the order of the set. -/
def toRemove (current principalIds : List Text) : List Text :=
  (cfg.current.iterate current).filter (fun id => !principalIds.contains id)

def setApplicationOwnersCore (principalIds : List Text) : Async (Except UiError SetOwnersResult) := do
  match ← call .listOwners with
  | .error err => pure (.error (cfg.toUi err))
  | .ok current =>
    let (added, failures, stopped) ← changeOwners cfg .add (toAdd cfg current principalIds)
    let (removed, failures) ←
      (if stopped then pure ([], failures)
      else do
        let (removed, later, _) ← changeOwners cfg .remove (toRemove cfg current principalIds)
        pure (removed, failures ++ later) : Async _)
    if !added.isEmpty || !removed.isEmpty then
      let _ ← call .invalidateAppDetailState
    pure (.ok ⟨added, removed, failures⟩)

end Command

/-! ## The directory -/

/-- The changes that took effect, and whether the detail state was dropped. -/
structure Directory where
  changes : List Change
  invalidated : Bool

/-- What the directory says to each call. No id is tried twice, so the pattern has one answer for
    each. -/
structure Outcomes where
  list : Except GraphError (List Text)
  change : Action → Text → Except GraphError Unit

def serve (o : Outcomes) (s : Directory) : (c : Call) → Answer c × Directory
  | .listOwners => (o.list, s)
  | .change action id =>
    match o.change action id with
    | .ok () => (.ok (), { s with changes := s.changes ++ [(action, id)] })
    | .error err => (.error err, s)
  | .invalidateAppDetailState => ((), { s with invalidated := true })

def Change.apply (owners : List Text) (c : Change) : List Text :=
  match c.1 with
  | .add => if owners.contains c.2 then owners else owners ++ [c.2]
  | .remove => owners.filter (fun id => id != c.2)

/-- The owners after some changes. -/
def ownersAfter (owners : List Text) (changes : List Change) : List Text :=
  changes.foldl Change.apply owners

/-- The command, from the start to the end. -/
def outcome (cfg : Setting) (o : Outcomes) (principalIds : List Text) :
    Except UiError SetOwnersResult × Directory :=
  eval (serve o) (setApplicationOwnersCore cfg principalIds) ⟨[], false⟩

/-! ## What a loop does -/

variable {id : Text}

section Loop

variable (cfg : Setting) (o : Outcomes) (action : Action)

/-- The failure reported for an id, if its change failed. -/
def failureOf (id : Text) : Option OwnerChangeFailure :=
  match o.change action id with
  | .ok () => none
  | .error err => some (ownerFailure id action (cfg.toUi err))

/-- The change of the id fails on a dead session. -/
def fatalAt (id : Text) : Bool :=
  (failureOf cfg o action id).any OwnerChangeFailure.isReauthFatal

def succeeds (id : Text) : Bool := (o.change action id).toBool

/-- The ids a loop comes to: up to a dead session. -/
def tried : List Text → List Text
  | [] => []
  | id :: rest => if fatalAt cfg o action id then [id] else id :: tried rest

theorem tried_initial (ids : List Text) : tried cfg o action ids <+: ids := by
  induction ids with
  | nil => exact List.prefix_rfl
  | cons id rest ih =>
    unfold tried
    split
    · exact ⟨rest, rfl⟩
    · exact (List.prefix_cons_inj id).2 ih

/-- A loop that left ids untried ended on a dead session. -/
theorem tried_eq_of_not_fatal {ids : List Text}
    (h : (tried cfg o action ids).any (fatalAt cfg o action) = false) :
    tried cfg o action ids = ids := by
  induction ids with
  | nil => rfl
  | cons id rest ih =>
    unfold tried at h ⊢
    split
    · next hfatal =>
      rw [if_pos hfatal] at h
      simp [hfatal] at h
    · next hfatal =>
      rw [if_neg hfatal] at h
      simp only [List.any_cons, Bool.or_eq_false_iff] at h
      rw [ih h.2]

theorem failureOf_eq_none : failureOf cfg o action id = none ↔ succeeds o action id = true := by
  unfold failureOf succeeds
  cases o.change action id <;> simp [Except.toBool]

/-- A loop over the ids, from any state. -/
theorem eval_changeOwners (ids : List Text) (s : Directory) :
    eval (serve o) (changeOwners cfg action ids) s
      = (((tried cfg o action ids).filter (succeeds o action),
          (tried cfg o action ids).filterMap (failureOf cfg o action),
          (tried cfg o action ids).any (fatalAt cfg o action)),
        { s with changes := s.changes ++
            ((tried cfg o action ids).filter (succeeds o action)).map (fun id => (action, id)) }) := by
  induction ids generalizing s with
  | nil => simp [changeOwners, tried]
  | cons id rest ih =>
    unfold changeOwners
    simp only [eval_bind, call, eval_call, serve]
    cases hchange : o.change action id with
    | ok u =>
      have hgood : succeeds o action id = true := by simp [succeeds, hchange, Except.toBool]
      have hnone : failureOf cfg o action id = none := (failureOf_eq_none ..).2 hgood
      have hfatal : fatalAt cfg o action id = false := by simp [fatalAt, hnone]
      simp only [eval_bind, ih, eval_pure, tried, hfatal, Bool.false_eq_true, if_false,
        List.filter_cons, hgood, if_true, List.filterMap_cons, hnone, List.any_cons,
        Bool.false_or, List.map_cons, List.append_assoc, List.singleton_append]
    | error err =>
      have hbad : succeeds o action id = false := by simp [succeeds, hchange, Except.toBool]
      have hsome : failureOf cfg o action id = some (ownerFailure id action (cfg.toUi err)) := by
        simp [failureOf, hchange]
      have hfatal : fatalAt cfg o action id
          = (ownerFailure id action (cfg.toUi err)).isReauthFatal := by simp [fatalAt, hsome]
      cases hstop : (ownerFailure id action (cfg.toUi err)).isReauthFatal with
      | true => simp [tried, hfatal, hstop, hbad, hsome]
      | false =>
        simp [ih, tried, hfatal, hstop, hbad, hsome]

end Loop

/-! ## The plan and what became of it -/

section Plan

variable (cfg : Setting) (o : Outcomes) (current principalIds : List Text)

/-- The adds that were tried. -/
def triedAdds : List Text := tried cfg o .add (toAdd cfg current principalIds)

/-- An add failed on a dead session. -/
def stopped : Bool := (triedAdds cfg o current principalIds).any (fatalAt cfg o .add)

/-- The removals that were tried. -/
def triedRemoves : List Text :=
  if stopped cfg o current principalIds then []
  else tried cfg o .remove (toRemove cfg current principalIds)

def addedIds : List Text := (triedAdds cfg o current principalIds).filter (succeeds o .add)

def removedIds : List Text := (triedRemoves cfg o current principalIds).filter (succeeds o .remove)

def allFailures : List OwnerChangeFailure :=
  (triedAdds cfg o current principalIds).filterMap (failureOf cfg o .add) ++
    (triedRemoves cfg o current principalIds).filterMap (failureOf cfg o .remove)

/-- The changes that took effect, in their order. -/
def madeChanges : List Change :=
  (addedIds cfg o current principalIds).map (fun id => (Action.add, id)) ++
    (removedIds cfg o current principalIds).map (fun id => (Action.remove, id))

theorem mem_toAdd : id ∈ toAdd cfg current principalIds ↔ id ∈ principalIds ∧ id ∉ current := by
  simp [toAdd, (cfg.desired.perm principalIds).mem_iff]

theorem mem_toRemove : id ∈ toRemove cfg current principalIds ↔ id ∈ current ∧ id ∉ principalIds := by
  simp [toRemove, (cfg.current.perm current).mem_iff]

theorem nodup_toAdd : (toAdd cfg current principalIds).Nodup :=
  ((cfg.desired.perm principalIds).nodup_iff.2 (List.nodup_dedup _)).filter _

theorem nodup_toRemove : (toRemove cfg current principalIds).Nodup :=
  ((cfg.current.perm current).nodup_iff.2 (List.nodup_dedup _)).filter _

theorem triedRemoves_initial :
    triedRemoves cfg o current principalIds <+: toRemove cfg current principalIds := by
  unfold triedRemoves
  split
  · exact List.nil_prefix
  · exact tried_initial cfg o .remove _

theorem mem_addedIds (h : id ∈ addedIds cfg o current principalIds) : id ∈ principalIds ∧ id ∉ current :=
  (mem_toAdd cfg current principalIds).1
    ((tried_initial cfg o .add _).subset (List.mem_of_mem_filter h))

theorem mem_removedIds (h : id ∈ removedIds cfg o current principalIds) : id ∈ current ∧ id ∉ principalIds :=
  (mem_toRemove cfg current principalIds).1
    ((triedRemoves_initial cfg o current principalIds).subset (List.mem_of_mem_filter h))

theorem nodup_addedIds : (addedIds cfg o current principalIds).Nodup :=
  ((nodup_toAdd cfg current principalIds).sublist
    (tried_initial cfg o .add _).sublist).filter _

theorem nodup_removedIds : (removedIds cfg o current principalIds).Nodup :=
  ((nodup_toRemove cfg current principalIds).sublist
    (triedRemoves_initial cfg o current principalIds).sublist).filter _

/-- The command in closed form, once the owners are read. -/
theorem outcome_eq (hlist : o.list = .ok current) :
    outcome cfg o principalIds
      = (.ok ⟨addedIds cfg o current principalIds, removedIds cfg o current principalIds,
            allFailures cfg o current principalIds⟩,
          ⟨madeChanges cfg o current principalIds,
            !(madeChanges cfg o current principalIds).isEmpty⟩) := by
  unfold outcome setApplicationOwnersCore
  simp only [eval_bind, call, eval_call, serve, hlist, eval_changeOwners, List.nil_append]
  cases hstop : (tried cfg o .add (toAdd cfg current principalIds)).any (fatalAt cfg o .add) with
  | true =>
    have hstopped : stopped cfg o current principalIds = true := hstop
    have hremoves : triedRemoves cfg o current principalIds = [] := by
      simp [triedRemoves, hstopped]
    have hnone : removedIds cfg o current principalIds = [] := by simp [removedIds, hremoves]
    have hmade : madeChanges cfg o current principalIds
        = (addedIds cfg o current principalIds).map (fun id => (Action.add, id)) := by
      simp [madeChanges, hnone]
    have hfailures : allFailures cfg o current principalIds
        = (triedAdds cfg o current principalIds).filterMap (failureOf cfg o .add) := by
      simp [allFailures, hremoves]
    rw [hnone, hmade, hfailures]
    unfold addedIds triedAdds
    cases hadded : (tried cfg o .add (toAdd cfg current principalIds)).filter
        (succeeds o .add) with
    | nil => simp
    | cons id ids => simp [serve]
  | false =>
    have hstopped : stopped cfg o current principalIds = false := hstop
    have hremoves : triedRemoves cfg o current principalIds
        = tried cfg o .remove (toRemove cfg current principalIds) := by
      simp [triedRemoves, hstopped]
    unfold madeChanges allFailures removedIds
    rw [hremoves]
    unfold addedIds triedAdds
    simp only [Bool.false_eq_true, if_false, eval_bind, eval_changeOwners, eval_pure]
    cases hadded : (tried cfg o .add (toAdd cfg current principalIds)).filter
        (succeeds o .add) <;>
      cases hremoved : (tried cfg o .remove (toRemove cfg current principalIds)).filter
        (succeeds o .remove) <;>
      simp [serve]

end Plan

/-! ## The owners at each moment -/

theorem mem_ownersAfter_adds {owners adds : List Text} :
    id ∈ ownersAfter owners (adds.map (fun i => (Action.add, i))) ↔ id ∈ owners ∨ id ∈ adds := by
  induction adds generalizing owners with
  | nil => simp [ownersAfter]
  | cons a adds ih =>
    have hstep : ownersAfter owners ((a :: adds).map (fun i => (Action.add, i)))
        = ownersAfter (Change.apply owners (Action.add, a))
            (adds.map (fun i => (Action.add, i))) := rfl
    have happly : id ∈ Change.apply owners (Action.add, a) ↔ id ∈ owners ∨ id = a := by
      unfold Change.apply
      simp only
      split
      · next hmem =>
        have hmem : a ∈ owners := by simpa using hmem
        constructor
        · exact Or.inl
        · rintro (hid | rfl)
          · exact hid
          · exact hmem
      · simp
    rw [hstep, ih, happly, List.mem_cons, or_assoc]

theorem mem_ownersAfter_removes {owners removes : List Text} :
    id ∈ ownersAfter owners (removes.map (fun i => (Action.remove, i))) ↔
      id ∈ owners ∧ id ∉ removes := by
  induction removes generalizing owners with
  | nil => simp [ownersAfter]
  | cons a removes ih =>
    have hstep : ownersAfter owners ((a :: removes).map (fun i => (Action.remove, i)))
        = ownersAfter (Change.apply owners (Action.remove, a))
            (removes.map (fun i => (Action.remove, i))) := rfl
    have happly : id ∈ Change.apply owners (Action.remove, a) ↔ id ∈ owners ∧ id ≠ a := by
      unfold Change.apply
      simp
    rw [hstep, ih, happly, List.mem_cons, and_assoc, not_or]

theorem mem_ownersAfter {owners adds removes : List Text} :
    id ∈ ownersAfter owners (adds.map (fun i => (Action.add, i)) ++
        removes.map (fun i => (Action.remove, i))) ↔
      (id ∈ owners ∨ id ∈ adds) ∧ id ∉ removes := by
  have happend : ownersAfter owners (adds.map (fun i => (Action.add, i)) ++
      removes.map (fun i => (Action.remove, i)))
      = ownersAfter (ownersAfter owners (adds.map (fun i => (Action.add, i))))
          (removes.map (fun i => (Action.remove, i))) := List.foldl_append
  rw [happend, mem_ownersAfter_removes, mem_ownersAfter_adds]

/-- A moment is before the last add, or between two removals. -/
theorem prefix_cases {adds removes : List Text} {made : List Change}
    (h : made <+: adds.map (fun i => (Action.add, i)) ++ removes.map (fun i => (Action.remove, i))) :
    (∃ early, early <+: adds ∧ made = early.map (fun i => (Action.add, i))) ∨
      ∃ early, early <+: removes ∧
        made = adds.map (fun i => (Action.add, i)) ++ early.map (fun i => (Action.remove, i)) := by
  rw [List.prefix_iff_eq_take, List.take_append, ← List.map_take, ← List.map_take] at h
  by_cases hlen : made.length ≤ adds.length
  · left
    refine ⟨adds.take made.length, List.take_prefix _ _, ?_⟩
    rw [List.length_map, Nat.sub_eq_zero_of_le hlen, List.take_zero, List.map_nil,
      List.append_nil] at h
    exact h
  · right
    refine ⟨removes.take (made.length - adds.length), List.take_prefix _ _, ?_⟩
    rw [List.length_map, List.take_of_length_le (Nat.le_of_not_le hlen)] at h
    exact h

/-! ## The command keeps an owner -/

section Promises

variable (cfg : Setting) (o : Outcomes) (current principalIds : List Text)

/-- The application has an owner at every moment, if it had one at the start. -/
def NeverOrphaned (changes : List Change) : Prop :=
  current ≠ [] → ∀ made, made <+: changes → ownersAfter current made ≠ []

/-- No wanted owner is there, every add fails and none on a dead session, and every removal
    succeeds. -/
def EveryAddFails : Prop :=
  current ≠ [] ∧ (∀ id ∈ principalIds, id ∉ current) ∧
    (∀ id ∈ principalIds, succeeds o .add id = false ∧ fatalAt cfg o .add id = false) ∧
    ∀ id ∈ current, succeeds o .remove id = true

/-- The changes that were planned, in their order. -/
def planned : List Change :=
  (toAdd cfg current principalIds).map (fun id => (Action.add, id)) ++
    (toRemove cfg current principalIds).map (fun id => (Action.remove, id))

/-- The failure is about the change. -/
def OwnerChangeFailure.names (f : OwnerChangeFailure) (c : Change) : Prop :=
  f.principalId = c.2 ∧ f.action = c.1.text

/-- What the result says of the changes that took effect. -/
structure Reports (result : SetOwnersResult) (changes : List Change) : Prop where
  /-- No wanted owner is removed. -/
  kept : ∀ id ∈ principalIds, (Action.remove, id) ∉ changes
  added : result.added = changes.filterMap (fun c => if c.1 = .add then some c.2 else none)
  removed : result.removed = changes.filterMap (fun c => if c.1 = .remove then some c.2 else none)
  once : result.added.Nodup ∧ result.removed.Nodup
  /-- Of the planned changes, those that were tried took effect or are named; the rest comes after one
      that failed on a dead session. -/
  accounted : ∃ attempted rest, planned cfg current principalIds = attempted ++ rest ∧
    (∀ c ∈ attempted, c ∈ changes ∨ ∃ f ∈ result.failures, f.names c) ∧
    (rest ≠ [] → ∃ c ∈ attempted, ∃ f ∈ result.failures, f.names c ∧ f.isReauthFatal = true)
  /-- Nothing failed: the owners are the wanted ones. -/
  reached : result.failures = [] → ∀ id, id ∈ ownersAfter current changes ↔ id ∈ principalIds

theorem mem_madeChanges_remove (h : (Action.remove, id) ∈ madeChanges cfg o current principalIds) :
    id ∈ removedIds cfg o current principalIds := by
  simpa [madeChanges] using h

/-- An owner who is not removed is there at every moment. -/
theorem stays {made : List Change} (hid : id ∈ current) (hkept : id ∉ removedIds cfg o current principalIds)
    (hmade : made <+: madeChanges cfg o current principalIds) : id ∈ ownersAfter current made := by
  obtain ⟨early, -, rfl⟩ | ⟨early, hearly, rfl⟩ := prefix_cases hmade
  · exact mem_ownersAfter_adds.2 (.inl hid)
  · exact mem_ownersAfter.2 ⟨.inl hid, fun hin => hkept (hearly.subset hin)⟩

theorem removedIds_of_stopped (h : stopped cfg o current principalIds = true) :
    removedIds cfg o current principalIds = [] := by
  simp [removedIds, triedRemoves, h]

/-- Unless a dead session ended the adds, all of them were tried. -/
theorem triedAdds_of_not_stopped (h : stopped cfg o current principalIds = false) :
    triedAdds cfg o current principalIds = toAdd cfg current principalIds :=
  tried_eq_of_not_fatal cfg o .add h

/-- Where every add fails, the removals empty the set. -/
theorem orphaned_of_everyAddFails (h : EveryAddFails cfg o current principalIds) :
    ownersAfter current (madeChanges cfg o current principalIds) = [] := by
  obtain ⟨-, hapart, hadds, hremoves⟩ := h
  have hwanted : ∀ id ∈ toAdd cfg current principalIds, id ∈ principalIds := fun id hid =>
    ((mem_toAdd ..).1 hid).1
  have hstopped : stopped cfg o current principalIds = false := by
    unfold stopped
    rw [List.any_eq_false]
    intro id hid
    rw [(hadds id (hwanted id ((tried_initial ..).subset hid))).2]
    exact Bool.false_ne_true
  have hsafe : ∀ id ∈ tried cfg o .remove (toRemove cfg current principalIds),
      fatalAt cfg o .remove id = false := by
    intro id hid
    have hcurrent := ((mem_toRemove ..).1 ((tried_initial ..).subset hid)).1
    have hnone := (failureOf_eq_none cfg o .remove).2 (hremoves id hcurrent)
    simp [fatalAt, hnone]
  have htried : triedRemoves cfg o current principalIds = toRemove cfg current principalIds := by
    unfold triedRemoves
    rw [hstopped]
    exact tried_eq_of_not_fatal cfg o .remove (List.any_eq_false.2 (fun id hid => by
      rw [hsafe id hid]
      exact Bool.false_ne_true))
  rw [List.eq_nil_iff_forall_not_mem]
  intro id hid
  obtain ⟨hid, hkept⟩ := mem_ownersAfter.1 hid
  rcases hid with hid | hid
  · apply hkept
    have hplanned := (mem_toRemove cfg current principalIds).2 ⟨hid, fun hin => hapart id hin hid⟩
    exact List.mem_filter.2 ⟨htried ▸ hplanned, hremoves id hid⟩
  · have hfails := (hadds id (mem_addedIds cfg o current principalIds hid).1).1
    rw [(List.mem_filter.1 hid).2] at hfails
    exact Bool.noConfusion hfails

theorem neverOrphaned_iff :
    NeverOrphaned current (madeChanges cfg o current principalIds) ↔
      ¬ EveryAddFails cfg o current principalIds := by
  constructor
  · intro h hfails
    exact h hfails.1 _ List.prefix_rfl (orphaned_of_everyAddFails cfg o current principalIds hfails)
  · intro hnot hsome made hmade
    obtain ⟨first, hfirst⟩ := List.exists_mem_of_ne_nil current hsome
    cases hstop : stopped cfg o current principalIds with
    | true =>
      have hnone := removedIds_of_stopped cfg o current principalIds hstop
      exact List.ne_nil_of_mem (stays cfg o current principalIds hfirst (by simp [hnone]) hmade)
    | false =>
      by_cases hapart : ∀ id ∈ principalIds, id ∉ current
      · by_cases hremoves : ∀ id ∈ current, succeeds o .remove id = true
        · -- some add is no plain failure: it was tried, and not on a dead session
          have hadd : ∃ id ∈ principalIds,
              ¬ (succeeds o .add id = false ∧ fatalAt cfg o .add id = false) := by
            by_contra hall
            push Not at hall
            exact hnot ⟨hsome, hapart, hall, hremoves⟩
          obtain ⟨id, hid, hgood⟩ := hadd
          have hplanned := (mem_toAdd cfg current principalIds).2 ⟨hid, hapart id hid⟩
          rw [← triedAdds_of_not_stopped cfg o current principalIds hstop] at hplanned
          have hlive : fatalAt cfg o .add id = false :=
            Bool.eq_false_iff.2 (List.any_eq_false.1 hstop id hplanned)
          have hadded : id ∈ addedIds cfg o current principalIds := by
            refine List.mem_filter.2 ⟨hplanned, ?_⟩
            by_contra hbad
            exact hgood ⟨Bool.eq_false_iff.2 hbad, hlive⟩
          obtain ⟨early, -, rfl⟩ | ⟨early, hearly, rfl⟩ := prefix_cases hmade
          · exact List.ne_nil_of_mem (mem_ownersAfter_adds.2 (.inl hfirst))
          · refine List.ne_nil_of_mem (mem_ownersAfter.2 ⟨.inr hadded, fun hin => ?_⟩)
            exact (mem_removedIds cfg o current principalIds (hearly.subset hin)).2 hid
        · push Not at hremoves
          obtain ⟨id, hid, hfails⟩ := hremoves
          refine List.ne_nil_of_mem (stays cfg o current principalIds hid (fun hin => ?_) hmade)
          exact hfails (List.mem_filter.1 hin).2
      · push Not at hapart
        obtain ⟨id, hid, hcurrent⟩ := hapart
        refine List.ne_nil_of_mem (stays cfg o current principalIds hcurrent (fun hin => ?_) hmade)
        exact (mem_removedIds cfg o current principalIds hin).2 hid

/-! ### What the result reports -/

/-- A tried change took effect, or is named. -/
theorem names_of_not_succeeds {action : Action} {ids : List Text} (hid : id ∈ ids)
    (hbad : ¬ succeeds o action id = true) :
    ∃ f ∈ ids.filterMap (failureOf cfg o action), f.names (action, id) ∧
      failureOf cfg o action id = some f := by
  cases hfailure : failureOf cfg o action id with
  | none => exact absurd ((failureOf_eq_none cfg o action).1 hfailure) hbad
  | some f =>
    refine ⟨f, List.mem_filterMap.2 ⟨id, hid, hfailure⟩, ?_, rfl⟩
    unfold failureOf at hfailure
    split at hfailure
    · exact absurd hfailure (by simp)
    · obtain rfl := Option.some.inj hfailure
      exact ⟨rfl, rfl⟩

theorem names_of_fatal {action : Action} {ids : List Text} (h : ids.any (fatalAt cfg o action) = true) :
    ∃ id ∈ ids, ∃ f ∈ ids.filterMap (failureOf cfg o action),
      f.names (action, id) ∧ f.isReauthFatal = true := by
  obtain ⟨id, hid, hfatal⟩ := List.any_eq_true.1 h
  have hbad : ¬ succeeds o action id = true := by
    intro hgood
    simp [fatalAt, (failureOf_eq_none cfg o action).2 hgood] at hfatal
  obtain ⟨f, hf, hnames, hsome⟩ := names_of_not_succeeds cfg o hid hbad
  refine ⟨id, hid, f, hf, hnames, ?_⟩
  simpa [fatalAt, hsome] using hfatal

/-- What was tried is the start of what was planned, and ends on a dead session if it is not all. -/
theorem planned_eq :
    ∃ rest, planned cfg current principalIds
        = ((triedAdds cfg o current principalIds).map (fun id => (Action.add, id)) ++
          (triedRemoves cfg o current principalIds).map (fun id => (Action.remove, id))) ++ rest ∧
      (rest ≠ [] → stopped cfg o current principalIds = true ∨
        (triedRemoves cfg o current principalIds).any (fatalAt cfg o .remove) = true) := by
  obtain ⟨laterAdds, hadds⟩ := tried_initial cfg o .add (toAdd cfg current principalIds)
  obtain ⟨laterRemoves, hremoves⟩ := tried_initial cfg o .remove (toRemove cfg current principalIds)
  cases hstop : stopped cfg o current principalIds with
  | true =>
    refine ⟨laterAdds.map (fun id => (Action.add, id)) ++
      (toRemove cfg current principalIds).map (fun id => (Action.remove, id)), ?_,
      fun _ => .inl rfl⟩
    unfold planned triedRemoves triedAdds
    rw [hstop, if_pos rfl]
    conv_lhs => rw [← hadds]
    simp
  | false =>
    have hall := triedAdds_of_not_stopped cfg o current principalIds hstop
    refine ⟨laterRemoves.map (fun id => (Action.remove, id)), ?_, fun hrest => .inr ?_⟩
    · unfold planned triedRemoves
      rw [hstop, if_neg Bool.false_ne_true, hall]
      conv_lhs => rw [← hremoves]
      simp
    · by_contra hlive
      have hlive := Bool.eq_false_iff.2 hlive
      unfold triedRemoves at hlive
      rw [hstop, if_neg Bool.false_ne_true] at hlive
      have hwhole := tried_eq_of_not_fatal cfg o .remove hlive
      have hnothing : laterRemoves = [] := by simpa [hwhole] using hremoves
      exact hrest (by rw [hnothing]; rfl)

theorem reports :
    Reports cfg current principalIds
      ⟨addedIds cfg o current principalIds, removedIds cfg o current principalIds,
        allFailures cfg o current principalIds⟩ (madeChanges cfg o current principalIds) where
  kept id hid hmem :=
    (mem_removedIds cfg o current principalIds
      (mem_madeChanges_remove cfg o current principalIds hmem)).2 hid
  added := by simp [madeChanges, List.filterMap_map]
  removed := by simp [madeChanges, List.filterMap_map]
  once := ⟨nodup_addedIds cfg o current principalIds, nodup_removedIds cfg o current principalIds⟩
  accounted := by
    obtain ⟨rest, hplanned, hrest⟩ := planned_eq cfg o current principalIds
    refine ⟨_, rest, hplanned, ?_, ?_⟩
    · intro c hc
      rcases List.mem_append.1 hc with hc | hc
      · obtain ⟨id, hid, rfl⟩ := List.mem_map.1 hc
        by_cases hgood : succeeds o .add id = true
        · left
          exact List.mem_append_left _ (List.mem_map.2 ⟨id, List.mem_filter.2 ⟨hid, hgood⟩, rfl⟩)
        · right
          obtain ⟨f, hf, hnames, -⟩ := names_of_not_succeeds cfg o hid hgood
          exact ⟨f, List.mem_append_left _ hf, hnames⟩
      · obtain ⟨id, hid, rfl⟩ := List.mem_map.1 hc
        by_cases hgood : succeeds o .remove id = true
        · left
          exact List.mem_append_right _ (List.mem_map.2 ⟨id, List.mem_filter.2 ⟨hid, hgood⟩, rfl⟩)
        · right
          obtain ⟨f, hf, hnames, -⟩ := names_of_not_succeeds cfg o hid hgood
          exact ⟨f, List.mem_append_right _ hf, hnames⟩
    · intro hne
      rcases hrest hne with hstop | hstop
      · obtain ⟨id, hid, f, hf, hnames, hfatal⟩ := names_of_fatal cfg o hstop
        exact ⟨_, List.mem_append_left _ (List.mem_map.2 ⟨id, hid, rfl⟩), f,
          List.mem_append_left _ hf, hnames, hfatal⟩
      · obtain ⟨id, hid, f, hf, hnames, hfatal⟩ := names_of_fatal cfg o hstop
        exact ⟨_, List.mem_append_right _ (List.mem_map.2 ⟨id, hid, rfl⟩), f,
          List.mem_append_right _ hf, hnames, hfatal⟩
  reached := by
    intro hnone id
    obtain ⟨rest, hplanned, hrest⟩ := planned_eq cfg o current principalIds
    have hgood : (∀ i ∈ triedAdds cfg o current principalIds, succeeds o .add i = true) ∧
        ∀ i ∈ triedRemoves cfg o current principalIds, succeeds o .remove i = true := by
      obtain ⟨hadds, hremoves⟩ := List.append_eq_nil_iff.1 hnone
      rw [List.filterMap_eq_nil_iff] at hadds hremoves
      exact ⟨fun i hi => (failureOf_eq_none ..).1 (hadds i hi),
        fun i hi => (failureOf_eq_none ..).1 (hremoves i hi)⟩
    have hall : rest = [] := by
      by_contra hne
      have hsome : ∃ f, f ∈ allFailures cfg o current principalIds := by
        rcases hrest hne with hstop | hstop
        · obtain ⟨-, -, f, hf, -⟩ := names_of_fatal cfg o hstop
          exact ⟨f, List.mem_append_left _ hf⟩
        · obtain ⟨-, -, f, hf, -⟩ := names_of_fatal cfg o hstop
          exact ⟨f, List.mem_append_right _ hf⟩
      obtain ⟨f, hf⟩ := hsome
      exact List.ne_nil_of_mem hf hnone
    have hmade : madeChanges cfg o current principalIds = planned cfg current principalIds := by
      rw [hplanned, hall, List.append_nil]
      unfold madeChanges addedIds removedIds
      rw [List.filter_eq_self.2 hgood.1, List.filter_eq_self.2 hgood.2]
    rw [hmade]
    unfold planned
    rw [mem_ownersAfter, mem_toAdd, mem_toRemove]
    tauto

/-! ## Replacing the owners -/

/-- Replacing the owners keeps the application owned and reports what it did. -/
def ReplacesOwners : Prop :=
  ∃ result, (outcome cfg o principalIds).1 = .ok result ∧
    NeverOrphaned current (outcome cfg o principalIds).2.changes ∧
    Reports cfg current principalIds result (outcome cfg o principalIds).2.changes

/-- Of every list of owners and of wanted ids, every order of the sets and every pattern of failures. -/
theorem replaces_owners_iff (hlist : o.list = .ok current) :
    ReplacesOwners cfg o current principalIds ↔ ¬ EveryAddFails cfg o current principalIds := by
  rw [← neverOrphaned_iff]
  unfold ReplacesOwners
  rw [outcome_eq cfg o current principalIds hlist]
  constructor
  · rintro ⟨result, -, howned, -⟩
    exact howned
  · intro howned
    exact ⟨_, rfl, howned, reports cfg o current principalIds⟩

end Promises

/-- Sets that keep the order of what was put in. -/
def inOrder : HashOrder := ⟨List.dedup, fun _ => .refl _⟩

def plainSetting : Setting := ⟨fun err => ⟨err.uiCode, []⟩, inOrder, inOrder⟩

/-- One owner; the adds of these ids are refused. -/
def refusing (ids : List Text) : Outcomes :=
  ⟨.ok ["u1".toList], fun action id => match action with
    | .add => if ids.contains id then .error (.forbidden []) else .ok ()
    | .remove => .ok ()⟩

/-- One of two successors is refused. -/
theorem replaces_owners_iff_one_refused :
    ReplacesOwners plainSetting (refusing ["u3".toList]) ["u1".toList] ["u2".toList, "u3".toList] ∧
      (outcome plainSetting (refusing ["u3".toList]) ["u2".toList, "u3".toList]).2.changes =
        [(.add, "u2".toList), (.remove, "u1".toList)] := by
  refine ⟨(replaces_owners_iff plainSetting _ _ _ rfl).2 ?_, by decide⟩
  rintro ⟨-, -, hfails, -⟩
  exact absurd (hfails "u2".toList (by decide)).1 (by decide)

/-- The refused successor leaves the application without an owner. -/
theorem not_always_owned :
    ¬ ∀ (cfg : Setting) (o : Outcomes) (current principalIds : List Text), principalIds ≠ [] →
      o.list = .ok current → ReplacesOwners cfg o current principalIds := by
  intro h
  obtain ⟨result, -, howned, -⟩ :=
    h plainSetting (refusing ["u2".toList]) ["u1".toList] ["u2".toList] (by decide) rfl
  rw [outcome_eq _ _ ["u1".toList] _ rfl] at howned
  have hfails : EveryAddFails plainSetting (refusing ["u2".toList]) ["u1".toList] ["u2".toList] :=
    ⟨by decide, by decide, by decide, by decide⟩
  exact (neverOrphaned_iff ..).1 howned hfails

end Owners
