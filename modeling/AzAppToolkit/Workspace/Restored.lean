import AzAppToolkit.Lib.Recency
import AzAppToolkit.Workspace.Confinement

set_option autoImplicit false

/-! # The repair of a parked snapshot

`sanitize_restored` makes a decoded snapshot satisfy what `open_item` maintains: one entry for an entity,
one for an id, and no more than the cap. It keeps the order of the dock, changes nothing the second time,
and loses an entity only to the cap or to a clash of ids. -/

namespace Workspace

open Session

/-! ## Entities and slots -/

def OpenItem.entity (it : OpenItem) : OpenItemKind × Text := (it.kind, it.entityId)

/-- What a slot of the dock is known by. -/
def OpenItem.slot (it : OpenItem) : (OpenItemKind × Text) × UInt64 := (it.entity, it.id)

theorem sameEntity_iff {a b : OpenItem} :
    (a.kind == b.kind && a.entityId == b.entityId) = true ↔ a.entity = b.entity := by
  rw [Bool.and_eq_true, beq_iff_eq, beq_iff_eq, OpenItem.entity, OpenItem.entity, Prod.mk.injEq]

/-- The stamp, as a number. -/
def OpenItem.stamp (it : OpenItem) : Nat := it.focusedAt.toNat

theorem lruPosition_eq (list : List OpenItem) : lruPosition list =
    list.findIdx? (fun it => list.all fun other => decide (it.stamp ≤ other.stamp)) := by
  unfold lruPosition
  congr 1

variable {list : List OpenItem}

/-- The item evicted is the first of those that were focused longest ago. -/
theorem split_of_lruPosition {pos : Nat} (h : lruPosition list = some pos) :
    ∃ a e b, list = a ++ e :: b ∧ a.length = pos ∧ (∀ y ∈ a, e.stamp < y.stamp) ∧
      ∀ y ∈ b, e.stamp ≤ y.stamp := by
  rw [lruPosition_eq] at h
  exact Recency.split_least h

theorem lruPosition_isSome (h : list ≠ []) : (lruPosition list).isSome := by
  obtain ⟨e, he, hleast⟩ := Recency.exists_least OpenItem.stamp h
  rw [lruPosition_eq, List.findIdx?_isSome, List.any_eq_true]
  exact ⟨e, he, List.all_eq_true.2 fun y hy => decide_eq_true (hleast y hy)⟩

/-! ## The first loop -/

/-- The entries that the first loop leaves. -/
def entries (list : List OpenItem) : List OpenItem × List UInt64 := list.foldl keepRestored ([], [])

theorem entries_snoc (list : List OpenItem) (item : OpenItem) :
    entries (list ++ [item]) = keepRestored (entries list) item := by
  unfold entries
  rw [List.foldl_append]
  rfl

theorem replaceFirst_slots (item : OpenItem) (list : List OpenItem) :
    (keepRestored.replaceFirst item list).map OpenItem.slot = list.map OpenItem.slot := by
  induction list with
  | nil => rfl
  | cons it list ih =>
    unfold keepRestored.replaceFirst
    split
    · next hsame =>
      have hentity := sameEntity_iff.1 hsame
      rw [List.map_cons, List.map_cons]
      congr 1
      split
      · exact Prod.ext hentity.symm rfl
      · rfl
    · rw [List.map_cons, List.map_cons, ih]

theorem mem_replaceFirst {item o : OpenItem} (h : o ∈ keepRestored.replaceFirst item list) :
    o ∈ list ∨ (o.entity = item.entity ∧ o.focusedAt = item.focusedAt) := by
  induction list with
  | nil => cases h
  | cons it list ih =>
    unfold keepRestored.replaceFirst at h
    split at h
    · rcases List.mem_cons.1 h with rfl | h
      · split
        · exact .inr ⟨rfl, rfl⟩
        · exact .inl List.mem_cons_self
      · exact .inl (List.mem_cons_of_mem it h)
    · rcases List.mem_cons.1 h with rfl | h
      · exact .inl List.mem_cons_self
      · exact (ih h).imp_left (List.mem_cons_of_mem it)

/-- What one entry of a snapshot does: it goes into the slot of its entity, clashes, or is added. -/
theorem keepRestored_cases (out : List OpenItem × List UInt64) (item : OpenItem) :
    (item.entity ∈ out.1.map OpenItem.entity ∧
      keepRestored out item = (keepRestored.replaceFirst item out.1, out.2)) ∨
    (item.entity ∉ out.1.map OpenItem.entity ∧ item.id ∈ out.2 ∧ keepRestored out item = out) ∨
    (item.entity ∉ out.1.map OpenItem.entity ∧ item.id ∉ out.2 ∧
      keepRestored out item = (out.1 ++ [item], out.2 ++ [item.id])) := by
  have hany : (out.1.any fun it => it.kind == item.kind && it.entityId == item.entityId) = true ↔
      item.entity ∈ out.1.map OpenItem.entity := by
    rw [List.any_eq_true, List.mem_map]
    simp only [sameEntity_iff]
  unfold keepRestored
  split
  · next h => exact .inl ⟨hany.1 h, rfl⟩
  · next h =>
    have hnew := mt hany.2 h
    split
    · next hid => exact .inr (.inl ⟨hnew, List.contains_iff_mem.1 hid, rfl⟩)
    · next hid => exact .inr (.inr ⟨hnew, fun hmem => hid (List.contains_iff_mem.2 hmem), rfl⟩)

/-- The ids and the entities of the entries so far. -/
structure Sound (out : List OpenItem × List UInt64) : Prop where
  ids : out.2 = out.1.map OpenItem.id
  distinctIds : (out.1.map OpenItem.id).Nodup
  distinctEntities : (out.1.map OpenItem.entity).Nodup

variable {out : List OpenItem × List UInt64}

theorem Sound.of_slots (h : Sound out)
    (hslots : list.map OpenItem.slot = out.1.map OpenItem.slot) : Sound (list, out.2) := by
  have hids : list.map OpenItem.id = out.1.map OpenItem.id := by
    have := congrArg (List.map Prod.snd) hslots
    rwa [List.map_map, List.map_map] at this
  have hentities : list.map OpenItem.entity = out.1.map OpenItem.entity := by
    have := congrArg (List.map Prod.fst) hslots
    rwa [List.map_map, List.map_map] at this
  exact ⟨h.ids.trans hids.symm, hids ▸ h.distinctIds, hentities ▸ h.distinctEntities⟩

theorem Sound.keepRestored (h : Sound out) (item : OpenItem) : Sound (keepRestored out item) := by
  obtain ⟨-, heq⟩ | ⟨-, -, heq⟩ | ⟨hentity, hid, heq⟩ := keepRestored_cases out item
  · rw [heq]
    exact h.of_slots (replaceFirst_slots item out.1)
  · rw [heq]
    exact h
  · rw [heq]
    rw [h.ids] at hid
    refine ⟨?_, ?_, ?_⟩
    · rw [List.map_append, ← h.ids]
      rfl
    · rw [List.map_append]
      exact List.nodup_append_comm.1 (List.nodup_cons.2 ⟨hid, h.distinctIds⟩)
    · rw [List.map_append]
      exact List.nodup_append_comm.1 (List.nodup_cons.2 ⟨hentity, h.distinctEntities⟩)

theorem sound_entries (list : List OpenItem) : Sound (entries list) := by
  induction list using List.reverseRecOn with
  | nil => exact ⟨rfl, List.nodup_nil, List.nodup_nil⟩
  | append_singleton list item ih =>
    rw [entries_snoc]
    exact ih.keepRestored item

/-- The slots are in the order of the snapshot. -/
theorem slots_entries (list : List OpenItem) :
    ((entries list).1.map OpenItem.slot).Sublist (list.map OpenItem.slot) := by
  induction list using List.reverseRecOn with
  | nil => exact List.Sublist.refl _
  | append_singleton list item ih =>
    rw [entries_snoc, List.map_append]
    obtain ⟨-, heq⟩ | ⟨-, -, heq⟩ | ⟨-, -, heq⟩ := keepRestored_cases (entries list) item
    · rw [heq, replaceFirst_slots]
      exact ih.trans (List.sublist_append_left _ _)
    · rw [heq]
      exact ih.trans (List.sublist_append_left _ _)
    · rw [heq, List.map_append]
      exact ih.append (List.Sublist.refl _)

/-- An entry has its entity and its stamp from one item of the snapshot. -/
theorem entry_of_item (list : List OpenItem) : ∀ o ∈ (entries list).1,
    ∃ it ∈ list, it.entity = o.entity ∧ it.focusedAt = o.focusedAt := by
  induction list using List.reverseRecOn with
  | nil => exact fun o ho => absurd ho List.not_mem_nil
  | append_singleton list item ih =>
    intro o ho
    rw [entries_snoc] at ho
    have hold : o ∈ (entries list).1 →
        ∃ it ∈ list ++ [item], it.entity = o.entity ∧ it.focusedAt = o.focusedAt := by
      intro hmem
      obtain ⟨it, hit, h⟩ := ih o hmem
      exact ⟨it, List.mem_append_left _ hit, h⟩
    have hnew : item ∈ list ++ [item] := by simp
    obtain ⟨-, heq⟩ | ⟨-, -, heq⟩ | ⟨-, -, heq⟩ := keepRestored_cases (entries list) item
    · rw [heq] at ho
      rcases mem_replaceFirst ho with ho | ⟨hentity, hstamp⟩
      · exact hold ho
      · exact ⟨item, hnew, hentity.symm, hstamp.symm⟩
    · rw [heq] at ho
      exact hold ho
    · rw [heq] at ho
      rcases List.mem_append.1 ho with ho | ho
      · exact hold ho
      · rw [List.mem_singleton.1 ho]
        exact ⟨item, hnew, rfl, rfl⟩

/-- An entity without an entry clashed each time: another entity had the id. -/
theorem clash_of_missing (list : List OpenItem) {k : OpenItemKind × Text}
    (h : k ∉ (entries list).1.map OpenItem.entity) :
    ∀ it ∈ list, it.entity = k → ∃ o ∈ list, o.entity ≠ k ∧ o.id = it.id := by
  induction list using List.reverseRecOn with
  | nil => exact fun it hit => absurd hit List.not_mem_nil
  | append_singleton list item ih =>
    rw [entries_snoc] at h
    have hbefore : k ∉ (entries list).1.map OpenItem.entity ∧
        (item.entity = k → item.id ∈ (entries list).2) := by
      obtain ⟨hmem, heq⟩ | ⟨-, hid, heq⟩ | ⟨-, -, heq⟩ := keepRestored_cases (entries list) item
      · rw [heq] at h
        have hentities := congrArg (List.map Prod.fst) (replaceFirst_slots item (entries list).1)
        rw [List.map_map, List.map_map] at hentities
        have hk : k ∉ (entries list).1.map OpenItem.entity := fun hk => h (hentities ▸ hk)
        exact ⟨hk, fun hitem => absurd (hitem ▸ hmem) hk⟩
      · rw [heq] at h
        exact ⟨h, fun _ => hid⟩
      · rw [heq, List.map_append, List.mem_append, not_or] at h
        exact ⟨h.1, fun hitem => absurd (by simp [hitem]) h.2⟩
    intro it hit hk
    rcases List.mem_append.1 hit with hit | hit
    · obtain ⟨o, ho, hclash⟩ := ih hbefore.1 it hit hk
      exact ⟨o, List.mem_append_left _ ho, hclash⟩
    · obtain rfl := List.mem_singleton.1 hit
      have hid := hbefore.2 hk
      rw [(sound_entries list).ids] at hid
      obtain ⟨o, ho, hoid⟩ := List.mem_map.1 hid
      obtain ⟨o', ho', hslot⟩ := List.mem_map.1
        ((slots_entries list).subset (List.mem_map_of_mem (f := OpenItem.slot) ho))
      obtain ⟨hentity, hid'⟩ := Prod.mk.inj hslot
      refine ⟨o', List.mem_append_left _ ho', fun hk' => ?_, hid'.trans hoid⟩
      exact hbefore.1 (List.mem_map.2 ⟨o, ho, hentity.symm.trans hk'⟩)

/-! ## The second loop -/

theorem dropOldest_sublist (n : Nat) (list : List OpenItem) : (dropOldest n list).Sublist list := by
  induction n generalizing list with
  | zero => exact List.Sublist.refl _
  | succ n ih =>
    unfold dropOldest
    split
    · split
      · exact (ih _).trans (List.eraseIdx_sublist _ _)
      · exact List.Sublist.refl _
    · exact List.Sublist.refl _

theorem dropOldest_of_le {n : Nat} (h : list.length ≤ maxOpenItems) : dropOldest n list = list := by
  cases n with
  | zero => rfl
  | succ n =>
    unfold dropOldest
    rw [if_neg (Nat.not_lt.2 h)]

/-- One round over the cap: the least recently focused goes. -/
theorem dropOldest_succ {n : Nat} (h : maxOpenItems < list.length) :
    ∃ a e b, list = a ++ e :: b ∧ (∀ y ∈ list, e.stamp ≤ y.stamp) ∧
      dropOldest (n + 1) list = dropOldest n (a ++ b) := by
  have hne : list ≠ [] := by
    rintro rfl
    exact absurd h (Nat.not_lt.2 (Nat.zero_le _))
  obtain ⟨pos, hpos⟩ := Option.isSome_iff_exists.1 (lruPosition_isSome hne)
  obtain ⟨a, e, b, hlist, hlen, hbefore, hafter⟩ := split_of_lruPosition hpos
  refine ⟨a, e, b, hlist, fun y hy => ?_, ?_⟩
  · rw [hlist] at hy
    rcases List.mem_append.1 hy with hy | hy
    · exact (hbefore y hy).le
    · rcases List.mem_cons.1 hy with rfl | hy
      · exact le_rfl
      · exact hafter y hy
  · rw [dropOldest, if_pos h]
    simp only [hpos]
    rw [hlist, ← hlen, List.eraseIdx_append_of_length_le le_rfl, Nat.sub_self, List.eraseIdx_cons_zero]

theorem dropOldest_length {n : Nat} (h : list.length ≤ n + maxOpenItems) :
    (dropOldest n list).length = min list.length maxOpenItems := by
  induction n generalizing list with
  | zero =>
    rw [Nat.zero_add] at h
    rw [dropOldest_of_le h, min_eq_left h]
  | succ n ih =>
    by_cases hle : list.length ≤ maxOpenItems
    · rw [dropOldest_of_le hle, min_eq_left hle]
    · obtain ⟨a, e, b, rfl, -, heq⟩ := dropOldest_succ (n := n) (Nat.lt_of_not_le hle)
      rw [List.length_append, List.length_cons] at h hle ⊢
      rw [heq, ih (by rw [List.length_append]; omega), List.length_append]
      omega

/-- What is dropped was focused no later than what stays. -/
theorem dropOldest_dropped {n : Nat} :
    ∀ e ∈ list, e ∈ dropOldest n list ∨
      (maxOpenItems < list.length ∧ ∀ o ∈ dropOldest n list, e.stamp ≤ o.stamp) := by
  induction n generalizing list with
  | zero => exact fun e he => .inl he
  | succ n ih =>
    by_cases hle : list.length ≤ maxOpenItems
    · rw [dropOldest_of_le hle]
      exact fun e he => .inl he
    · have hlt := Nat.lt_of_not_le hle
      obtain ⟨a, x, b, rfl, hleast, heq⟩ := dropOldest_succ (n := n) hlt
      have hsub : (dropOldest n (a ++ b)).Sublist (a ++ x :: b) :=
        (dropOldest_sublist n _).trans ((List.sublist_cons_self x b).append_left a)
      rw [heq]
      intro e he
      rcases List.mem_append.1 he with hea | hex
      · exact (ih e (List.mem_append_left b hea)).imp_right fun h => ⟨hlt, h.2⟩
      · rcases List.mem_cons.1 hex with rfl | heb
        · exact .inr ⟨hlt, fun o ho => hleast o (hsub.subset ho)⟩
        · exact (ih e (List.mem_append_right a heb)).imp_right fun h => ⟨hlt, h.2⟩

/-! ## What the repair keeps -/

theorem sanitizeRestored_eq (list : List OpenItem) :
    sanitizeRestored list = dropOldest (entries list).1.length (entries list).1 := rfl

theorem sanitizeRestored_sublist (list : List OpenItem) :
    (sanitizeRestored list).Sublist (entries list).1 := dropOldest_sublist _ _

theorem sanitizeRestored_length (list : List OpenItem) :
    (sanitizeRestored list).length = min (entries list).1.length maxOpenItems :=
  dropOldest_length (Nat.le_add_right _ _)

theorem sanitizeRestored_ids (list : List OpenItem) : ((sanitizeRestored list).map OpenItem.id).Nodup :=
  (sound_entries list).distinctIds.sublist ((sanitizeRestored_sublist list).map _)

theorem sanitizeRestored_entities (list : List OpenItem) :
    ((sanitizeRestored list).map OpenItem.entity).Nodup :=
  (sound_entries list).distinctEntities.sublist ((sanitizeRestored_sublist list).map _)

/-- A list of distinct ids and entities is left as it is by the first loop. -/
theorem foldl_keepRestored (list : List OpenItem) (hout : Sound out)
    (hids : ((out.1 ++ list).map OpenItem.id).Nodup)
    (hentities : ((out.1 ++ list).map OpenItem.entity).Nodup) :
    (list.foldl keepRestored out).1 = out.1 ++ list := by
  induction list generalizing out with
  | nil => simp
  | cons item list ih =>
    have hid : item.id ∉ out.2 := by
      rw [hout.ids]
      rw [List.map_append] at hids
      exact fun h => (List.nodup_append.1 hids).2.2 _ h _ (by simp) rfl
    have hentity : item.entity ∉ out.1.map OpenItem.entity := by
      rw [List.map_append] at hentities
      exact fun h => (List.nodup_append.1 hentities).2.2 _ h _ (by simp) rfl
    have hsound := hout.keepRestored item
    rw [List.foldl_cons]
    obtain ⟨hmem, -⟩ | ⟨-, hmem, -⟩ | ⟨-, -, heq⟩ := keepRestored_cases out item
    · exact absurd hmem hentity
    · exact absurd hmem hid
    · rw [heq] at hsound ⊢
      rw [ih hsound (by simpa using hids) (by simpa using hentities)]
      simp

theorem entries_of_distinct (hids : (list.map OpenItem.id).Nodup)
    (hentities : (list.map OpenItem.entity).Nodup) : (entries list).1 = list := by
  have hnil : Sound ([], []) := ⟨rfl, List.nodup_nil, List.nodup_nil⟩
  have h := foldl_keepRestored list hnil (by simpa using hids) (by simpa using hentities)
  simpa [entries] using h

/-- The repair of a repaired snapshot changes nothing. -/
theorem sanitizeRestored_idempotent (list : List OpenItem) :
    sanitizeRestored (sanitizeRestored list) = sanitizeRestored list := by
  have hentries := entries_of_distinct (sanitizeRestored_ids list) (sanitizeRestored_entities list)
  have hlen : (sanitizeRestored list).length ≤ maxOpenItems := by
    rw [sanitizeRestored_length]
    exact min_le_right _ _
  rw [sanitizeRestored_eq (sanitizeRestored list), hentries]
  exact dropOldest_of_le hlen

/-- The slots that are kept are in the order of the dock. -/
theorem sanitizeRestored_order (list : List OpenItem) :
    ((sanitizeRestored list).map OpenItem.slot).Sublist (list.map OpenItem.slot) :=
  ((sanitizeRestored_sublist list).map _).trans (slots_entries list)

/-- The entity was dropped by the cap: the dock is full of items focused no earlier than one of its. -/
def LostToCap (list : List OpenItem) (k : OpenItemKind × Text) : Prop :=
  (sanitizeRestored list).length = maxOpenItems ∧
    ∃ it ∈ list, it.entity = k ∧ ∀ o ∈ sanitizeRestored list, it.focusedAt ≤ o.focusedAt

/-- The ids of the entity were another's, each time. -/
def LostToClash (list : List OpenItem) (k : OpenItemKind × Text) : Prop :=
  ∀ it ∈ list, it.entity = k → ∃ o ∈ list, o.entity ≠ k ∧ o.id = it.id

/-- An entity of the snapshot is kept, or it is lost to the cap or to a clash of ids. -/
theorem sanitizeRestored_loses (list : List OpenItem) : ∀ it ∈ list,
    it.entity ∈ (sanitizeRestored list).map OpenItem.entity ∨
      LostToCap list it.entity ∨ LostToClash list it.entity := by
  intro it hit
  by_cases hk : it.entity ∈ (entries list).1.map OpenItem.entity
  · obtain ⟨e, he, hentity⟩ := List.mem_map.1 hk
    rcases dropOldest_dropped (n := (entries list).1.length) e he with hkept | ⟨hfull, holdest⟩
    · exact .inl (List.mem_map.2 ⟨e, hkept, hentity⟩)
    · refine .inr (.inl ⟨?_, ?_⟩)
      · rw [sanitizeRestored_length]
        exact min_eq_right hfull.le
      · obtain ⟨o, ho, hoe, hof⟩ := entry_of_item list e he
        refine ⟨o, ho, hoe.trans hentity, fun y hy => ?_⟩
        rw [hof]
        exact UInt64.le_iff_toNat_le.2 (holdest y hy)
  · exact .inr (.inr (clash_of_missing list hk))

end Workspace
