import AzAppToolkit.Workspace.Restored

set_option autoImplicit false

/-! # The dock over a run

The dock holds a bounded number of items of distinct ids and entities, shows at most two of them, and
evicts the item that was opened or focused longest ago. It keeps this from any parked snapshot on, as long
as the clock that mints the ids and stamps the focus does not wrap.

When an item was last used is kept beside the session, by the number of the event, and before the run by
the stamp of the snapshot. -/

namespace Workspace

open Session
open Recency (Aged)

/-! ## The invariant -/

/-- What the dock and the workspace hold. -/
structure Dock (items : List OpenItem) (shown : List UInt64) : Prop where
  capped : items.length ≤ maxOpenItems
  ids : (items.map OpenItem.id).Nodup
  entities : (items.map OpenItem.entity).Nodup
  shownOpen : ∀ id ∈ shown, id ∈ items.map OpenItem.id
  shownDistinct : shown.Nodup
  shownTwo : shown.length ≤ maxShown

/-- When an item was last opened or focused: before the run, by its stamp, or at an event of the run. -/
abbrev Use := Nat ×ₗ Nat

def restoredUse (stamp : Nat) : Use := toLex (0, stamp)

def liveUse (time : Nat) : Use := toLex (1, time)

/-- The clock is past every id and stamp, the uses are in the past, and the stamps tell their order. -/
structure Clocked (seq time : Nat) (used : UInt64 → Use) (items : List OpenItem) : Prop where
  below : ∀ it ∈ items, it.id.toNat < seq ∧ it.stamp < seq
  past : ∀ it ∈ items, used it.id < liveUse time
  aged : Aged OpenItem.id OpenItem.stamp used items

structure Good (time : Nat) (used : UInt64 → Use) (s : Session) : Prop where
  dock : Dock s.openItems s.shownItems
  clocked : Clocked s.openSeq.toNat time used s.openItems

section Lists

variable {items items' : List OpenItem} {shown shown' : List UInt64} {seq seq' time time' : Nat}
  {used : UInt64 → Use}

theorem liveUse_lt {a b : Nat} : liveUse a < liveUse b ↔ a < b := by simp [liveUse, Prod.Lex.lt_iff]

theorem restoredUse_lt {a b : Nat} : restoredUse a < restoredUse b ↔ a < b := by
  simp [restoredUse, Prod.Lex.lt_iff]

theorem restoredUse_lt_liveUse (a b : Nat) : restoredUse a < liveUse b := by
  simp [restoredUse, liveUse, Prod.Lex.lt_iff]

/-- Items are closed, and panes with them. -/
theorem Dock.sublist (h : Dock items shown) (hitems : items'.Sublist items)
    (hshown : shown'.Sublist shown) (hopen : ∀ id ∈ shown', id ∈ items'.map OpenItem.id) :
    Dock items' shown' where
  capped := hitems.length_le.trans h.capped
  ids := h.ids.sublist (hitems.map _)
  entities := h.entities.sublist (hitems.map _)
  shownOpen := hopen
  shownDistinct := h.shownDistinct.sublist hshown
  shownTwo := hshown.length_le.trans h.shownTwo

/-- The items change, but not what they are known by. -/
theorem Dock.of_slots (h : Dock items shown)
    (hslots : items'.map OpenItem.slot = items.map OpenItem.slot) : Dock items' shown := by
  have hids : items'.map OpenItem.id = items.map OpenItem.id := by
    have := congrArg (List.map Prod.snd) hslots
    rwa [List.map_map, List.map_map] at this
  have hentities : items'.map OpenItem.entity = items.map OpenItem.entity := by
    have := congrArg (List.map Prod.fst) hslots
    rwa [List.map_map, List.map_map] at this
  have hlen : items'.length = items.length := by
    have := congrArg List.length hslots
    rwa [List.length_map, List.length_map] at this
  refine ⟨hlen ▸ h.capped, hids ▸ h.ids, hentities ▸ h.entities, ?_, h.shownDistinct, h.shownTwo⟩
  rw [hids]
  exact h.shownOpen

theorem Dock.showItem (h : Dock items shown) {id : UInt64} (hid : id ∈ items.map OpenItem.id)
    (split : Bool) : Dock items (showItem id split shown) := by
  have hwith : ∀ panes : List UInt64, panes.Nodup → (∀ p ∈ panes, p ∈ items.map OpenItem.id) →
      panes.length ≤ maxShown → Dock items panes :=
    fun panes hdistinct hopen htwo => ⟨h.capped, h.ids, h.entities, hopen, hdistinct, htwo⟩
  unfold Session.showItem
  split
  · -- the pane is put beside the others, and the first ones go
    have hpanes : ∀ panes : List UInt64, panes.Nodup → (∀ p ∈ panes, p ∈ items.map OpenItem.id) →
        Dock items (panes.drop (panes.length - maxShown)) := by
      intro panes hdistinct hopen
      refine hwith _ (hdistinct.sublist (List.drop_sublist _ _))
        (fun p hp => hopen p (List.mem_of_mem_drop hp)) ?_
      rw [List.length_drop]
      omega
    dsimp only
    split
    · exact hpanes shown h.shownDistinct h.shownOpen
    · next hnew =>
      have hnew : id ∉ shown := fun hmem => hnew (List.contains_iff_mem.2 hmem)
      refine hpanes (shown ++ [id]) ?_ fun p hp => ?_
      · exact List.nodup_append_comm.1 (List.nodup_cons.2 ⟨hnew, h.shownDistinct⟩)
      · rcases List.mem_append.1 hp with hp | hp
        · exact h.shownOpen p hp
        · rw [List.mem_singleton.1 hp]
          exact hid
  · refine hwith [id] (List.nodup_singleton id) (fun p hp => ?_) (Nat.le_succ 1)
    rw [List.mem_singleton.1 hp]
    exact hid

theorem Clocked.sublist (h : Clocked seq time used items) (hsub : items'.Sublist items) :
    Clocked seq time used items' where
  below it hit := h.below it (hsub.subset hit)
  past it hit := h.past it (hsub.subset hit)
  aged := h.aged.sublist hsub

theorem Clocked.later (h : Clocked seq time used items) (hseq : seq ≤ seq') (htime : time ≤ time') :
    Clocked seq' time' used items where
  below it hit := (h.below it hit).imp (fun h => h.trans_le hseq) fun h => h.trans_le hseq
  past it hit := (h.past it hit).trans_le (by
    rcases htime.lt_or_eq with hlt | rfl
    · exact (liveUse_lt.2 hlt).le
    · exact le_rfl)
  aged := h.aged

theorem pairwise_ids (h : (items.map OpenItem.id).Nodup) :
    items.Pairwise fun x y => x.id ≠ y.id := List.pairwise_map.1 h

/-- Where the ids are distinct, the change of the first item of an id is the change of all of them. -/
theorem changeFirst_eq_map (h : (items.map OpenItem.id).Nodup) (id : UInt64) (f : OpenItem → OpenItem) :
    changeFirst id f items = items.map fun it => if it.id = id then f it else it := by
  induction items with
  | nil => rfl
  | cons it items ih =>
    rw [List.map_cons, List.nodup_cons] at h
    unfold changeFirst
    rw [List.map_cons]
    split
    · next hid =>
      have hrest : (items.map fun it => if it.id = id then f it else it) = items := by
        conv_rhs => rw [← List.map_id items]
        refine List.map_congr_left fun o ho => if_neg fun hoid => h.1 ?_
        rw [hid, ← hoid]
        exact List.mem_map_of_mem ho
      rw [hrest]
    · rw [ih h.2]

theorem changeFirst_slots {f : OpenItem → OpenItem} (hf : ∀ it, (f it).slot = it.slot) (id : UInt64)
    (items : List OpenItem) :
    (changeFirst id f items).map OpenItem.slot = items.map OpenItem.slot := by
  induction items with
  | nil => rfl
  | cons it items ih =>
    unfold changeFirst
    split
    · rw [List.map_cons, List.map_cons, hf]
    · rw [List.map_cons, List.map_cons, ih]

/-! ## A title and a focus -/

theorem Clocked.titled (h : Clocked seq time used items) (hids : (items.map OpenItem.id).Nodup)
    (id : UInt64) (title : Text) :
    Clocked seq time used (changeFirst id (fun it => { it with title := title }) items) := by
  rw [changeFirst_eq_map hids]
  have hsame : ∀ it : OpenItem, (if it.id = id then { it with title := title } else it).id = it.id ∧
      (if it.id = id then { it with title := title } else it).stamp = it.stamp := by
    intro it
    split <;> exact ⟨rfl, rfl⟩
  refine ⟨fun it hit => ?_, fun it hit => ?_, h.aged.map (fun it => (hsame it).1) fun it => (hsame it).2⟩
  · obtain ⟨o, ho, rfl⟩ := List.mem_map.1 hit
    rw [(hsame o).1, (hsame o).2]
    exact h.below o ho
  · obtain ⟨o, ho, rfl⟩ := List.mem_map.1 hit
    rw [(hsame o).1]
    exact h.past o ho

/-- An item is focused at the next tick of the clock. -/
theorem Clocked.stamped (h : Clocked seq time used items) (hids : (items.map OpenItem.id).Nodup)
    (id now : UInt64) (hnow : now.toNat = seq) :
    Clocked (seq + 1) (time + 1) (Function.update used id (liveUse time))
      (changeFirst id (fun it => { it with focusedAt := now }) items) := by
  rw [changeFirst_eq_map hids]
  have hlater := h.later (Nat.le_succ seq) (Nat.le_succ time)
  refine ⟨fun it hit => ?_, fun it hit => ?_, ?_⟩
  · obtain ⟨o, ho, rfl⟩ := List.mem_map.1 hit
    have hbelow := hlater.below o ho
    split
    · exact ⟨hbelow.1, hnow.le.trans_lt (Nat.lt_succ_self seq)⟩
    · exact hbelow
  · obtain ⟨o, ho, rfl⟩ := List.mem_map.1 hit
    have hid : (if o.id = id then { o with focusedAt := now } else o).id = o.id := by split <;> rfl
    rw [hid]
    by_cases hoid : o.id = id
    · rw [hoid, Function.update_self]
      exact liveUse_lt.2 (Nat.lt_succ_self time)
    · rw [Function.update_of_ne hoid]
      exact hlater.past o ho
  · have hbelow : ∀ it ∈ items, it.stamp < seq := fun it hit => (h.below it hit).2
    exact h.aged.stamped (pairwise_ids hids) hbelow (fun it hit => h.past it hit) (fun _ => rfl)
      fun _ => hnow

theorem mostRecent_eq (items : List OpenItem) : mostRecent items =
    items.reverse.find? (fun it => items.all fun other => decide (other.stamp ≤ it.stamp)) := rfl

/-- The item focused last needs no new stamp. -/
theorem Clocked.renewed (h : Clocked seq time used items) (hids : (items.map OpenItem.id).Nodup)
    {id : UInt64} (hrecent : (mostRecent items).map OpenItem.id = some id) :
    Clocked seq (time + 1) (Function.update used id (liveUse time)) items := by
  obtain ⟨x, hx, rfl⟩ := Option.map_eq_some_iff.1 hrecent
  rw [mostRecent_eq] at hx
  obtain ⟨a, b, rfl, hbefore, hafter⟩ := Recency.split_greatest hx
  have hlater := h.later le_rfl (Nat.le_succ time)
  refine ⟨hlater.below, fun it hit => ?_, ?_⟩
  · by_cases hid : it.id = x.id
    · rw [hid, Function.update_self]
      exact liveUse_lt.2 (Nat.lt_succ_self time)
    · rw [Function.update_of_ne hid]
      exact hlater.past it hit
  · exact h.aged.renewed (pairwise_ids hids) hbefore hafter h.past

/-- The title of an item does not count for which is the most recent. -/
theorem mostRecent_titled (hids : (items.map OpenItem.id).Nodup) (id : UInt64) (title : Text) :
    (mostRecent (changeFirst id (fun it => { it with title := title }) items)).map OpenItem.id =
      (mostRecent items).map OpenItem.id := by
  rw [changeFirst_eq_map hids]
  generalize hf : (fun it : OpenItem => if it.id = id then { it with title := title } else it) = f
  have hsame : ∀ it, (f it).id = it.id ∧ (f it).stamp = it.stamp := by
    intro it
    rw [← hf]
    dsimp only
    split <;> exact ⟨rfl, rfl⟩
  rw [mostRecent_eq, mostRecent_eq, ← List.map_reverse, List.find?_map, Option.map_map]
  have hpred : ((fun it => (items.map f).all fun other => decide (other.stamp ≤ it.stamp)) ∘ f) =
      fun it => items.all fun other => decide (other.stamp ≤ it.stamp) := by
    funext it
    simp only [Function.comp_def, List.all_map, (hsame _).2]
  have hid : OpenItem.id ∘ f = OpenItem.id := by
    funext it
    exact (hsame it).1
  rw [hpred, hid]

/-! ## A push -/

/-- Pushing the newest item leaves it at the end, and takes away at most the one used longest ago. -/
theorem pushItem_spec {item : OpenItem} (hcap : items.length ≤ maxOpenItems)
    (hnew : ∀ y ∈ items, y.stamp < item.stamp) :
    ∃ rest, (pushItem item items).1 = rest ++ [item] ∧ rest.Sublist items ∧
      (rest ++ [item]).length ≤ maxOpenItems ∧
      (rest = items ∨ ∃ a e b, items = a ++ e :: b ∧ rest = a ++ b ∧
        (∀ y ∈ a, e.stamp < y.stamp) ∧ ∀ y ∈ b, e.stamp ≤ y.stamp) := by
  unfold pushItem
  dsimp only
  split
  · next hfull =>
    rw [List.length_append, List.length_singleton] at hfull
    obtain ⟨pos, hpos⟩ := Option.isSome_iff_exists.1
      (lruPosition_isSome (List.append_ne_nil_of_right_ne_nil items (List.cons_ne_nil item [])))
    obtain ⟨a, e, b, hlist, hlen, hbefore, hafter⟩ := split_of_lruPosition hpos
    rcases List.eq_nil_or_concat b with rfl | ⟨b, last, rfl⟩
    · -- the newest item is not the one used longest ago
      obtain ⟨rfl, heq⟩ := List.append_inj' hlist rfl
      obtain rfl : item = e := by simpa using heq
      have hone : 1 ≤ maxOpenItems := by decide
      obtain ⟨y, hy⟩ := List.exists_mem_of_length_pos (by omega : 0 < items.length)
      exact absurd (hnew y hy) (hbefore y hy).le.not_gt
    · have hsplit : items ++ [item] = (a ++ e :: b) ++ [last] := by
        rw [hlist]
        simp
      obtain ⟨rfl, heq⟩ := List.append_inj' hsplit rfl
      obtain rfl : item = last := by simpa using heq
      refine ⟨a ++ b, ?_, (List.sublist_cons_self e b).append_left a, ?_, .inr ⟨a, e, b, rfl, rfl,
        hbefore, fun y hy => hafter y (by simp [hy])⟩⟩
      · rw [hpos]
        dsimp only
        rw [hlist, ← hlen, List.eraseIdx_append_of_length_le le_rfl, Nat.sub_self,
          List.eraseIdx_cons_zero]
        simp
      · simp only [List.length_append, List.length_cons, List.length_nil] at hcap ⊢
        omega
  · next hroom => exact ⟨items, rfl, List.Sublist.refl _, Nat.le_of_not_lt hroom, .inl rfl⟩

/-- The newest item, at the end of the list, is the most recent. -/
theorem mostRecent_snoc {rest : List OpenItem} {item : OpenItem}
    (hnew : ∀ y ∈ rest, y.stamp < item.stamp) : mostRecent (rest ++ [item]) = some item := by
  rw [mostRecent_eq, List.reverse_append, List.reverse_singleton, List.singleton_append,
    List.find?_cons_of_pos]
  refine List.all_eq_true.2 fun y hy => decide_eq_true ?_
  rcases List.mem_append.1 hy with hy | hy
  · exact (hnew y hy).le
  · rw [List.mem_singleton.1 hy]

/-- What an item was opened by is no one else's, and it was opened now. -/
theorem Clocked.opened (h : Clocked seq time used items) {rest : List OpenItem} {item : OpenItem}
    (hrest : rest.Sublist items) (hid : item.id.toNat = seq) (hstamp : item.stamp = seq) :
    Clocked (seq + 1) (time + 1) (Function.update used item.id (liveUse time)) (rest ++ [item]) := by
  have hlater := (h.sublist hrest).later (Nat.le_succ seq) (Nat.le_succ time)
  have hfresh : ∀ y ∈ rest, y.id ≠ item.id := by
    intro y hy heq
    have := (h.below y (hrest.subset hy)).1
    rw [heq, hid] at this
    exact absurd this (lt_irrefl seq)
  have hused : ∀ y ∈ rest, Function.update used item.id (liveUse time) y.id = used y.id :=
    fun y hy => Function.update_of_ne (hfresh y hy) _ _
  refine ⟨fun it hit => ?_, fun it hit => ?_, ?_⟩
  · rcases List.mem_append.1 hit with hit | hit
    · exact hlater.below it hit
    · rw [List.mem_singleton.1 hit, hid, hstamp]
      exact ⟨Nat.lt_succ_self seq, Nat.lt_succ_self seq⟩
  · rcases List.mem_append.1 hit with hit | hit
    · rw [hused it hit]
      exact hlater.past it hit
    · rw [List.mem_singleton.1 hit, Function.update_self]
      exact liveUse_lt.2 (Nat.lt_succ_self time)
  · refine (Aged.congr (h.sublist hrest).aged hused).snoc (fun y hy => ?_) fun y hy => ?_
    · rw [hstamp]
      exact (h.below y (hrest.subset hy)).2
    · rw [hused y hy, Function.update_self]
      exact h.past y (hrest.subset hy)

end Lists

/-! ## The operations -/

/-- The last tick before the clock wraps. -/
def lastTick : UInt64 := 18446744073709551615

theorem toNat_tick {n : UInt64} (h : n ≠ lastTick) : (n + 1).toNat = n.toNat + 1 := by
  have hn : n.toNat ≠ 18446744073709551615 := fun heq => h (UInt64.toNat_inj.1 heq)
  have hlt := n.toNat_lt
  rw [UInt64.toNat_add, UInt64.toNat_one]
  omega

/-- The item is not the one focused last, so its focus takes a tick of the clock. -/
def Stale (s : Session) (id : UInt64) : Prop := (mostRecent s.openItems).map OpenItem.id ≠ some id

section Operations

variable {s : Session} {time : Nat} {used : UInt64 → Use}

@[simp] theorem shownItems_updateOpenItems (saved : Bool) (f : List OpenItem → List OpenItem)
    (s : Session) : (s.updateOpenItems saved f).shownItems = s.shownItems := by
  unfold Session.updateOpenItems
  dsimp only
  split
  · split <;> rfl
  · rfl

@[simp] theorem openSeq_updateOpenItems (saved : Bool) (f : List OpenItem → List OpenItem)
    (s : Session) : (s.updateOpenItems saved f).openSeq = s.openSeq := by
  unfold Session.updateOpenItems
  dsimp only
  split
  · split <;> rfl
  · rfl

theorem mem_ids_of_isOpen {kind : OpenItemKind} {entityId : Text} {id : UInt64}
    (h : s.isOpen kind entityId = some id) : id ∈ s.openItems.map OpenItem.id := by
  obtain ⟨it, hit, rfl⟩ := Option.map_eq_some_iff.1 h
  exact List.mem_map_of_mem (List.mem_of_find?_eq_some hit)

theorem entity_new_of_isOpen {kind : OpenItemKind} {entityId : Text} (h : s.isOpen kind entityId = none) :
    (kind, entityId) ∉ s.openItems.map OpenItem.entity := by
  intro hmem
  obtain ⟨it, hit, hentity⟩ := List.mem_map.1 hmem
  have hnone := List.find?_eq_none.1 (Option.map_eq_none_iff.1 h) it hit
  obtain ⟨hkind, hid⟩ := Prod.mk.inj hentity
  exact hnone (by simp [hkind, hid])

/-- An open item is focused. -/
theorem Good.focusItem (h : Good time used s) {id : UInt64} (hid : id ∈ s.openItems.map OpenItem.id)
    (hclock : Stale s id → s.openSeq ≠ lastTick) (saved split : Bool) :
    Good (time + 1) (Function.update used id (liveUse time)) (s.focusItem saved id split) ∧
      (s.focusItem saved id split).openItems.map OpenItem.slot = s.openItems.map OpenItem.slot ∧
      (s.focusItem saved id split).shownItems = showItem id split s.shownItems := by
  unfold Session.focusItem
  dsimp only
  split
  · next hstale =>
    have htick := toNat_tick (hclock (by simpa [Stale] using hstale))
    have hslots := changeFirst_slots (f := fun it => { it with focusedAt := s.openSeq })
      (fun _ => rfl) id s.openItems
    refine ⟨⟨?_, ?_⟩, ?_, ?_⟩
    · simp only [openItems_updateOpenItems, shownItems_updateOpenItems]
      have hids := congrArg (List.map Prod.snd) hslots
      rw [List.map_map, List.map_map] at hids
      exact (h.dock.of_slots hslots).showItem (hids ▸ hid) split
    · simp only [openItems_updateOpenItems, openSeq_updateOpenItems]
      have hstamped := h.clocked.stamped h.dock.ids id s.openSeq rfl
      rw [← htick] at hstamped
      exact hstamped
    · simp only [openItems_updateOpenItems]
      exact hslots
    · simp only [shownItems_updateOpenItems]
      rfl
  · next hrecent =>
    have hrecent : (mostRecent s.openItems).map OpenItem.id = some id := by simpa using hrecent
    exact ⟨⟨h.dock.showItem hid split, h.clocked.renewed h.dock.ids hrecent⟩, rfl, rfl⟩

theorem Good.setOpenItemTitle (h : Good time used s) (saved : Bool) (id : UInt64) (title : Text) :
    Good time used (s.setOpenItemTitle saved id title) ∧
      (s.setOpenItemTitle saved id title).openItems.map OpenItem.slot = s.openItems.map OpenItem.slot ∧
      (s.setOpenItemTitle saved id title).openSeq = s.openSeq ∧
      ∀ i, Stale (s.setOpenItemTitle saved id title) i ↔ Stale s i := by
  unfold Session.setOpenItemTitle
  split
  · have hslots := changeFirst_slots (f := fun it => { it with title := title })
      (fun _ => rfl) id s.openItems
    refine ⟨⟨?_, ?_⟩, ?_, ?_, fun i => ?_⟩
    · simp only [openItems_updateOpenItems, shownItems_updateOpenItems]
      exact h.dock.of_slots hslots
    · simp only [openItems_updateOpenItems, openSeq_updateOpenItems]
      exact h.clocked.titled h.dock.ids id title
    · simp only [openItems_updateOpenItems]
      exact hslots
    · exact openSeq_updateOpenItems _ _ _
    · unfold Stale
      rw [openItems_updateOpenItems, mostRecent_titled h.dock.ids]
  · exact ⟨h, rfl, rfl, fun _ => Iff.rfl⟩

theorem offerBack_frame (evicted : Option OpenItem) (s : Session) :
    (s.offerBack evicted).openItems = s.openItems ∧ (s.offerBack evicted).openSeq = s.openSeq := by
  cases evicted with
  | none => exact ⟨rfl, rfl⟩
  | some item =>
    have hpush : ∀ (t : Session) kind message label action key,
        (t.push kind message label action key).2.openItems = t.openItems ∧
          (t.push kind message label action key).2.openSeq = t.openSeq := by
      intro t kind message label action key
      unfold Session.push
      dsimp only
      split <;> exact ⟨rfl, rfl⟩
    exact hpush _ _ _ _ _ _

/-- An entity is opened that was not open: the item is minted at the next tick. -/
theorem openItem_new {kind : OpenItemKind} {entityId : Text} (h : Good time used s)
    (hnew : s.isOpen kind entityId = none) (saved : Nat → Bool) (openedIn : Option Text) (title : Text) :
    let item : OpenItem := ⟨s.openSeq, kind, entityId, title, s.openSeq, openedIn⟩
    let t := (s.openItem saved openedIn kind entityId title).2
    t.openItems = (pushItem item s.openItems).1 ∧ t.shownItems = [s.openSeq] ∧
      t.openSeq = s.openSeq + 1 := by
  intro item t
  have hbelow : ∀ y ∈ s.openItems, y.stamp < item.stamp := fun y hy => (h.clocked.below y hy).2
  obtain ⟨rest, hpush, hsub, -, -⟩ := pushItem_spec h.dock.capped hbelow
  let pushed := (s.tick.2.updateOpenItems (saved 0) fun list => (pushItem item list).1).offerBack
    (pushItem item s.openItems).2
  have ht : t = pushed.focusItem (saved 1) s.openSeq false := by
    change (s.openItem saved openedIn kind entityId title).2 = _
    unfold Session.openItem
    rw [hnew]
    rfl
  obtain ⟨hitems, hseq⟩ := offerBack_frame (pushItem item s.openItems).2
    (s.tick.2.updateOpenItems (saved 0) fun list => (pushItem item list).1)
  replace hitems : pushed.openItems = (pushItem item s.openItems).1 :=
    hitems.trans (openItems_updateOpenItems _ _ _)
  replace hseq : pushed.openSeq = s.openSeq + 1 := hseq.trans (openSeq_updateOpenItems _ _ _)
  -- the new item is the most recent one, so it is shown and no tick is taken
  have hrecent : mostRecent pushed.openItems = some item := by
    rw [hitems, hpush]
    exact mostRecent_snoc fun y hy => (h.clocked.below y (hsub.subset hy)).2
  have hfocus : pushed.focusItem (saved 1) s.openSeq false =
      { pushed with shownItems := [s.openSeq] } := by
    unfold Session.focusItem
    rw [hrecent]
    simp [item, Session.showItem]
  rw [ht, hfocus]
  exact ⟨hitems, rfl, hseq⟩

end Operations

end Workspace
