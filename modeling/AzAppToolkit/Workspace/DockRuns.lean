import AzAppToolkit.Workspace.Dock

set_option autoImplicit false

/-! # Runs of the dock

From any parked snapshot on, the dock keeps its invariant over every run in which the clock does not wrap:
no snapshot that is restored has an id or a stamp at the end of the clock, and no tick is taken there. -/

namespace Workspace

open Session

/-! ## Runs that remember the last use -/

/-- A session, the number of events so far, and when each item was last used. -/
structure Tracked where
  session : Session
  time : Nat
  used : UInt64 → Use

/-- The uses of a restored dock are its stamps. -/
def restoredUses (items : List OpenItem) (id : UInt64) : Use :=
  restoredUse (((items.find? fun it => it.id == id).map OpenItem.stamp).getD 0)

/-- The id that `open_item` returns, where the event is a call of it. -/
def Event.opens (s : Session) : Event → Option UInt64
  | .openItem kind entityId title => some (s.openItem (fun _ => true) none kind entityId title).1
  | .runAction toast =>
    match toast.action with
    | some (.reopen kind entityId title _) =>
      some (s.openItem (fun _ => true) none kind entityId title).1
    | _ => none
  | _ => none

/-- The item that the event opens or focuses. -/
def Event.uses (s : Session) : Event → Option UInt64
  | .focusItem id _ => some id
  | e => e.opens s

/-- After the event, at the session it leads to. -/
def Tracked.after (x : Tracked) (e : Event) (s : Session) : Tracked where
  session := s
  time := x.time + 1
  used :=
    match e with
    | .setActiveTenant _ => restoredUses s.openItems
    | e =>
      match e.uses x.session with
      | some id => Function.update x.used id (liveUse x.time)
      | none => x.used

/-- A focus is of an item that is open. -/
def Event.FocusesOpen (s : Session) : Event → Prop
  | .focusItem id _ => id ∈ s.openItems.map OpenItem.id
  | _ => True

/-- Opening the entity takes no tick at the end of the clock. -/
def OpensWithinClock (s : Session) (kind : OpenItemKind) (entityId : Text) : Prop :=
  (∀ id, s.isOpen kind entityId = some id → Stale s id) → s.openSeq ≠ lastTick

/-- The clock does not wrap at the event: no tick is taken at its end, and a snapshot that is restored
has neither id nor stamp there. -/
def Event.WithinClock (loaded : Bool) (s : Session) : Event → Prop
  | .openItem kind entityId _ => OpensWithinClock s kind entityId
  | .focusItem id _ => Stale s id → s.openSeq ≠ lastTick
  | .runAction toast =>
    match toast.action with
    | some (.reopen kind entityId _ _) => OpensWithinClock s kind entityId
    | _ => True
  | .setActiveTenant tenant => loaded = true → ∀ id raw, tenant = some id →
      s.store (workspaceKeyOf id) = some raw →
      ∀ it ∈ sanitizeRestored raw, it.id ≠ lastTick ∧ it.focusedAt ≠ lastTick
  | _ => True

def DockStep (x : Tracked) (e : Event) (y : Tracked) : Prop :=
  e.Possible x.session ∧ e.FocusesOpen x.session ∧
    ∃ saved loaded, e.WithinClock loaded x.session ∧ y = x.after e (e.apply saved loaded x.session)

/-- What is owed of the item that `open_item` returned: it is open and shown, and what was evicted for it
was used longest ago and is another. -/
structure Opened (used : UInt64 → Use) (id : UInt64) (s t : Session) : Prop where
  isOpen : id ∈ t.openItems.map OpenItem.id
  isShown : id ∈ t.shownItems
  oldestGone : ∀ it ∈ s.openItems, it.id ∉ t.openItems.map OpenItem.id →
    it.id ≠ id ∧ ∀ o ∈ t.openItems, used it.id ≤ used o.id

/-- What is owed after an event. -/
structure Owed (x : Tracked) (e : Event) (y : Tracked) : Prop where
  dock : Dock y.session.openItems y.session.shownItems
  opened : ∀ id, e.opens x.session = some id → Opened y.used id x.session y.session

def Tracked.Good (x : Tracked) : Prop := Workspace.Good x.time x.used x.session

/-! ## One event -/

section Steps

variable {s : Session} {time : Nat} {used : UInt64 → Use}

theorem Good.later (h : Good time used s) : Good (time + 1) used s :=
  ⟨h.dock, h.clocked.later le_rfl (Nat.le_succ time)⟩

/-- Some items are closed, with their panes. -/
theorem Good.closed (h : Good time used s) {t : Session} (hitems : t.openItems.Sublist s.openItems)
    (hshown : t.shownItems.Sublist s.shownItems) (hseq : t.openSeq = s.openSeq)
    (hopen : ∀ id ∈ t.shownItems, id ∈ t.openItems.map OpenItem.id) : Good time used t := by
  refine ⟨h.dock.sublist hitems hshown hopen, ?_⟩
  rw [hseq]
  exact h.clocked.sublist hitems

theorem Good.closeItem (h : Good time used s) (saved : Bool) (id : UInt64) :
    Good time used (s.closeItem saved id) := by
  have hitems : (s.closeItem saved id).openItems = s.openItems.filter fun it => it.id != id :=
    openItems_updateOpenItems _ _ _
  have hshown : (s.closeItem saved id).shownItems = s.shownItems.filter fun p => p != id :=
    congrArg (List.filter fun p => p != id) (shownItems_updateOpenItems _ _ _)
  refine h.closed ?_ ?_ (openSeq_updateOpenItems _ _ _) fun p hp => ?_
  · rw [hitems]
    exact List.filter_sublist
  · rw [hshown]
    exact List.filter_sublist
  · rw [hshown] at hp
    obtain ⟨hp, hne⟩ := List.mem_filter.1 hp
    obtain ⟨it, hit, rfl⟩ := List.mem_map.1 (h.dock.shownOpen p hp)
    rw [hitems]
    exact List.mem_map_of_mem (List.mem_filter.2 ⟨hit, hne⟩)

theorem Good.closeItemByEntity (h : Good time used s) (saved : Bool) (kind : OpenItemKind)
    (entityId : Text) : Good time used (s.closeItemByEntity saved kind entityId) := by
  unfold Session.closeItemByEntity
  split
  · exact h.closeItem saved _
  · exact h

theorem Good.closeAllItems (h : Good time used s) (saved : Bool) :
    Good time used (s.closeAllItems saved) := by
  have hitems : (s.closeAllItems saved).openItems = [] := openItems_updateOpenItems _ _ _
  have hshown : (s.closeAllItems saved).shownItems = [] := rfl
  refine h.closed ?_ ?_ (openSeq_updateOpenItems _ _ _) fun p hp => ?_
  · rw [hitems]
    exact List.nil_sublist _
  · rw [hshown]
    exact List.nil_sublist _
  · rw [hshown] at hp
    exact absurd hp List.not_mem_nil

theorem push_keeps (kind : ToastKind) (message : Text) (label : Option Text) (action : Option ToastAction)
    (key : Option Text) (s : Session) :
    (s.push kind message label action key).2.openItems = s.openItems ∧
      (s.push kind message label action key).2.shownItems = s.shownItems ∧
      (s.push kind message label action key).2.openSeq = s.openSeq := by
  unfold Session.push
  dsimp only
  split <;> exact ⟨rfl, rfl, rfl⟩

theorem openItem_fst (saved : Nat → Bool) (openedIn : Option Text) (kind : OpenItemKind)
    (entityId title : Text) (s : Session) :
    (s.openItem saved openedIn kind entityId title).1 = (s.isOpen kind entityId).getD s.openSeq := by
  unfold Session.openItem
  cases s.isOpen kind entityId <;> rfl

theorem ids_of_slots {l m : List OpenItem} (h : l.map OpenItem.slot = m.map OpenItem.slot) :
    l.map OpenItem.id = m.map OpenItem.id := by
  have := congrArg (List.map Prod.snd) h
  rwa [List.map_map, List.map_map] at this

/-- The entity is open: its title is refreshed and it is focused. -/
theorem Good.openItem_existing (h : Good time used s) {kind : OpenItemKind} {entityId : Text}
    {existing : UInt64} (hopen : s.isOpen kind entityId = some existing)
    (hclock : Stale s existing → s.openSeq ≠ lastTick) (saved : Nat → Bool) (openedIn : Option Text)
    (title : Text) :
    Good (time + 1) (Function.update used existing (liveUse time))
        (s.openItem saved openedIn kind entityId title).2 ∧
      Opened (Function.update used existing (liveUse time)) existing s
        (s.openItem saved openedIn kind entityId title).2 := by
  have ht : (s.openItem saved openedIn kind entityId title).2 =
      (s.setOpenItemTitle (saved 0) existing title).focusItem (saved 1) existing false := by
    unfold Session.openItem
    rw [hopen]
  obtain ⟨htitled, hslots, hseq, hstale⟩ := h.setOpenItemTitle (saved 0) existing title
  have hmem : existing ∈ (s.setOpenItemTitle (saved 0) existing title).openItems.map OpenItem.id := by
    rw [ids_of_slots hslots]
    exact mem_ids_of_isOpen hopen
  have hticks : Stale (s.setOpenItemTitle (saved 0) existing title) existing →
      (s.setOpenItemTitle (saved 0) existing title).openSeq ≠ lastTick := by
    intro hst
    rw [hseq]
    exact hclock ((hstale _).1 hst)
  obtain ⟨hgood, hslots', hshown⟩ := htitled.focusItem hmem hticks (saved 1) false
  have hids := ids_of_slots (hslots'.trans hslots)
  rw [ht]
  refine ⟨hgood, ?_, ?_, fun it hit hgone => absurd ?_ hgone⟩
  · rw [hids]
    exact mem_ids_of_isOpen hopen
  · rw [hshown]
    exact List.mem_singleton_self existing
  · rw [hids]
    exact List.mem_map_of_mem hit

/-- The entity is not open: an item is minted, and one may be evicted. -/
theorem Good.openItem_minted (h : Good time used s) {kind : OpenItemKind} {entityId : Text}
    (hopen : s.isOpen kind entityId = none) (hclock : s.openSeq ≠ lastTick) (saved : Nat → Bool)
    (openedIn : Option Text) (title : Text) :
    Good (time + 1) (Function.update used s.openSeq (liveUse time))
        (s.openItem saved openedIn kind entityId title).2 ∧
      Opened (Function.update used s.openSeq (liveUse time)) s.openSeq s
        (s.openItem saved openedIn kind entityId title).2 := by
  obtain ⟨hitems, hshown, hseq⟩ := openItem_new h hopen saved openedIn title
  generalize (s.openItem saved openedIn kind entityId title).2 = t at hitems hshown hseq ⊢
  let item : OpenItem := ⟨s.openSeq, kind, entityId, title, s.openSeq, openedIn⟩
  have hbelow : ∀ y ∈ s.openItems, y.stamp < item.stamp := fun y hy => (h.clocked.below y hy).2
  obtain ⟨rest, hpush, hsub, hlen, hevicted⟩ := pushItem_spec h.dock.capped hbelow
  replace hitems : t.openItems = rest ++ [item] := hitems.trans hpush
  have hfresh : ∀ y ∈ s.openItems, y.id ≠ s.openSeq := by
    intro y hy heq
    have := (h.clocked.below y hy).1
    rw [heq] at this
    exact lt_irrefl _ this
  have hmem : s.openSeq ∈ t.openItems.map OpenItem.id := by
    rw [hitems]
    simp [item]
  have hdock : Dock t.openItems t.shownItems := by
    rw [hitems, hshown]
    refine ⟨hlen, ?_, ?_, fun p hp => ?_, List.nodup_singleton _, Nat.le_succ 1⟩
    · rw [List.map_append]
      refine List.nodup_append_comm.1
        (List.nodup_cons.2 ⟨fun hin => ?_, h.dock.ids.sublist (hsub.map _)⟩)
      obtain ⟨y, hy, heq⟩ := List.mem_map.1 hin
      exact hfresh y (hsub.subset hy) heq
    · rw [List.map_append]
      refine List.nodup_append_comm.1
        (List.nodup_cons.2 ⟨fun hin => ?_, h.dock.entities.sublist (hsub.map _)⟩)
      exact entity_new_of_isOpen hopen ((hsub.map _).subset hin)
    · rw [List.mem_singleton.1 hp, ← hitems]
      exact hmem
  refine ⟨⟨hdock, ?_⟩, hmem, ?_, fun it hit hgone => ⟨hfresh it hit, fun o ho => ?_⟩⟩
  · rw [hseq, toNat_tick hclock, hitems]
    have hid : item.id.toNat = s.openSeq.toNat := rfl
    exact h.clocked.opened hsub hid rfl
  · rw [hshown]
    exact List.mem_singleton_self _
  · have hused : ∀ y ∈ s.openItems, Function.update used s.openSeq (liveUse time) y.id = used y.id :=
      fun y hy => Function.update_of_ne (hfresh y hy) _ _
    rw [hused it hit]
    rw [hitems] at ho hgone
    rcases List.mem_append.1 ho with ho | ho
    · rw [hused o (hsub.subset ho)]
      rcases hevicted with rfl | ⟨a, e, b, hsplit, rfl, hbefore, hafter⟩
      · exact absurd (List.mem_map_of_mem (List.mem_append_left _ hit)) hgone
      · -- the only item that is gone is the one used longest ago
        have holdest := (hsplit ▸ h.clocked.aged).oldest hbefore hafter
        obtain rfl : it = e := by
          rw [hsplit] at hit
          rcases List.mem_append.1 hit with hia | hieb
          · exact absurd (List.mem_map_of_mem (by simp [hia])) hgone
          · rcases List.mem_cons.1 hieb with rfl | hib
            · rfl
            · exact absurd (List.mem_map_of_mem (by simp [hib])) hgone
        exact holdest o (hsplit ▸ hsub.subset ho)
    · rw [List.mem_singleton.1 ho, Function.update_self]
      exact (h.clocked.past it hit).le

/-- What `open_item` leaves. -/
theorem Good.openItem (h : Good time used s) {kind : OpenItemKind} {entityId : Text}
    (hclock : OpensWithinClock s kind entityId) (saved saved' : Nat → Bool)
    (openedIn openedIn' : Option Text) (title title' : Text) :
    let id := (s.openItem saved' openedIn' kind entityId title').1
    let used' := Function.update used id (liveUse time)
    Good (time + 1) used' (s.openItem saved openedIn kind entityId title).2 ∧
      Opened used' id s (s.openItem saved openedIn kind entityId title).2 := by
  dsimp only
  rw [openItem_fst]
  cases hopen : s.isOpen kind entityId with
  | some existing =>
    refine h.openItem_existing hopen (fun hstale => hclock fun i hi => ?_) saved openedIn title
    rw [hopen] at hi
    obtain rfl := Option.some.inj hi
    exact hstale
  | none =>
    refine h.openItem_minted hopen (hclock fun i hi => ?_) saved openedIn title
    rw [hopen] at hi
    cases hi

theorem max_eq_or (a b : UInt64) : max a b = a ∨ max a b = b := by
  rw [show max a b = if a ≤ b then b else a from rfl]
  split
  · exact .inr rfl
  · exact .inl rfl

theorem toNat_max (a b : UInt64) : (max a b).toNat = max a.toNat b.toNat := by
  rw [show max a b = if a ≤ b then b else a from rfl]
  split
  · next hle => exact (max_eq_right (UInt64.le_iff_toNat_le.1 hle)).symm
  · next hnot => exact (max_eq_left (Nat.lt_of_not_le (mt UInt64.le_iff_toNat_le.2 hnot)).le).symm

/-- The highest of the snapshot's ids and stamps is one of them, and none exceeds it. -/
theorem foldl_max_spec (l : List UInt64) (first : UInt64) :
    l.foldl max first ∈ first :: l ∧ ∀ n ∈ first :: l, n.toNat ≤ (l.foldl max first).toNat := by
  induction l generalizing first with
  | nil => exact ⟨List.mem_cons_self, fun n hn => by rw [List.mem_singleton.1 hn]; rfl⟩
  | cons n l ih =>
    obtain ⟨hmem, hall⟩ := ih (max first n)
    rw [List.foldl_cons]
    refine ⟨?_, fun m hm => ?_⟩
    · rcases List.mem_cons.1 hmem with heq | hmem
      · rw [heq]
        rcases max_eq_or first n with h | h <;> simp [h]
      · exact List.mem_cons_of_mem first (List.mem_cons_of_mem n hmem)
    · have hmax := hall (max first n) List.mem_cons_self
      rw [toNat_max] at hmax
      rcases List.mem_cons.1 hm with rfl | hm
      · exact (le_max_left _ _).trans hmax
      · rcases List.mem_cons.1 hm with rfl | hm
        · exact (le_max_right _ _).trans hmax
        · exact hall m (List.mem_cons_of_mem _ hm)

theorem restoredUses_mem {items : List OpenItem} (hids : (items.map OpenItem.id).Nodup) {it : OpenItem}
    (hit : it ∈ items) : restoredUses items it.id = restoredUse it.stamp := by
  unfold restoredUses
  obtain ⟨o, ho⟩ := Option.isSome_iff_exists.1
    (List.find?_isSome (p := fun o : OpenItem => o.id == it.id) |>.2 ⟨it, hit, beq_self_eq_true _⟩)
  have hfound := List.find?_some ho
  have hid : o.id = it.id := beq_iff_eq.1 hfound
  obtain rfl : o = it := List.inj_on_of_nodup_map hids (List.mem_of_find?_eq_some ho) hit hid
  rw [ho]
  rfl

/-- A repaired snapshot, with a clock past it, is a good dock. -/
theorem good_restored (raw : List OpenItem) {t : Session} (time : Nat)
    (hitems : t.openItems = sanitizeRestored raw) (hshown : t.shownItems = [])
    (hbelow : ∀ it ∈ sanitizeRestored raw, it.id.toNat < t.openSeq.toNat ∧ it.stamp < t.openSeq.toNat) :
    Good (time + 1) (restoredUses t.openItems) t := by
  have hids := sanitizeRestored_ids raw
  have huse : ∀ it ∈ sanitizeRestored raw,
      restoredUses t.openItems it.id = restoredUse it.stamp := by
    intro it hit
    rw [hitems]
    exact restoredUses_mem hids hit
  refine ⟨⟨?_, ?_, ?_, ?_, ?_, ?_⟩, ⟨?_, ?_, ?_⟩⟩
  · rw [hitems, sanitizeRestored_length]
    exact min_le_right _ _
  · rw [hitems]
    exact hids
  · rw [hitems]
    exact sanitizeRestored_entities raw
  · rw [hshown]
    exact fun p hp => absurd hp List.not_mem_nil
  · rw [hshown]
    exact List.nodup_nil
  · rw [hshown]
    exact Nat.zero_le _
  · rw [hitems]
    exact hbelow
  · intro it hit
    rw [hitems] at hit
    rw [huse it hit]
    exact restoredUse_lt_liveUse _ _
  · refine Recency.aged_of_stamps fun x hx y hy hlt => ?_
    rw [hitems] at hx hy
    rw [huse x hx, huse y hy] at hlt
    exact restoredUse_lt.1 hlt

/-- Whatever the session was, the switch of the tenant leaves a good dock. -/
theorem good_setActiveTenant (s : Session) (time : Nat) (loaded : Bool) (tenant : Option Text)
    (hclock : (Event.setActiveTenant tenant).WithinClock loaded s) :
    Good (time + 1) (restoredUses (s.setActiveTenant loaded tenant).openItems)
      (s.setActiveTenant loaded tenant) := by
  have hempty : ∀ t : Session, t.openItems = [] → t.shownItems = [] →
      Good (time + 1) (restoredUses t.openItems) t := by
    intro t hitems hshown
    exact good_restored [] time hitems hshown fun it hit => absurd hit List.not_mem_nil
  unfold Session.setActiveTenant Session.restoreOpenItems
  split
  · exact hempty _ rfl rfl
  · next key hkey =>
    obtain ⟨id, htenant, rfl⟩ := Option.map_eq_some_iff.1 hkey
    dsimp only at htenant
    split
    · exact hempty _ rfl rfl
    · next raw hraw =>
      split at hraw
      · next hloaded =>
        have hlast := hclock hloaded id raw htenant hraw
        dsimp only
        split
        · exact hempty _ rfl rfl
        · next first rest hhigh =>
          refine good_restored _ time rfl rfl fun it hit => ?_
          have hstamps : ∀ n ∈ first :: rest, n ≠ lastTick := by
            rw [← hhigh]
            intro n hn
            obtain ⟨o, ho, rfl⟩ := List.mem_map.1 hn
            obtain ⟨hid, hfocus⟩ := hlast o ho
            rcases max_eq_or o.focusedAt o.id with h | h <;> rw [h]
            · exact hfocus
            · exact hid
          have hmem : max it.focusedAt it.id ∈ first :: rest := by
            rw [← hhigh]
            exact List.mem_map_of_mem hit
          obtain ⟨hhighest, hall⟩ := foldl_max_spec rest first
          have hmax := hall _ hmem
          have hnext := toNat_tick (hstamps _ hhighest)
          rw [toNat_max] at hmax
          dsimp only
          unfold OpenItem.stamp
          rw [toNat_max, hnext]
          omega
      · cases hraw

end Steps

/-- One event within the clock keeps the invariant, and does what it owes. -/
theorem good_of_step {x y : Tracked} {e : Event} (hx : x.Good) (hstep : DockStep x e y) :
    y.Good ∧ Owed x e y := by
  obtain ⟨-, hfocus, saved, loaded, hclock, rfl⟩ := hstep
  -- what opens nothing owes the dock only
  have hnone : ∀ {z : Tracked}, z.Good → e.opens x.session = none → z.Good ∧ Owed x e z := by
    intro z hz hopens
    refine ⟨hz, hz.dock, fun id hid => ?_⟩
    rw [hopens] at hid
    cases hid
  cases e with
  | openItem kind entityId title =>
    obtain ⟨hgood, hopened⟩ := hx.openItem hclock saved (fun _ => true) x.session.activeTenant none
      title title
    exact ⟨hgood, hgood.dock, fun id hid => Option.some.inj hid ▸ hopened⟩
  | focusItem id split => exact hnone (hx.focusItem hfocus hclock (saved 0) split).1 rfl
  | closeItem id => exact hnone (Good.later (hx.closeItem (saved 0) id)) rfl
  | closeAllItems => exact hnone (Good.later (hx.closeAllItems (saved 0))) rfl
  | closeItemByEntity kind entityId =>
    exact hnone (Good.later (hx.closeItemByEntity (saved 0) kind entityId)) rfl
  | setOpenItemTitle id title => exact hnone (Good.later (hx.setOpenItemTitle (saved 0) id title).1) rfl
  | pushToast kind message label hasAction key =>
    obtain ⟨hitems, hshown, hseq⟩ := push_keeps kind message label
      (if hasAction then some .other else none) key x.session
    refine hnone (Good.later (hx.closed ?_ ?_ hseq fun id hid => ?_)) rfl
    · exact hitems ▸ List.Sublist.refl _
    · exact hshown ▸ List.Sublist.refl _
    · exact hitems ▸ hx.dock.shownOpen id (hshown ▸ hid)
  | dismissToast id =>
    have hlater := Good.later hx
    exact hnone ⟨hlater.dock, hlater.clocked⟩ rfl
  | setActiveTenant tenant =>
    exact hnone (good_setActiveTenant x.session x.time loaded tenant hclock) rfl
  | runAction toast =>
    cases haction : toast.action with
    | none =>
      have hlater := Good.later hx
      refine hnone ?_ (by simp only [Event.opens, haction])
      unfold Tracked.after Event.apply Event.uses Event.opens
      simp only [haction]
      exact hlater
    | some action =>
      cases action with
      | other =>
        have hlater := Good.later hx
        refine hnone ?_ (by simp only [Event.opens, haction])
        unfold Tracked.after Event.apply Event.uses Event.opens
        simp only [haction]
        exact hlater
      | reopen kind entityId title openedIn =>
        replace hclock : OpensWithinClock x.session kind entityId := by
          simpa only [Event.WithinClock, haction] using hclock
        obtain ⟨hgood, hopened⟩ := hx.openItem hclock saved (fun _ => true) openedIn none title title
        have hopens : (Event.runAction toast).opens x.session =
            some (x.session.openItem (fun _ => true) none kind entityId title).1 := by
          simp only [Event.opens, haction]
        have hafter : x.after (.runAction toast) ((Event.runAction toast).apply saved loaded x.session) =
            ⟨(x.session.openItem saved openedIn kind entityId title).2, x.time + 1,
              Function.update x.used
                (x.session.openItem (fun _ => true) none kind entityId title).1
                (liveUse x.time)⟩ := by
          simp only [Tracked.after, Event.uses, Event.opens, Event.apply, haction]
        rw [hafter]
        refine ⟨hgood, hgood.dock, fun id hid => ?_⟩
        rw [hopens] at hid
        exact Option.some.inj hid ▸ hopened

/-! ## Runs -/

theorem good_of_run {x₀ x : Tracked} {events : List Event} (h₀ : x₀.Good)
    (hrun : Run DockStep x₀ events x) : x.Good :=
  hrun.invariant (fun _ x => x.Good) h₀ fun _ _ _ _ _ hx hstep => (good_of_step hx hstep).1

theorem good_empty {x : Tracked} (hitems : x.session.openItems = []) (hshown : x.session.shownItems = []) :
    x.Good := by
  unfold Tracked.Good
  refine ⟨⟨?_, ?_, ?_, ?_, ?_, ?_⟩, ⟨?_, ?_, ?_⟩⟩ <;> simp [hitems, hshown, Recency.Aged]

/-- The repair of a snapshot keeps the order of the dock, changes nothing the second time, and loses an
entity only to the cap or to a clash of ids. From an empty dock on, with any snapshots parked, a run within
the clock keeps the invariant, and each of its events does what it owes. -/
theorem dock_kept (list : List OpenItem) (x₀ : Tracked) :
    (((sanitizeRestored list).map OpenItem.slot).Sublist (list.map OpenItem.slot) ∧
      sanitizeRestored (sanitizeRestored list) = sanitizeRestored list ∧
      ∀ it ∈ list, it.entity ∈ (sanitizeRestored list).map OpenItem.entity ∨
        LostToCap list it.entity ∨ LostToClash list it.entity) ∧
    ∀ x events, x₀.session.openItems = [] → x₀.session.shownItems = [] →
      Run DockStep x₀ events x → Dock x.session.openItems x.session.shownItems ∧
        ∀ e y, DockStep x e y → Owed x e y := by
  refine ⟨⟨sanitizeRestored_order list, sanitizeRestored_idempotent list,
    sanitizeRestored_loses list⟩, fun x events hitems hshown hrun => ?_⟩
  have hx := good_of_run (good_empty hitems hshown) hrun
  exact ⟨hx.dock, fun e y hstep => (good_of_step hx hstep).2⟩

/-- A parked item whose stamp is the end of the clock. -/
def parkedAtTheEnd : Session :=
  { Session.new with store := fun _ => some [⟨0, .appReg, ['x'], [], lastTick, none⟩] }

/-- The clock wraps when such an item is restored, and the next item opened has the id of that one. -/
theorem wrapped_clock_mints_twice :
    let s := (parkedAtTheEnd.setActiveTenant true (some ['a'])).openItem (fun _ => true) (some ['a'])
      .appReg ['y'] []
    s.2.openItems.map OpenItem.id = [0, 0] ∧ ¬ Dock s.2.openItems s.2.shownItems := by
  intro s
  have hids : s.2.openItems.map OpenItem.id = [0, 0] := by decide
  refine ⟨hids, fun h => ?_⟩
  have hdistinct := h.ids
  rw [hids] at hdistinct
  exact absurd hdistinct (by decide)

/-- A full dock is parked. -/
def parkedFull : Tracked where
  session := { Session.new with
    store := fun _ => some ("abcdefgh".toList.map fun c =>
      ⟨UInt64.ofNat (c.toNat - 97), .appReg, [c], [], UInt64.ofNat (c.toNat - 96), none⟩) }
  time := 0
  used _ := restoredUse 0

def switched : Tracked :=
  parkedFull.after (.setActiveTenant (some ['a'])) (parkedFull.session.setActiveTenant true (some ['a']))

/-- The tenant's dock is restored, and one item more is opened. -/
theorem dock_kept_past_cap : ∃ x,
    Run DockStep parkedFull [.setActiveTenant (some ['a']), .openItem .appReg ['y'] []] x ∧
      switched.session.openItems.map OpenItem.entityId = "abcdefgh".toList.map (fun c => [c]) ∧
      x.session.openItems.map OpenItem.entityId = "bcdefghy".toList.map (fun c => [c]) ∧
      Dock x.session.openItems x.session.shownItems ∧
      Owed switched (.openItem .appReg ['y'] []) x := by
  have hswitch : DockStep parkedFull (.setActiveTenant (some ['a'])) switched := by
    refine ⟨trivial, trivial, fun _ => true, true, fun _ id raw _ hraw => ?_, rfl⟩
    cases hraw
    decide
  have hopen : DockStep switched (.openItem .appReg ['y'] []) _ :=
    ⟨trivial, trivial, fun _ => true, true, fun _ => by decide, rfl⟩
  have hrun := Run.single hswitch
  exact ⟨_, hrun.snoc hopen, by decide, by decide, ((dock_kept [] parkedFull).2 _ _ rfl rfl (hrun.snoc hopen)).1,
    ((dock_kept [] parkedFull).2 _ _ rfl rfl hrun).2 _ _ hopen⟩

end Workspace
