import AzAppToolkit.Workspace.OpenItems

set_option autoImplicit false

/-! # Whose items are in the working set

The items in view are the active tenant's, and what is parked under a tenant's key is that tenant's. Every
operation keeps this but one: a toast outlives the switch of the tenant, and the item it offers back goes
into whatever set is there. -/

namespace Workspace

open Session

/-- Every item was opened in the tenant. -/
def AllIn (tenant : Option Text) (list : List OpenItem) : Prop := ∀ it ∈ list, it.openedIn = tenant

/-- The items in view are the active tenant's, those parked under a tenant's key that tenant's. -/
structure Confined (s : Session) : Prop where
  openItems : AllIn s.activeTenant s.openItems
  parked : ∀ tenantId list, s.store (workspaceKeyOf tenantId) = some list → AllIn (some tenantId) list

/-! ## Lists of items -/

section Lists

variable {tenant : Option Text} {list list' : List OpenItem}

theorem AllIn.of_subset (h : AllIn tenant list) (hsub : list' ⊆ list) : AllIn tenant list' :=
  fun it hit => h it (hsub hit)

theorem AllIn.append_singleton (h : AllIn tenant list) {item : OpenItem} (hitem : item.openedIn = tenant) :
    AllIn tenant (list ++ [item]) := by
  intro it hit
  rcases List.mem_append.1 hit with hit | hit
  · exact h it hit
  · rw [List.mem_singleton.1 hit]
    exact hitem

theorem AllIn.changeFirst (h : AllIn tenant list) (id : UInt64) {f : OpenItem → OpenItem}
    (hf : ∀ it, (f it).openedIn = it.openedIn) : AllIn tenant (changeFirst id f list) := by
  induction list with
  | nil => exact h
  | cons it list ih =>
    obtain ⟨hit, hlist⟩ := List.forall_mem_cons.1 h
    unfold Session.changeFirst
    split
    · exact List.forall_mem_cons.2 ⟨(hf it).trans hit, hlist⟩
    · exact List.forall_mem_cons.2 ⟨hit, ih hlist⟩

theorem AllIn.pushItem (h : AllIn tenant list) {item : OpenItem} (hitem : item.openedIn = tenant) :
    AllIn tenant (pushItem item list).1 := by
  have hall := h.append_singleton hitem
  unfold Session.pushItem
  dsimp only
  split
  · split
    · exact hall.of_subset (List.eraseIdx_subset)
    · exact hall
  · exact hall

theorem AllIn.replaceFirst (h : AllIn tenant list) {item : OpenItem} (hitem : item.openedIn = tenant) :
    AllIn tenant (keepRestored.replaceFirst item list) := by
  induction list with
  | nil => exact h
  | cons it list ih =>
    obtain ⟨hit, hlist⟩ := List.forall_mem_cons.1 h
    unfold keepRestored.replaceFirst
    split
    · refine List.forall_mem_cons.2 ⟨?_, hlist⟩
      split
      · exact hitem
      · exact hit
    · exact List.forall_mem_cons.2 ⟨hit, ih hlist⟩

theorem AllIn.keepRestored {ids : List UInt64} (h : AllIn tenant list) {item : OpenItem}
    (hitem : item.openedIn = tenant) : AllIn tenant (keepRestored (list, ids) item).1 := by
  unfold Session.keepRestored
  split
  · exact h.replaceFirst hitem
  · split
    · exact h
    · exact h.append_singleton hitem

theorem AllIn.dropOldest (n : Nat) (h : AllIn tenant list) : AllIn tenant (dropOldest n list) := by
  induction n generalizing list with
  | zero => exact h
  | succ n ih =>
    unfold Session.dropOldest
    split
    · split
      · exact ih (h.of_subset List.eraseIdx_subset)
      · exact h
    · exact h

/-- A repaired snapshot holds nothing that the snapshot did not hold. -/
theorem AllIn.sanitizeRestored (h : AllIn tenant list) : AllIn tenant (sanitizeRestored list) := by
  have hfold : ∀ (items out : List OpenItem) (ids : List UInt64), AllIn tenant items → AllIn tenant out →
      AllIn tenant (items.foldl Session.keepRestored (out, ids)).1 := by
    intro items
    induction items with
    | nil => exact fun out ids _ hout => hout
    | cons item items ih =>
      intro out ids hitems hout
      obtain ⟨hitem, hrest⟩ := List.forall_mem_cons.1 hitems
      exact ih _ _ hrest (hout.keepRestored hitem)
  exact AllIn.dropOldest _ (hfold list [] [] h (fun it hit => absurd hit (by simp)))

end Lists

/-! ## The operations -/

section Operations

variable {s : Session}

theorem workspaceKeyOf_injective {a b : Text} (h : workspaceKeyOf a = workspaceKeyOf b) : a = b :=
  List.append_cancel_left h

@[simp] theorem activeTenant_updateOpenItems (saved : Bool) (f : List OpenItem → List OpenItem)
    (s : Session) : (s.updateOpenItems saved f).activeTenant = s.activeTenant := by
  unfold Session.updateOpenItems
  dsimp only
  split
  · split <;> rfl
  · rfl

@[simp] theorem openItems_updateOpenItems (saved : Bool) (f : List OpenItem → List OpenItem)
    (s : Session) : (s.updateOpenItems saved f).openItems = f s.openItems := by
  unfold Session.updateOpenItems
  dsimp only
  split
  · split <;> rfl
  · rfl

/-- The write path parks the active tenant's items under the active tenant's key. -/
theorem Confined.updateOpenItems (h : Confined s) (saved : Bool) {f : List OpenItem → List OpenItem}
    (hf : AllIn s.activeTenant (f s.openItems)) : Confined (s.updateOpenItems saved f) := by
  refine ⟨by simpa using hf, ?_⟩
  unfold Session.updateOpenItems
  dsimp only
  split
  · next key hkey =>
    split
    · intro tenantId list hlist
      obtain ⟨active, hactive, rfl⟩ := Option.map_eq_some_iff.1 hkey
      replace hactive : s.activeTenant = some active := hactive
      dsimp only at hlist
      split at hlist
      · next heq =>
        obtain rfl := workspaceKeyOf_injective heq
        cases hlist
        exact hactive ▸ hf
      · exact h.parked tenantId list hlist
    · exact h.parked
  · exact h.parked

/-- What changes neither the items nor the tenant nor the store. -/
theorem Confined.of_eq {s' : Session} (h : Confined s) (hactive : s'.activeTenant = s.activeTenant)
    (hitems : s'.openItems = s.openItems) (hstore : s'.store = s.store) : Confined s' := by
  refine ⟨?_, ?_⟩
  · rw [hactive, hitems]
    exact h.openItems
  · rw [hstore]
    exact h.parked

theorem Confined.setOpenItemTitle (h : Confined s) (saved : Bool) (id : UInt64) (title : Text) :
    Confined (s.setOpenItemTitle saved id title) := by
  unfold Session.setOpenItemTitle
  split
  · exact h.updateOpenItems saved (h.openItems.changeFirst id (fun _ => rfl))
  · exact h

theorem Confined.focusItem (h : Confined s) (saved : Bool) (id : UInt64) (split : Bool) :
    Confined (s.focusItem saved id split) := by
  have hticked : Confined s.tick.2 := h.of_eq rfl rfl rfl
  unfold Session.focusItem
  dsimp only
  split
  · have hstamped := hticked.updateOpenItems saved (f := changeFirst id
      (fun it => { it with focusedAt := s.tick.1 })) (hticked.openItems.changeFirst id (fun _ => rfl))
    exact hstamped.of_eq rfl rfl rfl
  · exact h.of_eq rfl rfl rfl

theorem push_frame (kind : ToastKind) (message : Text) (label : Option Text) (action : Option ToastAction)
    (key : Option Text) (s : Session) :
    (s.push kind message label action key).2.activeTenant = s.activeTenant ∧
      (s.push kind message label action key).2.openItems = s.openItems ∧
      (s.push kind message label action key).2.store = s.store := by
  unfold Session.push
  dsimp only
  split
  · exact ⟨rfl, rfl, rfl⟩
  · exact ⟨rfl, rfl, rfl⟩

theorem Confined.push (h : Confined s) (kind : ToastKind) (message : Text) (label : Option Text)
    (action : Option ToastAction) (key : Option Text) :
    Confined (s.push kind message label action key).2 := by
  obtain ⟨hactive, hitems, hstore⟩ := push_frame kind message label action key s
  exact h.of_eq hactive hitems hstore

theorem Confined.offerBack (h : Confined s) (evicted : Option OpenItem) : Confined (s.offerBack evicted) := by
  cases evicted with
  | none => exact h
  | some item =>
    have hhidden : Confined { s with shownItems := s.shownItems.filter (fun id => id != item.id) } :=
      h.of_eq rfl rfl rfl
    exact hhidden.push _ _ _ _ _

/-- An item may be opened that is the active tenant's, or one that is open already. -/
theorem Confined.openItem (h : Confined s) (saved : Nat → Bool) {openedIn : Option Text}
    {kind : OpenItemKind} {entityId : Text} (title : Text)
    (hitem : openedIn = s.activeTenant ∨ (s.isOpen kind entityId).isSome = true) :
    Confined (s.openItem saved openedIn kind entityId title).2 := by
  unfold Session.openItem
  split
  · exact (h.setOpenItemTitle _ _ _).focusItem _ _ _
  · next hopen =>
    obtain rfl : openedIn = s.activeTenant := by
      rcases hitem with hitem | hitem
      · exact hitem
      · rw [hopen] at hitem
        exact absurd hitem (by simp)
    have hticked : Confined s.tick.2 := h.of_eq rfl rfl rfl
    exact ((hticked.updateOpenItems _ (hticked.openItems.pushItem rfl)).offerBack _).focusItem _ _ _

theorem Confined.closeItem (h : Confined s) (saved : Bool) (id : UInt64) : Confined (s.closeItem saved id) :=
  (h.updateOpenItems saved (h.openItems.of_subset (List.filter_subset_self _))).of_eq rfl rfl rfl

theorem Confined.closeItemByEntity (h : Confined s) (saved : Bool) (kind : OpenItemKind) (entityId : Text) :
    Confined (s.closeItemByEntity saved kind entityId) := by
  unfold Session.closeItemByEntity
  split
  · exact h.closeItem saved _
  · exact h

/-- The switch clears the set, and restores what the arriving tenant parked. -/
theorem Confined.setActiveTenant (h : Confined s) (loaded : Bool) (tenant : Option Text) :
    Confined (s.setActiveTenant loaded tenant) := by
  have hcleared : Confined { s with activeTenant := tenant, openItems := [], shownItems := [] } :=
    ⟨fun it hit => absurd hit (by simp), h.parked⟩
  unfold Session.setActiveTenant Session.restoreOpenItems
  split
  · exact hcleared
  · next key hkey =>
    split
    · exact hcleared
    · next raw hraw =>
      dsimp only
      split
      · exact hcleared
      · obtain ⟨active, rfl, rfl⟩ := Option.map_eq_some_iff.1 hkey
        split at hraw
        · exact ⟨(h.parked active raw hraw).sanitizeRestored, h.parked⟩
        · exact absurd hraw (by simp)

end Operations

/-! ## Runs -/

/-- A Reopen is run in the tenant its item was opened in, or for an item that is open already. -/
def Event.InTenant (s : Session) : Event → Prop
  | .runAction toast =>
    match toast.action with
    | some (.reopen kind entityId _ openedIn) =>
      openedIn = s.activeTenant ∨ (s.isOpen kind entityId).isSome = true
    | _ => True
  | _ => True

theorem Confined.apply {s : Session} (h : Confined s) (saved : Nat → Bool) (loaded : Bool) {e : Event}
    (he : e.InTenant s) : Confined (e.apply saved loaded s) := by
  cases e with
  | openItem kind entityId title => exact h.openItem saved title (.inl rfl)
  | focusItem id split => exact h.focusItem _ id split
  | closeItem id => exact h.closeItem _ id
  | closeAllItems => exact (h.updateOpenItems _ (fun it hit => absurd hit (by simp))).of_eq rfl rfl rfl
  | closeItemByEntity kind entityId => exact h.closeItemByEntity _ kind entityId
  | setOpenItemTitle id title => exact h.setOpenItemTitle _ id title
  | pushToast kind message label hasAction key => exact h.push kind message label _ key
  | dismissToast id => exact h.of_eq rfl rfl rfl
  | setActiveTenant tenant => exact h.setActiveTenant loaded tenant
  | runAction toast =>
    unfold Event.apply
    dsimp only
    unfold Event.InTenant at he
    dsimp only at he
    split
    · next kind entityId title openedIn haction =>
      rw [haction] at he
      exact h.openItem saved title he
    · exact h

/-- As long as every Reopen is run in the tenant its item was opened in, no tenant's item is in another's
    working set or snapshot. -/
theorem working_set_confined {s : Session} {events : List Event}
    (hrun : Run (fun s e s' => e.InTenant s ∧ Step s e s') Session.new events s) : Confined s := by
  refine hrun.invariant (fun _ s => Confined s) ?_ ?_
  · exact ⟨fun it hit => absurd hit (by simp [Session.new]), fun _ _ hlist => absurd hlist (by simp [Session.new])⟩
  · rintro _ s e s' _ hconfined ⟨hin, -, saved, loaded, rfl⟩
    exact hconfined.apply saved loaded hin

/-! ## Replays -/

instance (s : Session) : (e : Event) → Decidable (e.InTenant s)
  | .runAction ⟨_, _, _, _, some (.reopen kind entityId _ openedIn), _⟩ => inferInstanceAs
      (Decidable (openedIn = s.activeTenant ∨ (s.isOpen kind entityId).isSome = true))
  | .runAction ⟨_, _, _, _, some .other, _⟩ => isTrue trivial
  | .runAction ⟨_, _, _, _, none, _⟩ => isTrue trivial
  | .openItem .. => isTrue trivial
  | .focusItem .. => isTrue trivial
  | .closeItem .. => isTrue trivial
  | .closeAllItems => isTrue trivial
  | .closeItemByEntity .. => isTrue trivial
  | .setOpenItemTitle .. => isTrue trivial
  | .pushToast .. => isTrue trivial
  | .dismissToast .. => isTrue trivial
  | .setActiveTenant .. => isTrue trivial

/-- The events one after the other, as long as they are as asked, with a store that works. -/
def replay (ok : Session → Event → Prop) [∀ s e, Decidable (ok s e)] : List Event → Session → Option Session
  | [], s => some s
  | e :: events, s =>
    if ok s e ∧ e.Possible s then replay ok events (e.apply (fun _ => true) true s) else none

theorem run_of_replay {ok : Session → Event → Prop} [∀ s e, Decidable (ok s e)] {events : List Event}
    {s s' : Session} (h : replay ok events s = some s') :
    Run (fun s e s' => ok s e ∧ Step s e s') s events s' := by
  induction events generalizing s with
  | nil =>
    cases h
    exact .nil
  | cons e events ih =>
    unfold replay at h
    split at h
    · next hok =>
      have hstep : ok s e ∧ Step s e (e.apply (fun _ => true) true s) :=
        ⟨hok.1, hok.2, fun _ => true, true, rfl⟩
      exact (Run.single hstep).append (ih h)
    · exact absurd h (by simp)

/-- In a tenant, nine items are opened, one more than the dock holds. -/
def openNine : List Event :=
  .setActiveTenant (some ['a']) ::
    ['1', '2', '3', '4', '5', '6', '7', '8', '9'].map (fun c => .openItem .appReg [c] [])

/-- The toast that then offers the first one back. -/
def offerOfFirst : Toast :=
  ⟨0, .info, Session.evictedMessage [], some "Reopen".toList,
    some (.reopen .appReg ['1'] [] (some ['a'])), none⟩

/-- What is looked at in a session. -/
def sessionView (s : Session) : Option Text × List (Text × Option Text) :=
  (s.activeTenant, s.openItems.map (fun it => (it.entityId, it.openedIn)))

/-- Items are opened in one tenant until one is evicted, the tenant is switched, and then Reopen is run:
    the other tenant's item is in view. -/
theorem reopen_crosses_tenants : ∃ events s, Run Step Session.new events s ∧
    s.activeTenant = some ['b'] ∧ ∃ it ∈ s.openItems, it.openedIn = some ['a'] := by
  have hreplay : (replay (fun _ _ => True) (openNine ++ [.setActiveTenant (some ['b']),
      .runAction offerOfFirst]) Session.new).map sessionView =
        some (some ['b'], [(['1'], some ['a'])]) := by
    decide
  obtain ⟨s, hreplay, hview⟩ := Option.map_eq_some_iff.1 hreplay
  obtain ⟨hactive, hitems⟩ := Prod.mk.inj hview
  refine ⟨_, s, (run_of_replay hreplay).mono (fun _ _ _ hstep => hstep.2), hactive, ?_⟩
  have hmem : (['1'], some ['a']) ∈ s.openItems.map (fun it => (it.entityId, it.openedIn)) := by
    rw [hitems]
    exact List.mem_cons_self
  obtain ⟨it, hit, heq⟩ := List.mem_map.1 hmem
  exact ⟨it, hit, (Prod.mk.inj heq).2⟩

/-- Reopen is run before the switch and the items are left behind. -/
theorem reopen_in_tenant_confined : ∃ events s, (Event.runAction offerOfFirst) ∈ events ∧
    Run Step Session.new events s ∧ Confined s := by
  have hreplay : (replay (fun s e => e.InTenant s) (openNine ++ [.runAction offerOfFirst,
      .setActiveTenant (some ['b']), .openItem .enterprise ['1'] []]) Session.new).map sessionView =
        some (some ['b'], [(['1'], some ['b'])]) := by
    decide
  obtain ⟨s, hreplay, -⟩ := Option.map_eq_some_iff.1 hreplay
  have hrun := run_of_replay hreplay
  exact ⟨_, s, by simp, hrun.mono (fun _ _ _ hstep => hstep.2), working_set_confined hrun⟩

end Workspace
