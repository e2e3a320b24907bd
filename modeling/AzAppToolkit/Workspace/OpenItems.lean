import AzAppToolkit.Lib.Run
import AzAppToolkit.Lib.Text

set_option autoImplicit false

/-! # The open-items working set

`Session` of `web-rs/src/state`: the items the operator has open (`open_items.rs`), the toasts that may
offer one back (`toasts.rs`) and the switch of the tenant (`tenant.rs`).

Modelling choices: a parked snapshot is the list it decodes to; a write to the store may be lost and a
read may come back empty, and the events say which; of a tenant only its id is kept, and the signals of
the lists and views are left out. Each item carries, beside the source's fields, the tenant that was
active when the operator opened it; a toast that offers an item back carries it along. No function
branches on it. -/

namespace Workspace

/-! ## Data -/

inductive OpenItemKind where
  | appReg
  | enterprise
  | managedIdentity
deriving DecidableEq

structure OpenItem where
  id : UInt64
  kind : OpenItemKind
  entityId : Text
  title : Text
  focusedAt : UInt64
  /-- The tenant it was opened in, which the source does not keep. -/
  openedIn : Option Text

inductive ToastKind where
  | success
  | error
  | info
deriving DecidableEq

inductive ToastAction where
  /-- The closure that `open_item` offers for an item it evicted. -/
  | reopen (kind : OpenItemKind) (entityId title : Text) (openedIn : Option Text)
  /-- Any other: Retry, Re-authenticate, … -/
  | other
deriving DecidableEq

structure Toast where
  id : UInt64
  kind : ToastKind
  message : Text
  actionLabel : Option Text
  action : Option ToastAction
  dedupeKey : Option Text
deriving DecidableEq

def Toast.isSticky (t : Toast) : Bool := t.kind == .error && t.action.isSome

structure Session where
  activeTenant : Option Text
  openItems : List OpenItem
  shownItems : List UInt64
  openSeq : UInt64
  toasts : List Toast
  toastSeq : UInt64
  /-- The parked snapshots. -/
  store : Text → Option (List OpenItem)

/-- A session with nothing parked. -/
def Session.new : Session := ⟨none, [], [], 0, [], 0, fun _ => none⟩

def maxOpenItems : Nat := 8

def maxToasts : Nat := 5

def maxShown : Nat := 2

namespace Session

/-! ## The one write path -/

def workspaceKeyOf (tenantId : Text) : Text := "azapptoolkit:workspace:".toList ++ tenantId

def workspaceKey (s : Session) : Option Text := s.activeTenant.map workspaceKeyOf

/-- `update_open_items`; `saved` says whether the write to the store arrives. -/
def updateOpenItems (saved : Bool) (f : List OpenItem → List OpenItem) (s : Session) : Session :=
  let s := { s with openItems := f s.openItems }
  match s.workspaceKey with
  | some key =>
    if saved then { s with store := fun k => if k = key then some s.openItems else s.store k } else s
  | none => s

/-- The clock: the tick, and the session after it. -/
def tick (s : Session) : UInt64 × Session := (s.openSeq, { s with openSeq := s.openSeq + 1 })

def isOpen (kind : OpenItemKind) (entityId : Text) (s : Session) : Option UInt64 :=
  (s.openItems.find? (fun it => it.kind == kind && it.entityId == entityId)).map (·.id)

/-- `list.iter_mut().find(..)`: the first item of the id is changed. -/
def changeFirst (id : UInt64) (f : OpenItem → OpenItem) : List OpenItem → List OpenItem
  | [] => []
  | it :: list => if it.id = id then f it :: list else it :: changeFirst id f list

/-- The first of those that were focused longest ago. -/
def lruPosition (list : List OpenItem) : Option Nat :=
  list.findIdx? (fun it => list.all (fun other => it.focusedAt ≤ other.focusedAt))

/-- `max_by_key`: the last of those that were focused last. -/
def mostRecent (list : List OpenItem) : Option OpenItem :=
  list.reverse.find? (fun it => list.all (fun other => other.focusedAt ≤ it.focusedAt))

/-! ## Toasts -/

/-- The loop of `push`, with as many rounds as there are toasts. -/
def dropToasts : Nat → List Toast → List Toast
  | 0, list => list
  | n + 1, list =>
    if list.length > maxToasts then
      dropToasts n (list.eraseIdx ((list.dropLast.findIdx? (fun t => !t.isSticky)).getD 0))
    else list

def push (kind : ToastKind) (message : Text) (actionLabel : Option Text) (action : Option ToastAction)
    (dedupeKey : Option Text) (s : Session) : UInt64 × Session :=
  let showing := dedupeKey.bind (fun key => s.toasts.find? (fun t => t.dedupeKey == some key))
  match showing with
  | some t => (t.id, s)
  | none =>
    let id := s.toastSeq
    let list := s.toasts ++ [⟨id, kind, message, actionLabel, action, dedupeKey⟩]
    (id, { s with toastSeq := id + 1, toasts := dropToasts list.length list })

def dismissToast (id : UInt64) (s : Session) : Session :=
  { s with toasts := s.toasts.filter (fun t => t.id != id) }

/-! ## The working set -/

def setOpenItemTitle (saved : Bool) (id : UInt64) (title : Text) (s : Session) : Session :=
  if s.openItems.any (fun it => it.id == id && it.title != title) then
    s.updateOpenItems saved (changeFirst id (fun it => { it with title := title }))
  else s

def showItem (id : UInt64) (split : Bool) (shown : List UInt64) : List UInt64 :=
  if split then
    let shown := if shown.contains id then shown else shown ++ [id]
    shown.drop (shown.length - maxShown)
  else [id]

def focusItem (saved : Bool) (id : UInt64) (split : Bool) (s : Session) : Session :=
  let stale := (mostRecent s.openItems).map (·.id) != some id
  let s :=
    if stale then
      let now := s.tick
      now.2.updateOpenItems saved (changeFirst id (fun it => { it with focusedAt := now.1 }))
    else s
  { s with shownItems := showItem id split s.shownItems }

/-- What the push of one more item leaves, and what it evicts. -/
def pushItem (item : OpenItem) (list : List OpenItem) : List OpenItem × Option OpenItem :=
  let list := list ++ [item]
  if list.length > maxOpenItems then
    match lruPosition list with
    | some pos => (list.eraseIdx pos, list[pos]?)
    | none => (list, none)
  else (list, none)

def evictedMessage (title : Text) : Text :=
  "Open dock is full (8) — closed \"".toList ++ title ++ "\".".toList

/-- The toast that names what left and offers it back. -/
def offerBack (evicted : Option OpenItem) (s : Session) : Session :=
  match evicted with
  | none => s
  | some item =>
    let s := { s with shownItems := s.shownItems.filter (fun id => id != item.id) }
    (s.push .info (evictedMessage item.title) (some "Reopen".toList)
      (some (.reopen item.kind item.entityId item.title item.openedIn)) none).2

/-- `open_item`; `openedIn` is where the operator opened it, `saved` is asked once for each write. -/
def openItem (saved : Nat → Bool) (openedIn : Option Text) (kind : OpenItemKind) (entityId title : Text)
    (s : Session) : UInt64 × Session :=
  match s.isOpen kind entityId with
  | some existing =>
    (existing, (s.setOpenItemTitle (saved 0) existing title).focusItem (saved 1) existing false)
  | none =>
    let id := s.tick.1
    let item : OpenItem := ⟨id, kind, entityId, title, id, openedIn⟩
    let evicted := (pushItem item s.openItems).2
    let s := s.tick.2.updateOpenItems (saved 0) (fun list => (pushItem item list).1)
    (id, (s.offerBack evicted).focusItem (saved 1) id false)

def closeItem (saved : Bool) (id : UInt64) (s : Session) : Session :=
  let s := s.updateOpenItems saved (fun list => list.filter (fun it => it.id != id))
  { s with shownItems := s.shownItems.filter (fun shown => shown != id) }

def closeAllItems (saved : Bool) (s : Session) : Session :=
  { s.updateOpenItems saved (fun _ => []) with shownItems := [] }

def closeItemByEntity (saved : Bool) (kind : OpenItemKind) (entityId : Text) (s : Session) : Session :=
  match s.isOpen kind entityId with
  | some id => s.closeItem saved id
  | none => s

/-! ## Switching the tenant -/

/-- One entry of a snapshot: into the slot of the same entity, or behind the others unless its id is
    taken. -/
def keepRestored (out : List OpenItem × List UInt64) (item : OpenItem) : List OpenItem × List UInt64 :=
  if out.1.any (fun it => it.kind == item.kind && it.entityId == item.entityId) then
    (replaceFirst out.1, out.2)
  else if out.2.contains item.id then out
  else (out.1 ++ [item], out.2 ++ [item.id])
where
  replaceFirst : List OpenItem → List OpenItem
    | [] => []
    | it :: list =>
      if it.kind == item.kind && it.entityId == item.entityId then
        (if it.focusedAt < item.focusedAt then { item with id := it.id } else it) :: list
      else it :: replaceFirst list

/-- The loop that cuts a snapshot to the cap, with as many rounds as there are items. -/
def dropOldest : Nat → List OpenItem → List OpenItem
  | 0, list => list
  | n + 1, list =>
    if list.length > maxOpenItems then
      match lruPosition list with
      | some pos => dropOldest n (list.eraseIdx pos)
      | none => list
    else list

def sanitizeRestored (list : List OpenItem) : List OpenItem :=
  let out := (list.foldl keepRestored ([], [])).1
  dropOldest out.length out

/-- `restore_open_items`; `loaded` says whether the read of the store arrives. -/
def restoreOpenItems (loaded : Bool) (s : Session) : Session :=
  match s.workspaceKey with
  | none => s
  | some key =>
    match (if loaded then s.store key else none) with
    | none => s
    | some raw =>
      let restored := sanitizeRestored raw
      match restored.map (fun it => max it.focusedAt it.id) with
      | [] => s
      | first :: rest =>
        { s with
          openSeq := max s.openSeq (rest.foldl max first + 1)
          openItems := restored }

def setActiveTenant (loaded : Bool) (tenant : Option Text) (s : Session) : Session :=
  restoreOpenItems loaded { s with activeTenant := tenant, openItems := [], shownItems := [] }

end Session

/-! ## Runs -/

inductive Event where
  | openItem (kind : OpenItemKind) (entityId title : Text)
  | focusItem (id : UInt64) (split : Bool)
  | closeItem (id : UInt64)
  | closeAllItems
  | closeItemByEntity (kind : OpenItemKind) (entityId : Text)
  | setOpenItemTitle (id : UInt64) (title : Text)
  /-- A toast of anyone else's; its action, if it has one, is not a Reopen. -/
  | pushToast (kind : ToastKind) (message : Text) (actionLabel : Option Text) (hasAction : Bool)
      (dedupeKey : Option Text)
  | dismissToast (id : UInt64)
  | setActiveTenant (tenant : Option Text)
  /-- The action of a toast that is showing is run. -/
  | runAction (toast : Toast)

/-- An action is run only while its toast is showing. -/
def Event.Possible (s : Session) : Event → Prop
  | .runAction toast => toast ∈ s.toasts
  | _ => True

instance (s : Session) : (e : Event) → Decidable (e.Possible s)
  | .runAction toast => inferInstanceAs (Decidable (toast ∈ s.toasts))
  | .openItem .. => isTrue trivial
  | .focusItem .. => isTrue trivial
  | .closeItem .. => isTrue trivial
  | .closeAllItems => isTrue trivial
  | .closeItemByEntity .. => isTrue trivial
  | .setOpenItemTitle .. => isTrue trivial
  | .pushToast .. => isTrue trivial
  | .dismissToast .. => isTrue trivial
  | .setActiveTenant .. => isTrue trivial

/-- What the event does; `saved` and `loaded` say which accesses to the store arrive. -/
def Event.apply (saved : Nat → Bool) (loaded : Bool) (s : Session) : Event → Session
  | .openItem kind entityId title => (s.openItem saved s.activeTenant kind entityId title).2
  | .focusItem id split => s.focusItem (saved 0) id split
  | .closeItem id => s.closeItem (saved 0) id
  | .closeAllItems => s.closeAllItems (saved 0)
  | .closeItemByEntity kind entityId => s.closeItemByEntity (saved 0) kind entityId
  | .setOpenItemTitle id title => s.setOpenItemTitle (saved 0) id title
  | .pushToast kind message actionLabel hasAction dedupeKey =>
    (s.push kind message actionLabel (if hasAction then some .other else none) dedupeKey).2
  | .dismissToast id => s.dismissToast id
  | .setActiveTenant tenant => s.setActiveTenant loaded tenant
  | .runAction toast =>
    match toast.action with
    | some (.reopen kind entityId title openedIn) => (s.openItem saved openedIn kind entityId title).2
    | _ => s

def Step (s : Session) (e : Event) (s' : Session) : Prop :=
  e.Possible s ∧ ∃ saved loaded, s' = e.apply saved loaded s

end Workspace
