import AzAppToolkit.Lib.Cuts
import AzAppToolkit.Lib.Gates
import AzAppToolkit.Lib.Slices
import AzAppToolkit.Tester.Site

set_option autoImplicit false

/-! # The record of item scopes

`commands/sharepoint_item_scopes.rs`: the tags of an app registration that record its grants below the
site, and the two writers, which read the tags, change them and write all of them back under the gate
`{tenant}|app_tags|{object}` of `AppState::single_flight`. The other callers of `single_flight` and the
sweep of `forget_tenant` are calls and sweeps of the same table of gates (`Gates`); a fetch that takes a
second gate while it has one is two calls.

A resource of the table is the tags of one application, named by the tenant and the object id as the
callers write them. The messages of `remember`, which depend on the scopes alone, are left out. -/

namespace Sharepoint

open Tester (SelectedScopeLevel isGuid)
open Slices (byteLength)

/-! ## The codec of a tag -/

structure ItemScopeRef where
  level : SelectedScopeLevel
  siteId : Text
  listId : Text
  itemId : Option Text
deriving DecidableEq

def tagFamily : Text := "azapptoolkit:spItem:".toList

def tagV1 : Text := "v1|".toList

/-- Entra's limit on one application tag. -/
def maxTagLen : Nat := 256

def levelCode : SelectedScopeLevel → Option Text
  | .list => some "list".toList
  | .listItem => some "list_item".toList
  | .file => some "file".toList
  | .site => none

def parseLevel (code : Text) : Option SelectedScopeLevel :=
  if code = "list".toList then some .list
  else if code = "list_item".toList then some .listItem
  else if code = "file".toList then some .file
  else none

def isHostChar (c : Char) : Bool := c.isAlphanum || c == '.' || c == '-'

/-- `{hostname},{site collection GUID},{web GUID}`. -/
def isSiteId (siteId : Text) : Bool :=
  match Text.splitOn (· == ',') siteId with
  | [host, collection, web] => !host.isEmpty && host.all isHostChar && isGuid collection && isGuid web
  | _ => false

def isItemOk : SelectedScopeLevel → Option Text → Bool
  | .list, none => true
  | .listItem, some item => !item.isEmpty && item.all Char.isDigit
  | .file, some item => !item.isEmpty && item.all Char.isDigit
  | _, _ => false

/-- A list has no item id, an item has a numeric one. -/
def isValidScope (scope : ItemScopeRef) : Bool :=
  isItemOk scope.level scope.itemId && isSiteId scope.siteId && isGuid scope.listId

/-- What stands behind the family and the version, between bars. -/
def tagParts (code : Text) (scope : ItemScopeRef) : List Text :=
  match scope.itemId with
  | none => [code, scope.siteId, scope.listId]
  | some item => [code, scope.siteId, scope.listId, item]

def encodeTag (scope : ItemScopeRef) : Option Text :=
  if isValidScope scope then
    match levelCode scope.level with
    | none => none
    | some code =>
      let tag := tagFamily ++ tagV1 ++ Text.join ['|'] (tagParts code scope)
      if byteLength tag ≤ maxTagLen then some tag else none
  else none

def stripPrefix (start s : Text) : Option Text :=
  if start.isPrefixOf s then some (s.drop start.length) else none

def scopeOfParts (level siteId listId : Text) (itemId : Option Text) : Option ItemScopeRef :=
  match parseLevel level with
  | none => none
  | some level =>
    let scope : ItemScopeRef := ⟨level, siteId, listId, itemId⟩
    if isValidScope scope then some scope else none

def decodeV1 (rest : Text) : Option ItemScopeRef :=
  match stripPrefix tagV1 rest with
  | none => none
  | some body =>
    match Text.splitOn (· == '|') body with
    | [level, siteId, listId] => scopeOfParts level siteId listId none
    | [level, siteId, listId, itemId] => scopeOfParts level siteId listId (some itemId)
    | _ => none

/-- Not a record tag, or one that may be of no use. -/
def decodeTag (tag : Text) : Option (Option ItemScopeRef) := (stripPrefix tagFamily tag).map decodeV1

/-- `decode_tag(tag).flatten()`. -/
def scopeOfTag (tag : Text) : Option ItemScopeRef := (decodeTag tag).join

/-! ## Record writes -/

/-- The tags that are to be there. -/
def wantedOf (scopes : List ItemScopeRef) : List Text := scopes.filterMap encodeTag

def pushTag (tags : List Text) (tag : Text) : List Text := if tags.contains tag then tags else tags ++ [tag]

/-- The tags to write back, if there are more of them than there were. -/
def rememberEdit (scopes : List ItemScopeRef) (tags : List Text) : Option (List Text) :=
  let pushed := (wantedOf scopes).foldl pushTag tags
  if pushed.length ≠ tags.length then some pushed else none

def forgetEdit (scope : ItemScopeRef) (tags : List Text) : Option (List Text) :=
  let kept := tags.filter (fun tag => scopeOfTag tag ≠ some scope)
  if kept.length ≠ tags.length then some kept else none

/-! ## The calls of `single_flight` -/

/-- `AppState::MAX_INFLIGHT_GATES`. -/
def maxInflightGates : Nat := 64

/-- `tags_gate`. -/
def tagsGate (object : Text × Text) : Text := object.1 ++ "|app_tags|".toList ++ object.2

inductive GateCall where
  | remember (object : Text × Text) (scopes : List ItemScopeRef)
  | forget (object : Text × Text) (scope : ItemScopeRef)
  /-- A fetch of the gallery, the search corpus or a tenant's lists. -/
  | fetch (key : Text)

def GateCall.key : GateCall → Text
  | .remember object _ => tagsGate object
  | .forget object _ => tagsGate object
  | .fetch key => key

/-- A `remember` with no tag to write returns at once. -/
def GateCall.work : GateCall → Option ((Text × Text) × (List Text → Option (List Text)))
  | .remember object scopes => if (wantedOf scopes).isEmpty then none else some (object, rememberEdit scopes)
  | .forget object scope => some (object, forgetEdit scope)
  | .fetch _ => none

theorem GateCall.key_of_work {call : GateCall} {object : Text × Text} {edit : List Text → Option (List Text)}
    (h : call.work = some (object, edit)) : call.key = tagsGate object := by
  cases call with
  | remember object' scopes =>
    rw [GateCall.work] at h
    split at h
    · exact nomatch h
    · obtain ⟨rfl, -⟩ := Prod.mk.inj (Option.some.inj h)
      rfl
  | forget object' scope =>
    obtain ⟨rfl, -⟩ := Prod.mk.inj (Option.some.inj h)
    rfl
  | fetch key => exact nomatch h

def gateCalls : Gates.Calls GateCall Text (Text × Text) (List Text) where
  key := GateCall.key
  work := GateCall.work
  keyed := fun h h' => (GateCall.key_of_work h).trans (GateCall.key_of_work h').symm

/-- `forget_tenant` drops the idle gates of the tenant. -/
def keepsOther (tenant key : Text) : Bool := !(tenant ++ ['|']).isPrefixOf key

abbrev TagState := Gates.State GateCall Text (Text × Text) (List Text)

abbrev TagEntry := Gates.Entry GateCall (List Text)

abbrev TagEvent := Gates.Event GateCall Text

abbrev TagStep := Gates.Step gateCalls maxInflightGates

/-! ## The list -/

/-- One tag, as `list_app_item_scopes_with` goes through them: a scope that was seen is not told again. -/
def readTag (read : Nat × List ItemScopeRef) (tag : Text) : Nat × List ItemScopeRef :=
  match decodeTag tag with
  | none => read
  | some none => (read.1 + 1, read.2)
  | some (some scope) => if read.2.contains scope then read else (read.1, read.2 ++ [scope])

/-- How many record tags are malformed, and the scopes that are recorded. -/
def readTags (tags : List Text) : Nat × List ItemScopeRef := tags.foldl readTag (0, [])

end Sharepoint
