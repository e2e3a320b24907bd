import AzAppToolkit.Lib.Json
import AzAppToolkit.Tester.Reads

set_option autoImplicit false

/-! # Edits of the definitions an application publishes

The pure part of `commands/expose_api.rs` and `commands/app_roles.rs`: the application ID URIs, the
delegated scopes, the clients pre-authorized for them, and the app roles. Microsoft Graph replaces each
array whole, so every edit merges one change into the live array.

Roles stay the JSON values Graph sent. The `new` of an edit is the GUID that is generated where an entry is
created. -/

namespace Definitions

open Text (eqIgnoreAsciiCase trim)
open Tester (UiError isGuid)

/-! ## Data -/

structure OAuth2PermissionScope where
  id : Text
  value : Text
  adminConsentDisplayName : Option Text
  adminConsentDescription : Option Text
  userConsentDisplayName : Option Text
  userConsentDescription : Option Text
  type : Option Text
  isEnabled : Option Bool

structure PreAuthorizedApplication where
  appId : Text
  delegatedPermissionIds : List Text

structure ApiApplication where
  oauth2PermissionScopes : List OAuth2PermissionScope
  preAuthorizedApplications : List PreAuthorizedApplication

structure ApplicationExposeApi where
  identifierUris : List Text
  api : ApiApplication

structure UpsertApiScopeInput where
  id : Option Text
  value : Text
  scopeType : Text
  adminConsentDisplayName : Text
  adminConsentDescription : Text
  userConsentDisplayName : Option Text
  userConsentDescription : Option Text
  isEnabled : Bool

structure SetPreAuthorizedAppInput where
  clientAppId : Text
  scopeIds : List Text

structure AppRoleInput where
  id : Option Text
  displayName : Text
  value : Text
  description : Option Text
  allowedMemberTypes : List Text
  isEnabled : Bool

def refuse {α : Type} (code : String) (message : Text) : Except UiError α := .error ⟨code.toList, message⟩

/-- `UiError::not_found`. -/
def notFound {α : Type} (resource : String) (message : Text) : Except UiError α :=
  .error ⟨resource.toList ++ "_not_found".toList, message⟩

/-- `as_deref().map(str::trim).filter(|s| !s.is_empty())`. -/
def trimmed (s : Option Text) : Option Text := (s.map trim).filter fun s => !s.isEmpty

/-! ## Application ID URIs -/

def validateIdentifierUri (uri : Text) : Except UiError Unit :=
  if uri.isEmpty then
    refuse "invalid_identifier_uri" "Application ID URI cannot be empty.".toList
  else if uri.any isWhitespace then
    refuse "invalid_identifier_uri"
      ("Application ID URI '".toList ++ uri ++ "' cannot contain whitespace.".toList)
  else if !List.contains uri ':' then
    refuse "invalid_identifier_uri" ("Application ID URI '".toList ++ uri ++
      "' must include a scheme (e.g. api://… or https://…).".toList)
  else .ok ()

def planUriAdd (live : List Text) (uri : Text) : Except UiError (List Text) := do
  let uri := trim uri
  validateIdentifierUri uri
  if live.any fun u => eqIgnoreAsciiCase (trim u) uri then
    refuse "duplicate_identifier_uri"
      ("Application ID URI '".toList ++ uri ++ "' is already set.".toList)
  else .ok (live ++ [uri])

def planUriRemoval (live : List Text) (uri : Text) : Option (List Text) :=
  let kept := live.filter fun u => !eqIgnoreAsciiCase (trim u) (trim uri)
  if kept.length ≠ live.length then some kept else none

/-! ## Scopes -/

def validateScopeInput (input : UpsertApiScopeInput) : Except UiError Unit :=
  let value := trim input.value
  if value.isEmpty then refuse "invalid_scope" "Scope name is required.".toList
  else if value.any isWhitespace then
    refuse "invalid_scope" "Scope name cannot contain spaces.".toList
  else if input.scopeType ≠ "Admin".toList ∧ input.scopeType ≠ "User".toList then
    refuse "invalid_scope"
      "Who can consent must be 'Admin' (admins only) or 'User' (admins and users).".toList
  else if (trim input.adminConsentDisplayName).isEmpty || (trim input.adminConsentDescription).isEmpty then
    refuse "invalid_scope" "Admin consent display name and description are required.".toList
  else .ok ()

def buildScope (input : UpsertApiScopeInput) (id : Text) : OAuth2PermissionScope where
  id := id
  value := trim input.value
  adminConsentDisplayName := some (trim input.adminConsentDisplayName)
  adminConsentDescription := some (trim input.adminConsentDescription)
  userConsentDisplayName := trimmed input.userConsentDisplayName
  userConsentDescription := trimmed input.userConsentDescription
  type := some input.scopeType
  isEnabled := some input.isEnabled

/-- `iter_mut().find(..)`: the first element that `p` holds of becomes `f` of it. -/
def changeFirst {α : Type} (p : α → Bool) (f : α → α) : List α → List α
  | [] => []
  | x :: l => if p x then f x :: l else x :: changeFirst p f l

def mergeScope (scopes : List OAuth2PermissionScope) (scope : OAuth2PermissionScope) (isEdit : Bool) :
    Except UiError (List OAuth2PermissionScope) :=
  if scopes.any fun s => s.id != scope.id && eqIgnoreAsciiCase s.value scope.value then
    refuse "duplicate_scope_value"
      ("A scope named '".toList ++ scope.value ++ "' already exists on this API.".toList)
  else if isEdit then
    if scopes.any fun s => s.id == scope.id then
      .ok (changeFirst (fun s => s.id == scope.id) (fun _ => scope) scopes)
    else
      notFound "scope" "Scope no longer exists on the application; refresh and retry.".toList
  else .ok (scopes ++ [scope])

structure ScopeRemoval where
  disableFirst : Option (List OAuth2PermissionScope)
  scopes : List OAuth2PermissionScope
  preAuthorized : List PreAuthorizedApplication

/-- A scope whose `isEnabled` is missing counts as enabled. -/
def OAuth2PermissionScope.enabled (s : OAuth2PermissionScope) : Bool := s.isEnabled.getD true

def planScopeRemoval (api : ApiApplication) (scopeId : Text) : Option ScopeRemoval :=
  (api.oauth2PermissionScopes.find? fun s => s.id == scopeId).map fun target =>
    { disableFirst :=
        if target.enabled then
          some (api.oauth2PermissionScopes.map fun s =>
            if s.id == scopeId then { s with isEnabled := some false } else s)
        else none
      scopes := api.oauth2PermissionScopes.filter fun s => s.id != scopeId
      preAuthorized :=
        (api.preAuthorizedApplications.map fun p =>
          { p with delegatedPermissionIds := p.delegatedPermissionIds.filter fun id => id != scopeId }).filter
            fun p => !p.delegatedPermissionIds.isEmpty }

/-! ## Pre-authorized clients -/

def upsertPreAuthorized (list : List PreAuthorizedApplication) (clientAppId : Text)
    (scopeIds : List Text) : List PreAuthorizedApplication :=
  if list.any fun p => eqIgnoreAsciiCase p.appId clientAppId then
    changeFirst (fun p => eqIgnoreAsciiCase p.appId clientAppId)
      (fun p => { p with delegatedPermissionIds := scopeIds }) list
  else list ++ [⟨clientAppId, scopeIds⟩]

/-- The scope ids of the input, each once. -/
def scopeIdsOf (input : SetPreAuthorizedAppInput) : List Text := Text.dedup (Text.sort input.scopeIds)

/-- What `set_pre_authorized_app` refuses before it reads. -/
def validatePreAuthorizedInput (input : SetPreAuthorizedAppInput) : Except UiError Unit :=
  if !isGuid (trim input.clientAppId) then
    refuse "invalid_client_app_id"
      "Client ID must be the application (client) ID GUID of the client app.".toList
  else if (scopeIdsOf input).isEmpty then
    refuse "no_scopes_selected" "Select at least one scope to authorize.".toList
  else .ok ()

def planPreAuthorized (api : ApiApplication) (input : SetPreAuthorizedAppInput) :
    Except UiError (List PreAuthorizedApplication) :=
  match (scopeIdsOf input).find? fun id => !api.oauth2PermissionScopes.any fun s => s.id == id with
  | some unknown => refuse "unknown_scope_id"
      ("Scope ".toList ++ unknown ++ " is not defined on this API; refresh and retry.".toList)
  | none => .ok (upsertPreAuthorized api.preAuthorizedApplications (trim input.clientAppId)
      (scopeIdsOf input))

def planPreAuthorizedRemoval (list : List PreAuthorizedApplication) (clientAppId : Text) :
    Option (List PreAuthorizedApplication) :=
  let kept := list.filter fun p => !eqIgnoreAsciiCase p.appId clientAppId
  if kept.length = list.length then none else some kept

/-! ## App roles -/

section Roles

variable {N : Type}

def roleId (role : Json N) : Option Text := (role.get "id".toList).bind Json.asStr

def roleValue (role : Json N) : Text := ((role.get "value".toList).bind Json.asStr).getD []

/-- A role without a value is a default that Entra publishes. -/
def isBuiltin (role : Json N) : Bool := (trim (roleValue role)).isEmpty

/-- A role whose `isEnabled` is missing counts as enabled. -/
def roleEnabled (role : Json N) : Bool := ((role.get "isEnabled".toList).bind Json.asBool).getD true

def validateRoleInput (input : AppRoleInput) : Except UiError Unit :=
  let displayName := trim input.displayName
  let value := trim input.value
  if displayName.isEmpty then refuse "invalid_app_role" "Display name is required.".toList
  else if 100 < displayName.length then
    refuse "invalid_app_role" "Display name can be at most 100 characters.".toList
  else if value.isEmpty then refuse "invalid_app_role" "Value is required.".toList
  else if 250 < value.length then
    refuse "invalid_app_role" "Value can be at most 250 characters.".toList
  else if value.any isWhitespace then
    refuse "invalid_app_role" "Value cannot contain spaces.".toList
  else if value.head? = some '.' then
    refuse "invalid_app_role" "Value cannot start with a period.".toList
  else if input.allowedMemberTypes.isEmpty then
    refuse "invalid_app_role" "Select at least one allowed member type.".toList
  else if input.allowedMemberTypes.any fun t => t != "User".toList && t != "Application".toList then
    refuse "invalid_app_role" "Allowed member types must be 'User' and/or 'Application'.".toList
  else .ok ()

/-- The fields of the input, put over those of the role. -/
def applyInput (fields : List (Text × Json N)) (input : AppRoleInput) : List (Text × Json N) :=
  let fields := Json.insert "displayName".toList (.string (trim input.displayName)) fields
  let fields := Json.insert "description".toList
    (match trimmed input.description with
      | some d => .string d
      | none => .null) fields
  let fields := Json.insert "value".toList (.string (trim input.value)) fields
  let fields := Json.insert "allowedMemberTypes".toList
    (.array (input.allowedMemberTypes.map .string)) fields
  Json.insert "isEnabled".toList (.bool input.isEnabled) fields

def mergeRole (new : Text) (roles : List (Json N)) (input : AppRoleInput) (id : Option Text) :
    Except UiError (List (Json N)) :=
  let value := trim input.value
  if roles.any fun r => roleId r != id && eqIgnoreAsciiCase (roleValue r) value then
    refuse "duplicate_app_role_value"
      ("An app role with value '".toList ++ value ++ "' already exists on this app.".toList)
  else
    match id with
    | some id =>
      match roles.find? fun r => roleId r == some id with
      | none =>
        notFound "app_role" "App role no longer exists on the app; refresh and retry.".toList
      | some target =>
        if isBuiltin target then
          refuse "builtin_app_role" "The built-in default app role can't be modified.".toList
        else
          match target.asObject with
          | none =>
            refuse "invalid_app_role" "App role has an unexpected shape; refresh and retry.".toList
          | some fields => .ok (changeFirst (fun r => roleId r == some id)
              (fun _ => .object (applyInput fields input)) roles)
    | none => .ok (roles ++ [.object (applyInput (Json.insert "id".toList (.string new) []) input)])

structure RoleRemoval (N : Type) where
  disableFirst : Option (List (Json N))
  roles : List (Json N)

/-- The role with `isEnabled` false. -/
def disabled : Json N → Json N
  | .object fields => .object (Json.insert "isEnabled".toList (.bool false) fields)
  | role => role

def planRoleRemoval (roles : List (Json N)) (targetId : Text) :
    Except UiError (Option (RoleRemoval N)) :=
  match roles.find? fun r => roleId r == some targetId with
  | none => .ok none
  | some target =>
    if isBuiltin target then
      refuse "builtin_app_role" "The built-in default app role can't be deleted.".toList
    else .ok (some
      { disableFirst :=
          if roleEnabled target then
            some (roles.map fun r => if roleId r == some targetId then disabled r else r)
          else none
        roles := roles.filter fun r => roleId r != some targetId })

end Roles

end Definitions
