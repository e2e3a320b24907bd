import AzAppToolkit.App.Redirect
import AzAppToolkit.Lib.JsonPatch
import AzAppToolkit.Sharepoint.Resolve

set_option autoImplicit false

/-! # The sign-in forms of an application

`set_saml_urls_core` and `set_oidc_redirect_uris_core` of `sso/config.rs`, `set_application_authentication`
of `authentication.rs`, and the two readers of what they write. The three clear a logout URL, and trim
what they were given, each in its own way: a form is read back as it was saved only if it needs neither
of what its writer leaves out. -/

namespace SignInForms

open Prog
open Graph (GraphError)
open Resolver (requirePathSegment)

variable {N : Type}

/-! ## Data -/

structure UiError where
  code : Text
  message : Text
deriving DecidableEq

structure ApplicationAuthenticationDto where
  webRedirectUris : List Text
  spaRedirectUris : List Text
  publicClientRedirectUris : List Text
  logoutUrl : Option Text
  isFallbackPublicClient : Bool
  enableAccessTokenIssuance : Bool
  enableIdTokenIssuance : Bool

structure ImplicitGrantSettingsPatch where
  enableAccessTokenIssuance : Option Bool
  enableIdTokenIssuance : Option Bool

structure ApplicationWebPatch where
  redirectUris : Option (List Text)
  logoutUrl : Option Text
  implicitGrantSettings : Option ImplicitGrantSettingsPatch

structure ApplicationSpaPatch where
  redirectUris : Option (List Text)

structure ApplicationPublicClientPatch where
  redirectUris : Option (List Text)

structure ApplicationSsoPatch where
  identifierUris : Option (List Text)
  web : Option ApplicationWebPatch
  spa : Option ApplicationSpaPatch

structure ApplicationAuthenticationPatch where
  web : Option ApplicationWebPatch
  spa : Option ApplicationSpaPatch
  publicClient : Option ApplicationPublicClientPatch
  isFallbackPublicClient : Option Bool

/-! ## The bodies -/

def identifierUrisName : Text := "identifierUris".toList

def webName : Text := "web".toList

def spaName : Text := "spa".toList

def publicClientName : Text := "publicClient".toList

def redirectUrisName : Text := "redirectUris".toList

def logoutUrlName : Text := "logoutUrl".toList

def implicitGrantSettingsName : Text := "implicitGrantSettings".toList

def accessTokenName : Text := "enableAccessTokenIssuance".toList

def idTokenName : Text := "enableIdTokenIssuance".toList

def fallbackName : Text := "isFallbackPublicClient".toList

/-- A field that is left out where it is not set. -/
def field {α : Type} (name : Text) (value : Option α) (toValue : α → Json N) :
    List (Text × Json N) :=
  (value.map (fun v => (name, toValue v))).toList

def stringArray (l : List Text) : Json N := .array (l.map .string)

def ImplicitGrantSettingsPatch.toValue (p : ImplicitGrantSettingsPatch) : Json N :=
  .object (field accessTokenName p.enableAccessTokenIssuance .bool ++
    field idTokenName p.enableIdTokenIssuance .bool)

def ApplicationWebPatch.toValue (p : ApplicationWebPatch) : Json N :=
  .object (field redirectUrisName p.redirectUris stringArray ++
    (field logoutUrlName p.logoutUrl .string ++
      field implicitGrantSettingsName p.implicitGrantSettings ImplicitGrantSettingsPatch.toValue))

def ApplicationSpaPatch.toValue (p : ApplicationSpaPatch) : Json N :=
  .object (field redirectUrisName p.redirectUris stringArray)

def ApplicationPublicClientPatch.toValue (p : ApplicationPublicClientPatch) : Json N :=
  .object (field redirectUrisName p.redirectUris stringArray)

def ApplicationSsoPatch.toValue (p : ApplicationSsoPatch) : Json N :=
  .object (field identifierUrisName p.identifierUris stringArray ++
    (field webName p.web ApplicationWebPatch.toValue ++
      field spaName p.spa ApplicationSpaPatch.toValue))

def ApplicationAuthenticationPatch.toValue (p : ApplicationAuthenticationPatch) : Json N :=
  .object (field webName p.web ApplicationWebPatch.toValue ++
    (field spaName p.spa ApplicationSpaPatch.toValue ++
      (field publicClientName p.publicClient ApplicationPublicClientPatch.toValue ++
        field fallbackName p.isFallbackPublicClient .bool)))

/-! ## The readers -/

def strVec (v : Option (Json N)) : List Text :=
  ((v.bind Json.asArray).map (fun a => a.filterMap Json.asStr)).getD []

/-- The four fields of the SSO tab. -/
structure SsoFields where
  identifierUris : List Text
  webRedirects : List Text
  logoutUrl : Option Text
  spaRedirectUris : List Text

def extractAppSsoFields (app : Json N) : SsoFields :=
  { identifierUris := strVec (app.get identifierUrisName)
    webRedirects := strVec ((app.get webName).bind (Json.get redirectUrisName))
    logoutUrl := (((app.get webName).bind (Json.get logoutUrlName)).bind Json.asStr).filter
      (fun s => !s.isEmpty)
    spaRedirectUris := strVec ((app.get spaName).bind (Json.get redirectUrisName)) }

def flag (obj : Option (Json N)) (key : Text) : Bool :=
  ((obj.bind (Json.get key)).bind Json.asBool).getD false

def extractAuthFields (v : Json N) : ApplicationAuthenticationDto :=
  let web := v.get webName
  let implicit := web.bind (Json.get implicitGrantSettingsName)
  let uris := fun parent => strVec ((v.get parent).bind (Json.get redirectUrisName))
  { webRedirectUris := uris webName
    spaRedirectUris := uris spaName
    publicClientRedirectUris := uris publicClientName
    logoutUrl := ((web.bind (Json.get logoutUrlName)).bind Json.asStr).filter (fun s => !s.isEmpty)
    isFallbackPublicClient := flag (some v) fallbackName
    enableAccessTokenIssuance := flag implicit accessTokenName
    enableIdTokenIssuance := flag implicit idTokenName }

/-! ## The writers -/

def validateRedirectUris : List Text → Except Text Unit
  | [] => .ok ()
  | u :: uris =>
    match App.Redirect.validateRedirectUri u with
    | .error reason => .error reason
    | .ok () => validateRedirectUris uris

def invalidRedirectUri (message : Text) : UiError := ⟨"invalid_redirect_uri".toList, message⟩

def invalidLogoutUrl (message : Text) : UiError := invalidRedirectUri ("Logout URL: ".toList ++ message)

def invalidSamlConfig (message : Text) : UiError := ⟨"invalid_saml_config".toList, message⟩

inductive Call (N : Type) where
  | patchApplication (objectId : Text) (body : Json N)
  | invalidateAppDetails
  | invalidateAppDetailState

abbrev Answer : Call N → Type
  | .patchApplication _ _ => Except GraphError Unit
  | .invalidateAppDetails => Unit
  | .invalidateAppDetailState => Unit

abbrev Async (N α : Type) := @Prog (Call N) Answer α

def objectIdName : Text := "object id".toList

def patchApplicationWeb (objectId : Text) (body : Json N) : Async N (Except GraphError Unit) :=
  match requirePathSegment objectIdName objectId with
  | .error err => pure (.error err)
  | .ok () => call (Call.patchApplication objectId body)

/-- Trimmed, without the empty rows. -/
def trimmedRows (l : List Text) : List Text := (l.map Text.trim).filter (fun s => !s.isEmpty)

def trimmedUrl (url : Option Text) : Option Text := (url.map Text.trim).filter (fun s => !s.isEmpty)

section Writers

variable (toUi : GraphError → UiError) (objectId : Text)

def samlBody (identifiers replies : List Text) (logoutUrl : Option Text) : Json N :=
  ApplicationSsoPatch.toValue ⟨some identifiers, some ⟨some replies, logoutUrl, none⟩, none⟩

def validateOptionalLogoutUrl : Option Text → Except Text Unit
  | none => .ok ()
  | some url => App.Redirect.validateLogoutUrl url

def setSamlUrlsCore (identifierUris replyUrls : List Text) (logoutUrl : Option Text) :
    Async N (Except UiError Unit) := do
  let identifiers := trimmedRows identifierUris
  let replies := trimmedRows replyUrls
  if identifiers.isEmpty then
    return .error (invalidSamlConfig "Enter at least one identifier (Entity ID).".toList)
  else if replies.isEmpty then
    return .error (invalidSamlConfig "Enter at least one reply URL (ACS).".toList)
  else
    match validateRedirectUris replies with
    | .error reason => return .error (invalidRedirectUri reason)
    | .ok () =>
      match validateOptionalLogoutUrl (trimmedUrl logoutUrl) with
      | .error reason => return .error (invalidLogoutUrl reason)
      | .ok () =>
        -- A logout URL that is not set is left out of the body.
        match ← patchApplicationWeb objectId
            (samlBody identifiers replies (trimmedUrl logoutUrl)) with
        | .error err => return .error (toUi err)
        | .ok () => do
            call Call.invalidateAppDetails
            return .ok ()

def oidcBody (redirectUris spaRedirectUris : List Text) : Json N :=
  ApplicationSsoPatch.toValue ⟨none, some ⟨some redirectUris, none, none⟩, some ⟨some spaRedirectUris⟩⟩

def setOidcRedirectUrisCore (redirectUris spaRedirectUris : List Text) :
    Async N (Except UiError Unit) := do
  match validateRedirectUris redirectUris, validateRedirectUris spaRedirectUris with
  | .error reason, _ => return .error (invalidRedirectUri reason)
  | .ok (), .error reason => return .error (invalidRedirectUri reason)
  | .ok (), .ok () =>
    match ← patchApplicationWeb objectId (oidcBody redirectUris spaRedirectUris) with
    | .error err => return .error (toUi err)
    | .ok () => do
        call Call.invalidateAppDetails
        return .ok ()

/-- The validators trim what they check. -/
def validateAuthenticationInput (input : ApplicationAuthenticationDto) : Except UiError Unit :=
  match validateRedirectUris input.webRedirectUris with
  | .error reason => .error (invalidRedirectUri reason)
  | .ok () =>
    match validateRedirectUris input.spaRedirectUris with
    | .error reason => .error (invalidRedirectUri reason)
    | .ok () =>
      match validateRedirectUris input.publicClientRedirectUris with
      | .error reason => .error (invalidRedirectUri reason)
      | .ok () =>
        match validateOptionalLogoutUrl (trimmedUrl input.logoutUrl) with
        | .error reason => .error (invalidRedirectUri reason)
        | .ok () => .ok ()

/-- An empty string clears the logout URL. -/
def authenticationBody (input : ApplicationAuthenticationDto) : Json N :=
  ApplicationAuthenticationPatch.toValue
    { web := some
        { redirectUris := some input.webRedirectUris
          logoutUrl := some (input.logoutUrl.getD [])
          implicitGrantSettings :=
            some ⟨some input.enableAccessTokenIssuance, some input.enableIdTokenIssuance⟩ }
      spa := some ⟨some input.spaRedirectUris⟩
      publicClient := some ⟨some input.publicClientRedirectUris⟩
      isFallbackPublicClient := some input.isFallbackPublicClient }

def setApplicationAuthentication (input : ApplicationAuthenticationDto) :
    Async N (Except UiError Unit) := do
  match validateAuthenticationInput input with
  | .error err => return .error err
  | .ok () =>
    match ← patchApplicationWeb objectId (authenticationBody input) with
    | .error err => return .error (toUi err)
    | .ok () => do
        call Call.invalidateAppDetailState
        return .ok ()

/-- What is saved. -/
inductive Form where
  | saml (identifierUris replyUrls : List Text) (logoutUrl : Option Text)
  | oidc (redirectUris spaRedirectUris : List Text)
  | authentication (input : ApplicationAuthenticationDto)

def Form.save : Form → Async N (Except UiError Unit)
  | .saml identifierUris replyUrls logoutUrl =>
    setSamlUrlsCore toUi objectId identifierUris replyUrls logoutUrl
  | .oidc redirectUris spaRedirectUris =>
    setOidcRedirectUrisCore toUi objectId redirectUris spaRedirectUris
  | .authentication input => setApplicationAuthentication toUi objectId input

end Writers

/-! ## The directory -/

abbrev Directory (N : Type) := Text → Json N

def logoutPath : Json.Path := [webName, logoutUrlName]

def clearedLogout : Json N := .object [(webName, .object [(logoutUrlName, .null)])]

/-- The body replaces what it contains; an empty logout URL is cleared. -/
def patched (app body : Json N) : Json N :=
  if (Json.getPath logoutPath body).bind Json.asStr = some [] then
    (app.merge body).merge clearedLogout
  else app.merge body

/-- A patch is applied whole, or fails without effect. -/
def world : World (Answer (N := N)) (Directory N)
  | s, .patchApplication objectId body, r, s' =>
    match r with
    | .ok () => s' = Function.update s objectId (patched (s objectId) body)
    | .error _ => s' = s
  | s, .invalidateAppDetails, _, s' => s' = s
  | s, .invalidateAppDetailState, _, s' => s' = s

structure Step (N : Type) where
  objectId : Text
  form : Form
  before : Directory N
  result : Except UiError Unit
  after : Directory N

/-- One save after the other, with any answers. -/
inductive Runs (toUi : GraphError → UiError) : Directory N → List (Step N) → Directory N → Prop
  | start (s : Directory N) : Runs toUi s [] s
  | save {s₀ s s' : Directory N} {steps : List (Step N)} {objectId : Text} {form : Form}
      {result : Except UiError Unit} (hruns : Runs toUi s₀ steps s)
      (hexec : Exec world s (form.save toUi objectId) s' result) :
      Runs toUi s₀ (steps ++ [⟨objectId, form, s, result, s'⟩]) s'

/-! ## What is promised of a save -/

/-- The properties the form carries. -/
def Form.carried : Form → List Json.Path
  | .saml _ _ _ => [[identifierUrisName], [webName, redirectUrisName], logoutPath]
  | .oidc _ _ => [[webName, redirectUrisName], [spaName, redirectUrisName]]
  | .authentication _ =>
    [[webName, redirectUrisName], logoutPath, [webName, implicitGrantSettingsName, accessTokenName],
      [webName, implicitGrantSettingsName, idTokenName], [spaName, redirectUrisName],
      [publicClientName, redirectUrisName], [fallbackName]]

/-- Both readers see the input without surrounding whitespace, and a blank logout URL as none. -/
def ReadsBack : Form → Json N → Prop
  | .saml identifierUris replyUrls logoutUrl, app =>
    (extractAppSsoFields app).identifierUris = trimmedRows identifierUris ∧
      (extractAppSsoFields app).webRedirects = trimmedRows replyUrls ∧
      (extractAuthFields app).webRedirectUris = trimmedRows replyUrls ∧
      (extractAppSsoFields app).logoutUrl = trimmedUrl logoutUrl ∧
      (extractAuthFields app).logoutUrl = trimmedUrl logoutUrl
  | .oidc redirectUris spaRedirectUris, app =>
    (extractAppSsoFields app).webRedirects = trimmedRows redirectUris ∧
      (extractAuthFields app).webRedirectUris = trimmedRows redirectUris ∧
      (extractAppSsoFields app).spaRedirectUris = trimmedRows spaRedirectUris ∧
      (extractAuthFields app).spaRedirectUris = trimmedRows spaRedirectUris
  | .authentication input, app =>
    extractAuthFields app =
        { input with
          webRedirectUris := trimmedRows input.webRedirectUris
          spaRedirectUris := trimmedRows input.spaRedirectUris
          publicClientRedirectUris := trimmedRows input.publicClientRedirectUris
          logoutUrl := trimmedUrl input.logoutUrl } ∧
      (extractAppSsoFields app).webRedirects = trimmedRows input.webRedirectUris ∧
      (extractAppSsoFields app).spaRedirectUris = trimmedRows input.spaRedirectUris ∧
      (extractAppSsoFields app).logoutUrl = trimmedUrl input.logoutUrl

/-- The validator takes the string, and trims nothing off it. -/
def AcceptedAsIs (validate : Text → Except Text Unit) (url : Text) : Prop :=
  validate url = .ok () ∧ Text.trim url = url

/-- The URLs that are stored where the form stores them. -/
def StoredUrls : Form → Json N → Prop
  | .saml _ _ _, app =>
    (∀ u ∈ (extractAuthFields app).webRedirectUris, AcceptedAsIs App.Redirect.validateRedirectUri u) ∧
      ∀ u ∈ (extractAuthFields app).logoutUrl, AcceptedAsIs App.Redirect.validateLogoutUrl u
  | .oidc _ _, app =>
    (∀ u ∈ (extractAuthFields app).webRedirectUris, AcceptedAsIs App.Redirect.validateRedirectUri u) ∧
      ∀ u ∈ (extractAuthFields app).spaRedirectUris, AcceptedAsIs App.Redirect.validateRedirectUri u
  | .authentication _, app =>
    (∀ u ∈ (extractAuthFields app).webRedirectUris ++ (extractAuthFields app).spaRedirectUris ++
        (extractAuthFields app).publicClientRedirectUris,
      AcceptedAsIs App.Redirect.validateRedirectUri u) ∧
      ∀ u ∈ (extractAuthFields app).logoutUrl, AcceptedAsIs App.Redirect.validateLogoutUrl u

/-- A save that succeeded is read back and changes nothing else; one that failed changes nothing. -/
def Saved (step : Step N) : Prop :=
  match step.result with
  | .error _ => step.after = step.before
  | .ok () =>
    ReadsBack step.form (step.after step.objectId) ∧
      StoredUrls step.form (step.after step.objectId) ∧
      (∀ p, (∀ q ∈ step.form.carried, Json.Apart p q) →
        Json.getPath p (step.after step.objectId) = Json.getPath p (step.before step.objectId)) ∧
      ∀ other, other ≠ step.objectId → step.after other = step.before other

/-- The form asks for nothing that its writer leaves out: clearing a logout URL, or trimming. -/
def PlainlyFilled : Form → Json N → Prop
  | .saml _ _ logoutUrl, app =>
    trimmedUrl logoutUrl = none → (extractAppSsoFields app).logoutUrl = none
  | .oidc redirectUris spaRedirectUris, _ => ∀ u ∈ redirectUris ++ spaRedirectUris, Text.trim u = u
  | .authentication input, _ =>
    (∀ u ∈ input.webRedirectUris ++ input.spaRedirectUris ++ input.publicClientRedirectUris,
      Text.trim u = u) ∧ ∀ u ∈ input.logoutUrl, Text.trim u = u

end SignInForms
