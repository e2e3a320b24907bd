import AzAppToolkit.Sso.SignInForms

set_option autoImplicit false

/-! # The sign-in forms of an application: what is read back

Each writer patches its body or nothing. What the readers then see is a leaf of the body, or the property
as it was where the body leaves it out. -/

namespace SignInForms

open Prog
open Graph (GraphError)

variable {N : Type}

/-! ## Trimming -/

theorem trim_trim (s : Text) : Text.trim (Text.trim s) = Text.trim s := by
  have hright : ∀ l : Text, Text.trim l = List.rdropWhile isWhitespace (l.dropWhile isWhitespace) :=
    fun _ => rfl
  have hleft : (Text.trim s).dropWhile isWhitespace = Text.trim s := by
    rw [List.dropWhile_eq_self_iff]
    intro hl
    obtain ⟨b, hb⟩ := List.rdropWhile_prefix isWhitespace (s.dropWhile isWhitespace)
    rw [← hright] at hb
    have hm : 0 < (s.dropWhile isWhitespace).length := by
      rw [← hb, List.length_append]
      omega
    have hhead := List.dropWhile_get_zero_not isWhitespace s hm
    simp only [List.get_eq_getElem] at hhead ⊢
    have hsame : (Text.trim s)[0] = (s.dropWhile isWhitespace)[0] := by
      simp only [← hb, List.getElem_append_left hl]
    rwa [hsame]
  rw [hright (Text.trim s), hleft, hright s]
  exact List.rdropWhile_idempotent isWhitespace _

variable {l : List Text}

theorem trim_of_mem_trimmedRows {u : Text} (hu : u ∈ trimmedRows l) : Text.trim u = u := by
  obtain ⟨hmem, -⟩ := List.mem_filter.1 hu
  obtain ⟨x, -, rfl⟩ := List.mem_map.1 hmem
  exact trim_trim x

theorem trim_of_mem_trimmedUrl {url : Option Text} {u : Text} (hu : u ∈ trimmedUrl url) :
    Text.trim u = u := by
  obtain ⟨hmem, -⟩ := Option.filter_eq_some_iff.1 hu
  obtain ⟨x, -, rfl⟩ := Option.map_eq_some_iff.1 hmem
  exact trim_trim x

theorem validateRedirectUris_ok :
    validateRedirectUris l = .ok () ↔ ∀ u ∈ l, App.Redirect.validateRedirectUri u = .ok () := by
  induction l with
  | nil => exact iff_of_true rfl (fun _ hu => absurd hu List.not_mem_nil)
  | cons u l ih =>
    rw [validateRedirectUris, List.forall_mem_cons, ← ih]
    cases App.Redirect.validateRedirectUri u with
    | error reason => simp
    | ok _ => simp

/-- An accepted URI is not blank. -/
theorem trim_ne_nil_of_valid {u : Text} (h : App.Redirect.validateRedirectUri u = .ok ()) :
    Text.trim u ≠ [] := by
  intro hnil
  unfold App.Redirect.validateRedirectUri at h
  rw [hnil] at h
  exact nomatch h

theorem trimmedRows_of_valid (h : validateRedirectUris l = .ok ()) : trimmedRows l = l.map Text.trim := by
  unfold trimmedRows
  rw [List.filter_eq_self]
  intro s hs
  obtain ⟨u, hu, rfl⟩ := List.mem_map.1 hs
  have hne := trim_ne_nil_of_valid (validateRedirectUris_ok.1 h u hu)
  simpa using hne

/-- Accepted rows are stored as they should be exactly if they are trimmed. -/
theorem eq_trimmedRows_iff (h : validateRedirectUris l = .ok ()) :
    l = trimmedRows l ↔ ∀ u ∈ l, Text.trim u = u := by
  rw [trimmedRows_of_valid h, eq_comm]
  have hid : l.map Text.trim = l.map id ↔ ∀ u ∈ l, Text.trim u = id u := List.map_inj_left
  rwa [List.map_id] at hid

/-! ## What a patch leaves -/

section Patched

variable {app body v : Json N} {p : Json.Path}

theorem mem_leaves_of_getPath (hv : v.asObject = none) (hleaf : Json.getPath p body = some v) :
    p ∈ Json.leaves body := by
  induction p generalizing body with
  | nil =>
    obtain rfl := Option.some.inj hleaf
    cases body with
    | object fields => exact nomatch hv
    | _ => exact List.mem_singleton_self _
  | cons k p ih =>
    cases body with
    | object fields =>
      simp only [Json.getPath, Json.get] at hleaf
      obtain ⟨v', hv', hleaf'⟩ := Option.bind_eq_some_iff.1 hleaf
      exact Json.mem_leavesIn hv' (ih hleaf')
    | _ => exact absurd hleaf (by simp [Json.getPath, Json.get])

theorem asStr_eq_some {o : Option (Json N)} {s : Text} (h : o.bind Json.asStr = some s) :
    o = some (.string s) := by
  obtain ⟨v, rfl, hv⟩ := Option.bind_eq_some_iff.1 h
  cases v with
  | string s' => rw [Option.some.inj hv]
  | _ => exact nomatch hv

/-- Apart from what the body replaces, the application is as it was. -/
theorem getPath_patched_of_apart (h : Json.wellFormed body = true)
    (hapart : ∀ l ∈ Json.leaves body, Json.Apart p l) (app : Json N) :
    Json.getPath p (patched app body) = Json.getPath p app := by
  unfold patched
  split
  · next hempty =>
    have hleaf : logoutPath ∈ Json.leaves body := mem_leaves_of_getPath rfl (asStr_eq_some hempty)
    have hcleared : ∀ l ∈ Json.leaves (clearedLogout : Json N), Json.Apart p l := by
      intro l hl
      obtain rfl := List.mem_singleton.1 hl
      exact hapart _ hleaf
    rw [Json.getPath_merge_of_apart rfl hcleared, Json.getPath_merge_of_apart h hapart]
  · exact Json.getPath_merge_of_apart h hapart app

/-- Of a leaf, the body is read. -/
theorem getPath_patched_of_leaf (h : Json.wellFormed body = true)
    (hleaf : Json.getPath p body = some v) (hv : v.asObject = none) (hp : Json.Apart p logoutPath)
    (app : Json N) : Json.getPath p (patched app body) = some v := by
  unfold patched
  split
  · have hcleared : ∀ l ∈ Json.leaves (clearedLogout : Json N), Json.Apart p l := by
      intro l hl
      obtain rfl := List.mem_singleton.1 hl
      exact hp
    rw [Json.getPath_merge_of_apart rfl hcleared, Json.getPath_merge_of_leaf h hleaf hv]
  · exact Json.getPath_merge_of_leaf h hleaf hv app

/-- The logout URL as both readers see it. -/
def logoutUrlOf (app : Json N) : Option Text :=
  ((Json.getPath logoutPath app).bind Json.asStr).filter (fun s => !s.isEmpty)

theorem logoutUrlOf_patched {url : Text} (h : Json.wellFormed body = true)
    (hleaf : Json.getPath logoutPath body = some (.string url)) (app : Json N) :
    logoutUrlOf (patched app body) = (some url).filter (fun s => !s.isEmpty) := by
  unfold logoutUrlOf patched
  split
  · next hempty =>
    obtain rfl : url = [] := Option.some.inj (by simpa [hleaf, Json.asStr] using hempty)
    have hnull : Json.getPath logoutPath ((app.merge body).merge clearedLogout) = some .null :=
      Json.getPath_merge_of_leaf rfl rfl rfl _
    rw [hnull]
    rfl
  · rw [Json.getPath_merge_of_leaf h hleaf rfl]
    rfl

end Patched

/-! ## The readers, by paths -/

section Readers

def urisAt (p : Json.Path) (app : Json N) : List Text := strVec (Json.getPath p app)

def flagAt (p : Json.Path) (app : Json N) : Bool :=
  ((Json.getPath p app).bind Json.asBool).getD false

theorem getPath_one (k : Text) (v : Json N) : Json.getPath [k] v = v.get k := by
  simp [Json.getPath]

theorem getPath_two (k k' : Text) (v : Json N) : Json.getPath [k, k'] v = (v.get k).bind (Json.get k') := by
  rw [Json.getPath]
  exact congrArg _ (funext fun w => getPath_one k' w)

theorem getPath_three (k k' k'' : Text) (v : Json N) :
    Json.getPath [k, k', k''] v = ((v.get k).bind (Json.get k')).bind (Json.get k'') := by
  rw [Json.getPath, Option.bind_assoc]
  exact congrArg _ (funext fun w => getPath_two k' k'' w)

theorem extractAppSsoFields_eq (app : Json N) :
    extractAppSsoFields app =
      { identifierUris := urisAt [identifierUrisName] app
        webRedirects := urisAt [webName, redirectUrisName] app
        logoutUrl := logoutUrlOf app
        spaRedirectUris := urisAt [spaName, redirectUrisName] app } := by
  simp only [urisAt, logoutUrlOf, logoutPath, getPath_one, getPath_two]
  rfl

theorem extractAuthFields_eq (app : Json N) :
    extractAuthFields app =
      { webRedirectUris := urisAt [webName, redirectUrisName] app
        spaRedirectUris := urisAt [spaName, redirectUrisName] app
        publicClientRedirectUris := urisAt [publicClientName, redirectUrisName] app
        logoutUrl := logoutUrlOf app
        isFallbackPublicClient := flagAt [fallbackName] app
        enableAccessTokenIssuance := flagAt [webName, implicitGrantSettingsName, accessTokenName] app
        enableIdTokenIssuance := flagAt [webName, implicitGrantSettingsName, idTokenName] app } := by
  simp only [urisAt, flagAt, logoutUrlOf, logoutPath, getPath_one, getPath_two, getPath_three]
  rfl

theorem strVec_stringArray (l : List Text) : strVec (some (stringArray l : Json N)) = l := by
  have hback : (l.map (Json.string (N := N))).filterMap Json.asStr = l := by
    rw [List.filterMap_map]
    exact List.filterMap_some
  exact hback

variable {body : Json N} {p : Json.Path}

theorem urisAt_patched (h : Json.wellFormed body = true)
    (hleaf : Json.getPath p body = some (stringArray l)) (hp : Json.Apart p logoutPath) (app : Json N) :
    urisAt p (patched app body) = l := by
  unfold urisAt
  rw [getPath_patched_of_leaf h hleaf rfl hp, strVec_stringArray]

theorem flagAt_patched {b : Bool} (h : Json.wellFormed body = true)
    (hleaf : Json.getPath p body = some (.bool b)) (hp : Json.Apart p logoutPath) (app : Json N) :
    flagAt p (patched app body) = b := by
  unfold flagAt
  rw [getPath_patched_of_leaf h hleaf rfl hp]
  rfl

end Readers

/-! ## What a save does -/

/-- What the form has sent. -/
def Form.body : Form → Json N
  | .saml identifierUris replyUrls logoutUrl =>
    samlBody (trimmedRows identifierUris) (trimmedRows replyUrls) (trimmedUrl logoutUrl)
  | .oidc redirectUris spaRedirectUris => oidcBody redirectUris spaRedirectUris
  | .authentication input => authenticationBody input

/-- What was checked before it. -/
def Form.Checked : Form → Prop
  | .saml _ replyUrls logoutUrl =>
    validateRedirectUris (trimmedRows replyUrls) = .ok () ∧
      validateOptionalLogoutUrl (trimmedUrl logoutUrl) = .ok ()
  | .oidc redirectUris spaRedirectUris =>
    validateRedirectUris redirectUris = .ok () ∧ validateRedirectUris spaRedirectUris = .ok ()
  | .authentication input => validateAuthenticationInput input = .ok ()

/-- The form's body is applied after its checks, or nothing is. -/
def Lands (objectId : Text) (form : Form) (s s' : Directory N) (result : Except UiError Unit) : Prop :=
  match result with
  | .error _ => s' = s
  | .ok () => form.Checked ∧ s' = Function.update s objectId (patched (s objectId) form.body)

section Saves

variable {toUi : GraphError → UiError} {objectId : Text} {s : Directory N}

/-- The request, and what follows it. -/
theorem meets_patchApplicationWeb {form : Form} {body : Json N} (hbody : body = form.body)
    (hchecked : form.Checked) {c : Call N} (hc : ∀ s r s', world s c r s' → s' = s) :
    Meets world (fun _ _ => True) (Lands objectId form s) s (do
      match ← patchApplicationWeb objectId body with
      | .error err => return .error (toUi err)
      | .ok () => do
          let _ ← call c
          return .ok ()) := by
  unfold patchApplicationWeb
  cases Resolver.requirePathSegment objectIdName objectId with
  | error err => exact Meets.pure rfl
  | ok _ =>
    refine Meets.bind ⟨trivial, fun r s₁ hpatch => ?_⟩
    cases r with
    | error err => exact Meets.pure hpatch
    | ok _ =>
      refine Meets.bind ⟨trivial, fun r s₂ hinvalidate => ?_⟩
      obtain rfl := hc _ _ _ hinvalidate
      exact Meets.pure ⟨hchecked, hbody ▸ hpatch⟩

theorem meets_setSamlUrlsCore (identifierUris replyUrls : List Text) (logoutUrl : Option Text) :
    Meets world (fun _ _ => True) (Lands objectId (.saml identifierUris replyUrls logoutUrl) s) s
      (setSamlUrlsCore toUi objectId identifierUris replyUrls logoutUrl) := by
  unfold setSamlUrlsCore
  dsimp only
  split
  · exact Meets.pure rfl
  · split
    · exact Meets.pure rfl
    · cases hreplies : validateRedirectUris (trimmedRows replyUrls) with
      | error reason => exact Meets.pure rfl
      | ok _ =>
        cases hlogout : validateOptionalLogoutUrl (trimmedUrl logoutUrl) with
        | error reason => exact Meets.pure rfl
        | ok _ =>
          have hchecked : (Form.saml identifierUris replyUrls logoutUrl).Checked :=
            ⟨hreplies, hlogout⟩
          exact meets_patchApplicationWeb rfl hchecked (fun _ _ _ hsame => hsame)

theorem meets_setOidcRedirectUrisCore (redirectUris spaRedirectUris : List Text) :
    Meets world (fun _ _ => True) (Lands objectId (.oidc redirectUris spaRedirectUris) s) s
      (setOidcRedirectUrisCore toUi objectId redirectUris spaRedirectUris) := by
  unfold setOidcRedirectUrisCore
  cases hweb : validateRedirectUris redirectUris with
  | error reason => exact Meets.pure rfl
  | ok _ =>
    cases hspa : validateRedirectUris spaRedirectUris with
    | error reason => exact Meets.pure rfl
    | ok _ =>
      have hchecked : (Form.oidc redirectUris spaRedirectUris).Checked := ⟨hweb, hspa⟩
      exact meets_patchApplicationWeb rfl hchecked (fun _ _ _ hsame => hsame)

theorem meets_setApplicationAuthentication (input : ApplicationAuthenticationDto) :
    Meets world (fun _ _ => True) (Lands objectId (.authentication input) s) s
      (setApplicationAuthentication toUi objectId input) := by
  unfold setApplicationAuthentication
  cases hvalid : validateAuthenticationInput input with
  | error err => exact Meets.pure rfl
  | ok _ =>
    have hchecked : (Form.authentication input).Checked := hvalid
    exact meets_patchApplicationWeb rfl hchecked (fun _ _ _ hsame => hsame)

theorem lands_of_exec {form : Form} {s' : Directory N} {result : Except UiError Unit}
    (hexec : Exec world s (form.save toUi objectId) s' result) : Lands objectId form s s' result := by
  cases form with
  | saml identifierUris replyUrls logoutUrl =>
    exact (meets_setSamlUrlsCore identifierUris replyUrls logoutUrl).sound hexec
  | oidc redirectUris spaRedirectUris =>
    exact (meets_setOidcRedirectUrisCore redirectUris spaRedirectUris).sound hexec
  | authentication input => exact (meets_setApplicationAuthentication input).sound hexec

end Saves

/-! ## Every property of a form -/

section Carried

variable {identifiers replies redirectUris spaRedirectUris : List Text}

theorem wellFormed_body (form : Form) : Json.wellFormed (form.body : Json N) = true := by
  cases form with
  | saml identifierUris replyUrls logoutUrl =>
    simp only [Form.body]
    cases trimmedUrl logoutUrl <;> rfl
  | oidc redirectUris spaRedirectUris | authentication input => rfl

/-- The body replaces nothing but what the form carries. -/
theorem leaves_body (form : Form) {l : Json.Path} (hl : l ∈ Json.leaves (form.body : Json N)) :
    l ∈ form.carried := by
  cases form with
  | saml identifierUris replyUrls logoutUrl =>
    simp only [Form.body] at hl
    cases hlogout : trimmedUrl logoutUrl with
    | none =>
      rw [hlogout] at hl
      have hleaves : Json.leaves (samlBody (trimmedRows identifierUris) (trimmedRows replyUrls) none :
          Json N) = [[identifierUrisName], [webName, redirectUrisName]] := rfl
      rw [hleaves] at hl
      exact List.mem_append_left [logoutPath] hl
    | some url =>
      rw [hlogout] at hl
      exact hl
  | oidc redirectUris spaRedirectUris | authentication input => exact hl

/-- Paths that part at a key are apart. -/
theorem apart_of_ne {k k' : Text} {p q : Json.Path} (h : k ≠ k') : Json.Apart (k :: p) (k' :: q) :=
  ⟨fun hp => h (List.cons_prefix_cons.1 hp).1, fun hq => h (List.cons_prefix_cons.1 hq).1.symm⟩

theorem apart_cons {k : Text} {p q : Json.Path} (h : Json.Apart p q) : Json.Apart (k :: p) (k :: q) :=
  ⟨fun hp => h.1 (List.cons_prefix_cons.1 hp).2, fun hq => h.2 (List.cons_prefix_cons.1 hq).2⟩

theorem apart_webRedirectUris : Json.Apart [webName, redirectUrisName] logoutPath :=
  apart_cons (apart_of_ne (by decide))

/-- A SAML form without a logout URL leaves the one that there is. -/
theorem logoutUrlOf_saml (identifierUris replyUrls : List Text) (logoutUrl : Option Text) (app : Json N) :
    logoutUrlOf (patched app (Form.saml identifierUris replyUrls logoutUrl).body) =
      if trimmedUrl logoutUrl = none then logoutUrlOf app else trimmedUrl logoutUrl := by
  simp only [Form.body]
  cases hlogout : trimmedUrl logoutUrl with
  | none =>
    have hapart : ∀ l ∈ Json.leaves (samlBody (trimmedRows identifierUris) (trimmedRows replyUrls) none :
        Json N), Json.Apart logoutPath l := by
      intro l hl
      have hl : l = [identifierUrisName] ∨ l = [webName, redirectUrisName] := by
        simpa using (show l ∈ [[identifierUrisName], [webName, redirectUrisName]] from hl)
      rcases hl with rfl | rfl
      · exact apart_of_ne (by decide)
      · exact apart_cons (apart_of_ne (by decide))
    unfold logoutUrlOf
    rw [getPath_patched_of_apart rfl hapart, if_pos rfl]
  | some url =>
    rw [logoutUrlOf_patched rfl rfl, if_neg (by simp), ← hlogout]
    unfold trimmedUrl
    rw [Option.filter_filter]
    simp

end Carried

/-! ## Read back as saved -/

section Checks

theorem validateOptionalLogoutUrl_ok {url : Option Text} {u : Text}
    (h : validateOptionalLogoutUrl url = .ok ()) (hu : u ∈ url) :
    App.Redirect.validateLogoutUrl u = .ok () := by
  obtain rfl := Option.mem_def.1 hu
  exact h

/-- The steps of the pre-flight. -/
theorem validateAuthenticationInput_ok {input : ApplicationAuthenticationDto}
    (h : validateAuthenticationInput input = .ok ()) :
    validateRedirectUris input.webRedirectUris = .ok () ∧
      validateRedirectUris input.spaRedirectUris = .ok () ∧
      validateRedirectUris input.publicClientRedirectUris = .ok () ∧
      validateOptionalLogoutUrl (trimmedUrl input.logoutUrl) = .ok () := by
  unfold validateAuthenticationInput at h
  split at h
  · exact nomatch h
  · next hweb =>
    split at h
    · exact nomatch h
    · next hspa =>
      split at h
      · exact nomatch h
      · next hpublic =>
        split at h
        · exact nomatch h
        · next hlogout => exact ⟨hweb, hspa, hpublic, hlogout⟩

/-- The logout URL as the Authentication tab sends it is what it should be exactly if it is trimmed. -/
theorem sentLogoutUrl_iff (url : Option Text) :
    (some (url.getD [])).filter (fun s => !s.isEmpty) = trimmedUrl url ↔
      ∀ u ∈ url, Text.trim u = u := by
  cases url with
  | none => simp [trimmedUrl]
  | some u =>
    have hmem : (∀ u' ∈ some u, Text.trim u' = u') ↔ Text.trim u = u := by simp
    rw [hmem]
    constructor
    · intro h
      by_cases hu : u = []
      · rw [hu]
        rfl
      · have hsent : (some u).filter (fun s => !s.isEmpty) = some u := by simp [hu]
        rw [Option.getD_some, hsent] at h
        exact trim_of_mem_trimmedUrl h.symm
    · intro h
      rw [trimmedUrl, Option.map_some, h]
      rfl

theorem acceptedAsIs_rows (h : validateRedirectUris l = .ok ()) (htrim : ∀ u ∈ l, Text.trim u = u) :
    ∀ u ∈ l, AcceptedAsIs App.Redirect.validateRedirectUri u :=
  fun u hu => ⟨validateRedirectUris_ok.1 h u hu, htrim u hu⟩

theorem acceptedAsIs_logout {url : Option Text} (h : validateOptionalLogoutUrl (trimmedUrl url) = .ok ()) :
    ∀ u ∈ trimmedUrl url, AcceptedAsIs App.Redirect.validateLogoutUrl u :=
  fun _ hu => ⟨validateOptionalLogoutUrl_ok h hu, trim_of_mem_trimmedUrl hu⟩

end Checks

section ReadBack

variable (app : Json N)

theorem saml_reads_back_iff (identifierUris replyUrls : List Text) (logoutUrl : Option Text)
    (hchecked : (Form.saml identifierUris replyUrls logoutUrl).Checked) :
    (ReadsBack (.saml identifierUris replyUrls logoutUrl)
        (patched app (Form.saml identifierUris replyUrls logoutUrl).body) ∧
      StoredUrls (.saml identifierUris replyUrls logoutUrl)
        (patched app (Form.saml identifierUris replyUrls logoutUrl).body)) ↔
      PlainlyFilled (.saml identifierUris replyUrls logoutUrl) app := by
  obtain ⟨hreplies, hlogout⟩ := hchecked
  have hwell := wellFormed_body (N := N) (.saml identifierUris replyUrls logoutUrl)
  have hidentifiers := urisAt_patched (p := [identifierUrisName]) hwell rfl (apart_of_ne (by decide)) app
  have hweb := urisAt_patched hwell rfl apart_webRedirectUris app
  simp only [ReadsBack, StoredUrls, PlainlyFilled, extractAppSsoFields_eq, extractAuthFields_eq,
    hidentifiers, hweb, logoutUrlOf_saml, true_and]
  constructor
  · rintro ⟨⟨hkept, -⟩, -⟩ hnone
    rwa [if_pos hnone, hnone] at hkept
  · intro hfilled
    have hlogoutUrl : (if trimmedUrl logoutUrl = none then logoutUrlOf app else trimmedUrl logoutUrl) =
        trimmedUrl logoutUrl := by
      split
      · next hnone => rw [hfilled hnone, hnone]
      · rfl
    rw [hlogoutUrl]
    exact ⟨⟨rfl, rfl⟩, acceptedAsIs_rows hreplies (fun u hu => trim_of_mem_trimmedRows hu),
      acceptedAsIs_logout hlogout⟩

theorem oidc_reads_back_iff (redirectUris spaRedirectUris : List Text)
    (hchecked : (Form.oidc redirectUris spaRedirectUris).Checked) :
    (ReadsBack (.oidc redirectUris spaRedirectUris)
        (patched app (Form.oidc redirectUris spaRedirectUris).body) ∧
      StoredUrls (.oidc redirectUris spaRedirectUris)
        (patched app (Form.oidc redirectUris spaRedirectUris).body)) ↔
      PlainlyFilled (.oidc redirectUris spaRedirectUris) app := by
  obtain ⟨hvalidWeb, hvalidSpa⟩ := hchecked
  have hwell := wellFormed_body (N := N) (.oidc redirectUris spaRedirectUris)
  have hweb := urisAt_patched hwell rfl apart_webRedirectUris app
  have hspa := urisAt_patched (p := [spaName, redirectUrisName]) hwell rfl (apart_of_ne (by decide)) app
  simp only [ReadsBack, StoredUrls, PlainlyFilled, extractAppSsoFields_eq, extractAuthFields_eq,
    hweb, hspa, List.forall_mem_append]
  rw [eq_trimmedRows_iff hvalidWeb, eq_trimmedRows_iff hvalidSpa]
  constructor
  · rintro ⟨⟨htrimWeb, -, htrimSpa, -⟩, -⟩
    exact ⟨htrimWeb, htrimSpa⟩
  · rintro ⟨htrimWeb, htrimSpa⟩
    exact ⟨⟨htrimWeb, htrimWeb, htrimSpa, htrimSpa⟩, acceptedAsIs_rows hvalidWeb htrimWeb,
      acceptedAsIs_rows hvalidSpa htrimSpa⟩

theorem authentication_reads_back_iff (input : ApplicationAuthenticationDto)
    (hchecked : (Form.authentication input).Checked) :
    (ReadsBack (.authentication input) (patched app (Form.authentication input).body) ∧
      StoredUrls (.authentication input) (patched app (Form.authentication input).body)) ↔
      PlainlyFilled (.authentication input) app := by
  obtain ⟨hvalidWeb, hvalidSpa, hvalidPublic, hvalidLogout⟩ := validateAuthenticationInput_ok hchecked
  have hwell := wellFormed_body (N := N) (.authentication input)
  have hweb := urisAt_patched hwell rfl apart_webRedirectUris app
  have hspa := urisAt_patched (p := [spaName, redirectUrisName]) hwell rfl (apart_of_ne (by decide)) app
  have hpublic := urisAt_patched (p := [publicClientName, redirectUrisName]) hwell rfl
    (apart_of_ne (by decide)) app
  have hfallback := flagAt_patched (p := [fallbackName]) hwell rfl (apart_of_ne (by decide)) app
  have haccess := flagAt_patched (p := [webName, implicitGrantSettingsName, accessTokenName]) hwell rfl
    (apart_cons (apart_of_ne (by decide))) app
  have hid := flagAt_patched (p := [webName, implicitGrantSettingsName, idTokenName]) hwell rfl
    (apart_cons (apart_of_ne (by decide))) app
  have hsent : Json.getPath logoutPath (Form.authentication input).body =
      some (Json.string (N := N) (input.logoutUrl.getD [])) := rfl
  have hlogout := logoutUrlOf_patched hwell hsent app
  simp only [ReadsBack, StoredUrls, PlainlyFilled, extractAppSsoFields_eq, extractAuthFields_eq,
    hweb, hspa, hpublic, hfallback, haccess, hid, hlogout, List.forall_mem_append,
    ApplicationAuthenticationDto.mk.injEq, and_true]
  rw [eq_trimmedRows_iff hvalidWeb, eq_trimmedRows_iff hvalidSpa, eq_trimmedRows_iff hvalidPublic,
    sentLogoutUrl_iff]
  constructor
  · rintro ⟨⟨⟨htrimWeb, htrimSpa, htrimPublic, htrimLogout⟩, -⟩, -⟩
    exact ⟨⟨⟨htrimWeb, htrimSpa⟩, htrimPublic⟩, htrimLogout⟩
  · rintro ⟨⟨⟨htrimWeb, htrimSpa⟩, htrimPublic⟩, htrimLogout⟩
    rw [(sentLogoutUrl_iff _).2 htrimLogout]
    exact ⟨⟨⟨htrimWeb, htrimSpa, htrimPublic, htrimLogout⟩, htrimWeb, htrimSpa, htrimLogout⟩,
      ⟨⟨acceptedAsIs_rows hvalidWeb htrimWeb, acceptedAsIs_rows hvalidSpa htrimSpa⟩,
        acceptedAsIs_rows hvalidPublic htrimPublic⟩, acceptedAsIs_logout hvalidLogout⟩

theorem reads_back_iff (form : Form) (hchecked : form.Checked) :
    (ReadsBack form (patched app form.body) ∧ StoredUrls form (patched app form.body)) ↔
      PlainlyFilled form app := by
  cases form with
  | saml identifierUris replyUrls logoutUrl =>
    exact saml_reads_back_iff app identifierUris replyUrls logoutUrl hchecked
  | oidc redirectUris spaRedirectUris =>
    exact oidc_reads_back_iff app redirectUris spaRedirectUris hchecked
  | authentication input => exact authentication_reads_back_iff app input hchecked

end ReadBack

/-! ## Runs -/

section Run

variable {toUi : GraphError → UiError}

/-- One save, from any state. -/
theorem saved_iff {step : Step N}
    (hlands : Lands step.objectId step.form step.before step.after step.result) :
    Saved step ↔ (step.result = .ok () → PlainlyFilled step.form (step.before step.objectId)) := by
  obtain ⟨objectId, form, before, result, after⟩ := step
  unfold Saved
  dsimp only at hlands ⊢
  cases result with
  | error err => exact iff_of_true hlands (fun hr => nomatch hr)
  | ok _ =>
    obtain ⟨hchecked, rfl⟩ := hlands
    have hself : Function.update before objectId (patched (before objectId) form.body) objectId =
        patched (before objectId) form.body := Function.update_self ..
    dsimp only
    rw [hself, ← reads_back_iff (before objectId) form hchecked]
    constructor
    · rintro ⟨hreads, hstored, -⟩ -
      exact ⟨hreads, hstored⟩
    · intro h
      obtain ⟨hreads, hstored⟩ := h rfl
      refine ⟨hreads, hstored, fun p hp => ?_, fun other hother => Function.update_of_ne hother ..⟩
      exact getPath_patched_of_apart (wellFormed_body form) (fun l hl => hp l (leaves_body form hl)) _

theorem Runs.lands {s₀ s : Directory N} {steps : List (Step N)} (hruns : Runs toUi s₀ steps s)
    {step : Step N} (hstep : step ∈ steps) :
    Lands step.objectId step.form step.before step.after step.result := by
  induction hruns with
  | start => exact absurd hstep List.not_mem_nil
  | save hruns hexec ih =>
    rcases List.mem_append.1 hstep with hstep | hstep
    · exact ih hstep
    · obtain rfl := List.mem_singleton.1 hstep
      exact lands_of_exec hexec

/-- In every run, from every application: each form reads back as it was saved, exactly if each of those
    that were saved asks for nothing its writer leaves out. -/
theorem forms_read_back_iff {s₀ s : Directory N} {steps : List (Step N)} (hruns : Runs toUi s₀ steps s) :
    (∀ step ∈ steps, Saved step) ↔
      ∀ step ∈ steps, step.result = .ok () → PlainlyFilled step.form (step.before step.objectId) :=
  forall₂_congr (fun _ hstep => saved_iff (hruns.lands hstep))

end Run

/-! ## A logout URL that stays -/

def plainUi (_ : GraphError) : UiError := ⟨"graph".toList, []⟩

/-- Every patch succeeds. -/
def accepting (s : Directory Nat) : (c : Call Nat) → Option (Answer c × Directory Nat)
  | .patchApplication objectId body =>
    some (.ok (), Function.update s objectId (patched (s objectId) body))
  | .invalidateAppDetails => some ((), s)
  | .invalidateAppDetailState => some ((), s)

theorem world_of_accepting (s : Directory Nat) (c : Call Nat) (r : Answer c) (s' : Directory Nat)
    (h : accepting s c = some (r, s')) : world s c r s' := by
  cases c with
  | patchApplication objectId body =>
    obtain ⟨rfl, rfl⟩ := Prod.mk.inj (Option.some.inj h)
    rfl
  | _ => exact (Prod.mk.inj (Option.some.inj h)).2.symm

/-- Applications with a logout URL. -/
def signedOut : Directory Nat := fun _ =>
  .object [(webName, .object [(logoutUrlName, .string "https://a/out".toList)])]

/-- The Authentication tab without a logout URL. -/
def clearingForm : Form :=
  .authentication ⟨["https://a/cb".toList], [], ["myapp://auth".toList], none, true, false, false⟩

theorem forms_read_back_iff_clearing :
    ∃ (steps : List (Step Nat)) (s : Directory Nat), Runs plainUi signedOut steps s ∧ steps.length = 1 ∧
      ∀ step ∈ steps, Saved step := by
  have hrun : (run accepting (clearingForm.save plainUi "o".toList) signedOut).map (fun r => r.1) =
      some (.ok ()) := by decide
  obtain ⟨result, s', hexec, -⟩ := exists_exec_of_run world_of_accepting hrun
  have hruns := Runs.save (.start signedOut) hexec
  refine ⟨_, s', hruns, rfl, (forms_read_back_iff hruns).2 (fun step hstep _ => ?_)⟩
  obtain rfl := List.mem_singleton.1 hstep
  have hfilled : (∀ u ∈ ["https://a/cb".toList, "myapp://auth".toList], Text.trim u = u) := by decide
  exact ⟨hfilled, fun u hu => nomatch hu⟩

def savedForm : Form := .saml ["api://a".toList] ["https://a/acs".toList] none

/-- The SAML form without its logout URL is saved, and the application keeps the URL. -/
theorem logout_url_stays :
    ¬ ∀ (s₀ s : Directory Nat) (steps : List (Step Nat)), Runs plainUi s₀ steps s →
      ∀ step ∈ steps, Saved step := by
  intro h
  have hrun : (run accepting (savedForm.save plainUi "o".toList) signedOut).map (fun r => r.1) =
      some (.ok ()) := by decide
  obtain ⟨result, s', hexec, hresult⟩ := exists_exec_of_run world_of_accepting hrun
  obtain rfl : result = .ok () := hresult
  have hruns := Runs.save (.start signedOut) hexec
  have hsaved := h _ _ _ hruns _ (List.mem_append_right _ (List.mem_singleton_self _))
  have hfilled := (saved_iff (lands_of_exec hexec)).1 hsaved rfl (by decide)
  have hkept : (extractAppSsoFields (signedOut "o".toList)).logoutUrl ≠ none := by decide
  exact hkept hfilled

end SignInForms
