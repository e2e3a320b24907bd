import AzAppToolkit.Lib.UrlReader
import AzAppToolkit.Lib.Separators
import AzAppToolkit.Lib.Substring

set_option autoImplicit false

/-! # Reply URLs

`validate_redirect_uri` and `validate_logout_url` of `redirect.rs`, and the two URL grammars that a
reply URL is read with. The checks cut the authority at the first `/` only, and look for `http` and `urn`
in the text as it stands: what is accepted stays on the local machine exactly if nothing else ends the
authority, and nothing that a reader skips hides the scheme. -/

namespace App

namespace Redirect

def maxRedirectUriLen : Nat := 256

/-- The host that the loopback check looks at. -/
def checkedHost (rest : Text) : Text :=
  let authority := (Text.splitOn (· == '/') rest).head?.getD []
  let authority := (Text.splitOn (· == '@') authority).getLast?.getD []
  if ['['].isPrefixOf authority then (Text.splitOn (· == ']') (authority.drop 1)).head?.getD []
  else (Text.splitOn (· == ':') authority).head?.getD []

def validateRedirectUri (uri : Text) : Except Text Unit :=
  let u := Text.trim uri
  if u.isEmpty then .error "redirect URI is empty".toList
  else if u.length > maxRedirectUriLen then
    .error ("redirect URI is ".toList ++ Text.decimal u.length ++
      " characters; Entra allows at most 256: ".toList ++ uri)
  else if List.contains u '*' then
    .error ("wildcard redirect URIs are not allowed: ".toList ++ uri)
  else
    let lower := toAsciiLowercase u
    if "urn:".toList.isPrefixOf lower then
      .error ("insecure 'urn:' redirect URIs are not allowed: ".toList ++ uri)
    else if "http://".toList.isPrefixOf lower then
      let host := checkedHost (lower.drop 7)
      if host = "::1".toList then
        .error (("Entra doesn't support the IPv6 loopback address [::1] in redirect URIs; use " ++
          "http://localhost or http://127.0.0.1: ").toList ++ uri)
      else if host ≠ "localhost".toList ∧ host ≠ "127.0.0.1".toList then
        .error ("insecure http redirect URIs are not allowed (use https): ".toList ++ uri)
      else .ok ()
    else .ok ()

def validateLogoutUrl (url : Text) : Except Text Unit :=
  match validateRedirectUri url with
  | .error reason => .error reason
  | .ok () =>
    let lower := toAsciiLowercase (Text.trim url)
    if "https://".toList.isPrefixOf lower || "http://".toList.isPrefixOf lower then .ok ()
    else .error ("front-channel logout URL must be an https address: ".toList ++ url)

/-! ## The readers -/

/-- RFC 3986. -/
def rfc : UrlReader := ⟨false, false, false, false, true, false⟩

/-- The URL standard of the browsers. -/
def whatwg : UrlReader := ⟨true, true, true, true, true, false⟩

/-- The hosts a grammar admits: with a bracket, only an address literal. -/
structure HostGrammar where
  accepts : Text → Bool
  literal : ∀ host : Text, accepts host = true → '[' ∈ host →
    ∃ inner, host = '[' :: (inner ++ [']']) ∧ ']' ∉ inner ∧
      (':' ∈ inner ∨ ∃ c ∈ inner.head?, c = 'v' ∨ c = 'V')

def isLoopback (host : Text) : Bool :=
  toAsciiLowercase host == "localhost".toList || toAsciiLowercase host == "127.0.0.1".toList

/-- Read as a plaintext URL, the text stays on the local machine. -/
def ReadsLoopback (g : HostGrammar) (r : UrlReader) (u : Text) : Prop :=
  ∀ host port, r.read u = some ⟨"http".toList, host, port⟩ → g.accepts host = true →
    isLoopback host = true

/-- What is promised of an accepted text. -/
structure StaysLocal (g : HostGrammar) (s : Text) : Prop where
  noWildcard : '*' ∉ s
  short : s.length ≤ maxRedirectUriLen
  noUrn : ∀ r ∈ [rfc, whatwg], ∀ rest, r.splitScheme (Text.trim s) ≠ some ("urn".toList, rest)
  loopback : ∀ r ∈ [rfc, whatwg], ReadsLoopback g r (Text.trim s)

/-- A character other than `/` ends the authority, with an `@` between it and the first `/`. -/
def HidesHost (r : UrlReader) (u : Text) : Prop :=
  ∃ host d tail, Cuts.before (· == '/') (u.drop 7) = host ++ d :: tail ∧ r.ends d = true ∧ '@' ∈ tail

/-- What stands behind the five characters of `http:` and the slashes that follow them. -/
def behindScheme (r : UrlReader) (u : Text) : Text := ((r.cleaned u).drop 5).dropWhile r.isSlash

/-- The host written there, between a userinfo and a port, is the local machine, or no host at all. -/
def NamesLocal (g : HostGrammar) (r : UrlReader) (u : Text) : Prop :=
  ∀ host port, r.hostAndPort (r.withoutUserinfo (Cuts.before r.ends (behindScheme r u))) = (host, port) →
    g.accepts host = true → isLoopback host = true

/-- Written so that the checks see what the readers see. -/
structure PlainlyWritten (g : HostGrammar) (s : Text) : Prop where
  /-- It is not the white space around the text that takes it over the limit. -/
  notPadded : (Text.trim s).length ≤ maxRedirectUriLen → s.length ≤ maxRedirectUriLen
  /-- No skipped character stands before or in a leading `urn:`. -/
  urnInSight : "urn:".toList <+: toAsciiLowercase (whatwg.cleaned (Text.trim s)) →
    "urn:".toList <+: toAsciiLowercase (Text.trim s)
  /-- None in a leading `http:`, which two slashes follow, unless it names the local machine. -/
  httpInSight : "http:".toList <+: toAsciiLowercase (whatwg.cleaned (Text.trim s)) →
    "http://".toList <+: toAsciiLowercase (Text.trim s) ∨ NamesLocal g whatwg (Text.trim s)
  /-- No `?`, `#` or backslash stands between the host and an `@`, unless that host is the local machine. -/
  hostInSight : "http://".toList <+: toAsciiLowercase (Text.trim s) → ∀ r ∈ [rfc, whatwg],
    HidesHost r (Text.trim s) → NamesLocal g r (Text.trim s)

/-! ## What is accepted -/

theorem checkedHost_eq (rest : Text) :
    checkedHost rest =
      let authority := Cuts.afterLast UrlReader.isAt (Cuts.before (· == '/') rest)
      if ['['].isPrefixOf authority then Cuts.before (· == ']') (authority.drop 1)
      else Cuts.before (· == ':') authority := by
  unfold checkedHost
  simp only [Cuts.head?_splitOn, Cuts.getLast?_splitOn]
  rfl

theorem validateRedirectUri_ok {s : Text} (h : validateRedirectUri s = .ok ()) :
    (Text.trim s).length ≤ maxRedirectUriLen ∧ '*' ∉ Text.trim s ∧ ¬ "urn:".toList <+: toAsciiLowercase (Text.trim s) ∧
      ("http://".toList <+: toAsciiLowercase (Text.trim s) →
        checkedHost ((toAsciiLowercase (Text.trim s)).drop 7) = "localhost".toList ∨
          checkedHost ((toAsciiLowercase (Text.trim s)).drop 7) = "127.0.0.1".toList) := by
  unfold validateRedirectUri at h
  simp only [List.isPrefixOf_iff_prefix, List.contains_iff_mem] at h
  split_ifs at h with hempty hlength hstar hurn hhttp hsix hhost
  · refine ⟨Nat.le_of_not_lt hlength, hstar, hurn, fun _ => ?_⟩
    by_contra hnot
    exact hhost (not_or.1 hnot)
  · exact ⟨Nat.le_of_not_lt hlength, hstar, hurn, fun hprefix => absurd hprefix hhttp⟩

theorem validateRedirectUri_of_logout {s : Text} (h : validateLogoutUrl s = .ok ()) :
    validateRedirectUri s = .ok () := by
  unfold validateLogoutUrl at h
  cases hredirect : validateRedirectUri s with
  | error reason => simp [hredirect] at h
  | ok u => rfl

/-- Blanks at the ends are no wildcard. -/
theorem star_notMem_of_trim {s : Text} (h : '*' ∉ Text.trim s) : '*' ∉ s := by
  obtain ⟨a, b, hs, ha, hb⟩ := Cuts.eq_append_trimEnds_append isWhitespace s
  intro hmem
  rw [hs] at hmem
  rcases List.mem_append.1 hmem with hmem | hmem
  · rcases List.mem_append.1 hmem with hmem | hmem
    · exact absurd (ha _ hmem) (by decide)
    · exact h hmem
  · exact absurd (hb _ hmem) (by decide)

/-! ## Where the host stands -/

/-- The host is between the userinfo and a port, a bracket or the end of the authority. -/
def Located (r : UrlReader) (opening host : Text) (stop : Char) (rest : Text) : Prop :=
  ∃ user after, rest = user ++ (opening ++ (host ++ after)) ∧ (∀ c ∈ user, r.ends c = false) ∧
    (∀ c ∈ user.getLast?, c = '@') ∧ (∀ c ∈ after.head?, c = stop ∨ r.ends c = true) ∧
    ∀ a b, after = a ++ '@' :: b → ∃ c ∈ a, r.ends c = true

/-- The two ways a host is written. -/
def Stop (opening : Text) (stop : Char) : Prop :=
  (opening = [] ∧ stop = ':') ∨ (opening = ['['] ∧ stop = ']')

section Loopback

variable {host : Text} (h : isLoopback host = true)

theorem lower_of_isLoopback (h : isLoopback host = true) :
    toAsciiLowercase host = "localhost".toList ∨ toAsciiLowercase host = "127.0.0.1".toList := by
  simpa [isLoopback] using h

theorem code_of_isLoopback (h : isLoopback host = true) {c : Char} (hc : c ∈ host) :
    (48 ≤ c.toNat ∧ c.toNat ≤ 57) ∨ (65 ≤ c.toNat ∧ c.toNat ≤ 90) ∨
      (97 ≤ c.toNat ∧ c.toNat ≤ 122) ∨ c.toNat = 46 := by
  have hmem : c.toLower ∈ toAsciiLowercase host := List.mem_map_of_mem hc
  let isCode : Char → Bool := fun d =>
    decide ((48 ≤ d.toNat ∧ d.toNat ≤ 57) ∨ (97 ≤ d.toNat ∧ d.toNat ≤ 122) ∨ d.toNat = 46)
  have hcode : isCode c.toLower = true := by
    rcases lower_of_isLoopback h with heq | heq
    · have hall : "localhost".toList.all isCode = true := by decide
      exact List.all_eq_true.1 hall _ (heq ▸ hmem)
    · have hall : "127.0.0.1".toList.all isCode = true := by decide
      exact List.all_eq_true.1 hall _ (heq ▸ hmem)
  have hcode' := of_decide_eq_true hcode
  rcases Letters.toLower_cases c with ⟨hlow, hhigh, -⟩ | ⟨-, hsame⟩
  · omega
  · rw [hsame] at hcode'
    omega

/-- A loopback host has no character with a meaning in a URL, and none that is skipped. -/
theorem plain_of_isLoopback (h : isLoopback host = true) {c : Char} (hc : c ∈ host) :
    (∀ r : UrlReader, r.ends c = false) ∧ c ≠ ':' ∧ c ≠ '[' ∧ c ≠ ']' ∧ c ≠ '@' ∧
      UrlReader.isC0OrSpace c = false ∧ UrlReader.isTabOrNewline c = false := by
  have hcode := code_of_isLoopback h hc
  have hcodes : '/'.toNat = 47 ∧ '?'.toNat = 63 ∧ '#'.toNat = 35 ∧ '\\'.toNat = 92 ∧ ':'.toNat = 58 ∧
      '['.toNat = 91 ∧ ']'.toNat = 93 ∧ '@'.toNat = 64 := by decide
  have hne : c ≠ '/' ∧ c ≠ '?' ∧ c ≠ '#' ∧ c ≠ '\\' ∧ c ≠ ':' ∧ c ≠ '[' ∧ c ≠ ']' ∧ c ≠ '@' := by
    simp only [ne_eq, Letters.char_eq_iff]
    omega
  obtain ⟨hslash, hquery, hfragment, hback, hcolon, hopen, hclose, hat⟩ := hne
  have hcontrol : UrlReader.isC0OrSpace c = false := by
    unfold UrlReader.isC0OrSpace
    rw [decide_eq_false_iff_not]
    omega
  have htab : UrlReader.isTabOrNewline c = false := by
    rw [Bool.eq_false_iff]
    intro htab
    rw [UrlReader.isTabOrNewline_imp htab] at hcontrol
    exact Bool.noConfusion hcontrol
  refine ⟨?_, hcolon, hopen, hclose, hat, hcontrol, htab⟩
  intro r
  simp [UrlReader.ends, UrlReader.isSlash, hslash, hquery, hfragment, hback]

theorem ne_nil_of_isLoopback (h : isLoopback host = true) : host ≠ [] := by
  rintro rfl
  exact absurd h (by decide)

theorem head_of_isLoopback (h : isLoopback host = true) {c : Char} (hc : c ∈ host.head?) :
    c ≠ 'v' ∧ c ≠ 'V' := by
  obtain ⟨rest, rfl⟩ : ∃ rest, host = c :: rest := List.head?_eq_some_iff.1 hc
  constructor
  · rintro rfl
    rcases lower_of_isLoopback h with heq | heq <;> exact absurd (List.cons.inj heq).1 (by decide)
  · rintro rfl
    rcases lower_of_isLoopback h with heq | heq <;> exact absurd (List.cons.inj heq).1 (by decide)

end Loopback

/-- Where the loopback check finds its host. -/
theorem host_of_checked {rest : Text} (h : checkedHost (toAsciiLowercase rest) = "localhost".toList ∨
      checkedHost (toAsciiLowercase rest) = "127.0.0.1".toList) :
    ∃ opening host stop, Stop opening stop ∧ isLoopback host = true ∧
      ∃ user after, Cuts.before (· == '/') rest = user ++ (opening ++ (host ++ after)) ∧
        (∀ c ∈ user.getLast?, c = '@') ∧ '@' ∉ after ∧ ∀ c ∈ after.head?, c = stop := by
  have hbefore : ∀ (d : Char) (t : Text), d.isAlpha = false →
      Cuts.before (· == d) (toAsciiLowercase t) = toAsciiLowercase (Cuts.before (· == d) t) :=
    fun d t hd => Cuts.before_toAsciiLowercase (fun c => Cuts.beq_toLower hd c) t
  obtain ⟨user, hrest, huser, hat⟩ :=
    Cuts.eq_append_afterLast UrlReader.isAt (Cuts.before (· == '/') rest)
  have huser' : ∀ c ∈ user.getLast?, c = '@' := fun c hc => beq_iff_eq.1 (huser c hc)
  rw [checkedHost_eq, hbefore _ _ (by decide),
    Cuts.afterLast_toAsciiLowercase (fun c => Cuts.beq_toLower (by decide) c)] at h
  generalize Cuts.afterLast UrlReader.isAt (Cuts.before (· == '/') rest) = authority at h hrest hat
  have hat' : ∀ c ∈ authority, c ≠ '@' := fun c hc => beq_eq_false_iff_ne.1 (hat c hc)
  by_cases hbracket : ['['].isPrefixOf (toAsciiLowercase authority) = true
  · simp only [hbracket, if_true] at h
    obtain ⟨tail, htail⟩ := List.isPrefixOf_iff_prefix.1 hbracket
    obtain ⟨c, inner, rfl, hc, -⟩ := List.map_eq_cons_iff.1 htail.symm
    obtain rfl := (Letters.toLower_eq_iff c '[' (by decide)).1 hc
    rw [Letters.toAsciiLowercase_cons, List.drop_one, List.tail_cons, hbefore _ _ (by decide)] at h
    obtain ⟨after, hafter, hstop⟩ := Cuts.eq_before_append (· == ']') inner
    refine ⟨['['], Cuts.before (· == ']') inner, ']', .inr ⟨rfl, rfl⟩, ?_, user, after, ?_, huser', ?_, ?_⟩
    · simpa [isLoopback] using h
    · rw [← hafter]
      exact hrest
    · intro hmem
      exact hat' '@' (List.mem_cons_of_mem _ (hafter ▸ List.mem_append_right _ hmem)) rfl
    · exact fun c hc => beq_iff_eq.1 (hstop c hc)
  · simp only [hbracket, Bool.false_eq_true, if_false] at h
    rw [hbefore _ _ (by decide)] at h
    obtain ⟨after, hafter, hstop⟩ := Cuts.eq_before_append (· == ':') authority
    refine ⟨[], Cuts.before (· == ':') authority, ':', .inl ⟨rfl, rfl⟩, ?_, user, after, ?_, huser', ?_, ?_⟩
    · simpa [isLoopback] using h
    · rw [List.nil_append, ← hafter]
      exact hrest
    · intro hmem
      exact hat' '@' (hafter ▸ List.mem_append_right _ hmem) rfl
    · exact fun c hc => beq_iff_eq.1 (hstop c hc)

theorem ends_at (r : UrlReader) : r.ends '@' = false := by
  simp [UrlReader.ends, UrlReader.isSlash]

/-- Where nothing ends the authority early, every reader finds the host in the same place. -/
theorem located_of_checked {r : UrlReader} {rest user opening host after : Text} {stop : Char}
    (hrest : Cuts.before (· == '/') rest = user ++ (opening ++ (host ++ after)))
    (huser : ∀ c ∈ user.getLast?, c = '@') (hat : '@' ∉ after) (hstop : ∀ c ∈ after.head?, c = stop)
    (hhides : ¬ ∃ a d b, Cuts.before (· == '/') rest = a ++ d :: b ∧ r.ends d = true ∧ '@' ∈ b) :
    Located r opening host stop rest := by
  obtain ⟨tail, htail, hslash⟩ := Cuts.eq_before_append (· == '/') rest
  have hends : ∀ c ∈ tail.head?, r.ends c = true := by
    intro c hc
    rw [beq_iff_eq.1 (hslash c hc)]
    rfl
  refine ⟨user, after ++ tail, ?_, ?_, huser, ?_, ?_⟩
  · rw [← List.append_assoc host, ← List.append_assoc opening, ← List.append_assoc user, ← hrest]
    exact htail
  · intro c hc
    by_contra hcontra
    obtain ⟨a, b, rfl⟩ := List.append_of_mem hc
    apply hhides
    refine ⟨a, c, b ++ (opening ++ (host ++ after)), ?_, Bool.of_not_eq_false hcontra, ?_⟩
    · rw [hrest, List.append_assoc, List.cons_append]
    · rcases List.eq_nil_or_concat' b with rfl | ⟨b, d, rfl⟩
      · have hc' : c = '@' := huser c (by simp)
        rw [hc', ends_at] at hcontra
        exact absurd rfl hcontra
      · have hd : d = '@' := by
          apply huser d
          rw [← List.cons_append, ← List.append_assoc]
          exact List.getLast?_concat
        rw [hd]
        simp
  · intro c hc
    cases after with
    | nil => exact .inr (hends c hc)
    | cons d after => exact .inl (hstop c hc)
  · intro a b hab
    rcases List.append_eq_append_iff.1 hab with ⟨mid, ha, htail'⟩ | ⟨mid, hafter, htail'⟩
    · cases mid with
      | nil => exact absurd (hends '@' (by rw [htail']; rfl)) (by simp [ends_at])
      | cons d mid => exact ⟨d, by rw [ha]; simp, hends d (by rw [htail']; rfl)⟩
    · cases mid with
      | nil =>
        exact absurd (hends '@' (by rw [← List.nil_append tail, ← htail']; rfl)) (by simp [ends_at])
      | cons d mid =>
        obtain ⟨rfl, -⟩ := List.cons.inj htail'
        exact absurd (hafter ▸ List.mem_append_right _ List.mem_cons_self) hat

/-! ## What is read -/

section Read

variable {r : UrlReader} {opening host rest : Text} {stop : Char}

theorem notC0_of_isAlpha {c : Char} (hc : c.isAlpha = true) : UrlReader.isC0OrSpace c = false := by
  rw [Letters.isAlpha_iff] at hc
  unfold UrlReader.isC0OrSpace
  rw [decide_eq_false_iff_not]
  omega

/-- Skipping does not move the host. -/
theorem located_cleaned {n u : Text} (hn : ∀ c ∈ n, c.isAlpha = true) (hne : n ≠ [])
    (hu : u = n ++ ':' :: '/' :: '/' :: rest) (hopening : opening = [] ∨ opening = ['['])
    (hhost : isLoopback host = true) (h : Located whatwg opening host stop rest)
    (hstop : UrlReader.isTabOrNewline stop = false) :
    ∃ rest', whatwg.cleaned u = n ++ ':' :: '/' :: '/' :: rest' ∧
      Located whatwg opening host stop rest' := by
  obtain ⟨user, after, rfl, huser, hlast, hafter, hat⟩ := h
  have hends : ∀ c, whatwg.ends c = true → UrlReader.isTabOrNewline c = false := by
    intro c hc
    simp only [UrlReader.ends, UrlReader.isSlash, Bool.or_eq_true, Bool.and_eq_true, beq_iff_eq] at hc
    rcases hc with ((rfl | ⟨-, rfl⟩) | rfl) | rfl <;> decide
  have htab : ∀ c : Char, UrlReader.isC0OrSpace c = false → UrlReader.isTabOrNewline c = false := by
    intro c hc
    rw [Bool.eq_false_iff]
    intro htab
    rw [UrlReader.isTabOrNewline_imp htab] at hc
    exact Bool.noConfusion hc
  let front := n ++ ':' :: '/' :: '/' :: (user ++ (opening ++ host))
  have hfront : u = front ++ after := by
    rw [hu]
    simp [front]
  have hfrontNe : front ≠ [] := by
    intro h
    exact hne (List.append_eq_nil_iff.1 h).1
  have hfrontHead : ∀ c ∈ front.head?, UrlReader.isC0OrSpace c = false := by
    intro c hc
    cases n with
    | nil => exact absurd rfl hne
    | cons d n =>
      obtain rfl := Option.some.inj hc
      exact notC0_of_isAlpha (hn d List.mem_cons_self)
  have hfrontLast : ∀ c ∈ front.getLast?, UrlReader.isC0OrSpace c = false := by
    intro c hc
    obtain ⟨init, d, hinit⟩ := (List.eq_nil_or_concat' host).resolve_left (ne_nil_of_isLoopback hhost)
    have hlast : front.getLast? = some d := by
      have hconcat : front = (n ++ ':' :: '/' :: '/' :: (user ++ (opening ++ init))) ++ [d] := by
        simp [front, hinit]
      rw [hconcat, List.getLast?_concat]
    rw [hlast] at hc
    obtain rfl := Option.some.inj hc
    exact (plain_of_isLoopback hhost (hinit ▸ List.mem_append_right _ (List.mem_singleton_self d))).2.2.2.2.2.1
  obtain ⟨after', htrim, hprefix⟩ := Cuts.trimEnds_append hfrontNe hfrontHead hfrontLast after
  have hstripNil : ∀ t : Text, (∀ c ∈ t, UrlReader.isC0OrSpace c = false) → UrlReader.stripped t = t :=
    fun t ht => UrlReader.stripped_of_none ht
  have happend : ∀ a b : Text, UrlReader.stripped (a ++ b) = UrlReader.stripped a ++ UrlReader.stripped b :=
    fun a b => List.filter_append ..
  have hcolon : ∀ t : Text, UrlReader.stripped (':' :: '/' :: '/' :: t) =
      ':' :: '/' :: '/' :: UrlReader.stripped t := fun t => rfl
  have hopeningStrip : UrlReader.stripped opening = opening := by
    rcases hopening with rfl | rfl <;> rfl
  have hcleaned : whatwg.cleaned u = n ++ ':' :: '/' :: '/' ::
      (UrlReader.stripped user ++ (opening ++ (host ++ UrlReader.stripped after'))) := by
    have htrims : whatwg.cleaned u = UrlReader.stripped (Cuts.trimEnds UrlReader.isC0OrSpace u) := rfl
    rw [htrims, hfront, htrim, happend]
    simp only [front, happend, hcolon, hopeningStrip, hstripNil n (fun c hc => notC0_of_isAlpha (hn c hc)),
      hstripNil host (fun c hc => (plain_of_isLoopback hhost hc).2.2.2.2.2.1), List.append_assoc,
      List.cons_append]
  refine ⟨_, hcleaned, UrlReader.stripped user, UrlReader.stripped after', rfl, ?_, ?_, ?_, ?_⟩
  · exact fun c hc => huser c (List.mem_of_mem_filter hc)
  · intro c hc
    rcases List.eq_nil_or_concat' user with rfl | ⟨init, d, rfl⟩
    · simp [UrlReader.stripped] at hc
    · have hd : d = '@' := hlast d List.getLast?_concat
      have hkeep : UrlReader.stripped (init ++ [d]) = UrlReader.stripped init ++ [d] := by
        rw [happend, hd]
        rfl
      rw [hkeep, List.getLast?_concat] at hc
      exact (Option.some.inj hc) ▸ hd
  · intro c hc
    cases after' with
    | nil => exact absurd hc (by simp [UrlReader.stripped])
    | cons d after' =>
      obtain ⟨tail, htail⟩ := hprefix
      have hd := hafter d (by rw [← htail]; rfl)
      have hkeep : UrlReader.isTabOrNewline d = false := by
        rcases hd with rfl | hd
        · exact hstop
        · exact hends d hd
      have hhead : UrlReader.stripped (d :: after') = d :: UrlReader.stripped after' := by
        unfold UrlReader.stripped
        rw [List.filter_cons, hkeep]
        rfl
      rw [hhead] at hc
      exact Option.some.inj hc ▸ hd
  · intro a b hab
    obtain ⟨a', b', rfl, ha, hb⟩ := List.filter_eq_append_iff.1 hab
    obtain ⟨skipped, rest, rfl, hskipped, -, -⟩ := List.filter_eq_cons_iff.1 hb
    obtain ⟨tail, htail⟩ := hprefix
    obtain ⟨c, hc, hcends⟩ := hat (a' ++ skipped) (rest ++ tail) (by rw [← htail]; simp)
    have hkeep : (!UrlReader.isTabOrNewline c) = true := by
      rw [hends c hcends]
      rfl
    rcases List.mem_append.1 hc with hc | hc
    · exact ⟨c, ha ▸ List.mem_filter.2 ⟨hc, hkeep⟩, hcends⟩
    · exact absurd hkeep (by simpa using hskipped c hc)

/-- The authority a reader cuts is the located host with what follows it, up to its end. -/
theorem authority_of_located (hr : r.lastAt = true) (hopening : opening = [] ∨ opening = ['['])
    (hhost : isLoopback host = true) (h : Located r opening host stop rest) :
    ∃ after, r.withoutUserinfo (Cuts.before r.ends rest) = opening ++ (host ++ after) ∧
      ∀ c ∈ after.head?, c = stop := by
  obtain ⟨user, after, rfl, huser, hlast, hafter, hat⟩ := h
  have hopeningEnds : ∀ c ∈ opening, r.ends c = false ∧ c ≠ '@' := by
    intro c hc
    rcases hopening with rfl | rfl
    · exact absurd hc List.not_mem_nil
    · obtain rfl := List.mem_singleton.1 hc
      simp [UrlReader.ends, UrlReader.isSlash]
  have hcut : Cuts.before r.ends (user ++ (opening ++ (host ++ after))) =
      user ++ (opening ++ (host ++ Cuts.before r.ends after)) := by
    rw [Cuts.before_append huser, Cuts.before_append (fun c hc => (hopeningEnds c hc).1),
      Cuts.before_append (fun c hc => (plain_of_isLoopback hhost hc).1 r)]
  have hnoAt : '@' ∉ Cuts.before r.ends after := by
    intro hmem
    obtain ⟨a, b, hab⟩ := List.append_of_mem hmem
    obtain ⟨tail, htail, -⟩ := Cuts.eq_before_append r.ends after
    rw [hab, List.append_assoc, List.cons_append] at htail
    obtain ⟨c, hc, hcends⟩ := hat a (b ++ tail) htail
    have hcbefore : c ∈ Cuts.before r.ends after := hab ▸ List.mem_append_left _ hc
    rw [Cuts.not_sep_of_mem_before hcbefore] at hcends
    exact Bool.false_ne_true hcends
  refine ⟨Cuts.before r.ends after, ?_, ?_⟩
  · rw [hcut]
    apply UrlReader.withoutUserinfo_append hr hlast
    simp only [List.mem_append, not_or]
    exact ⟨fun h => (hopeningEnds _ h).2 rfl, fun h => (plain_of_isLoopback hhost h).2.2.2.2.1 rfl, hnoAt⟩
  · intro c hc
    cases after with
    | nil => simp [Cuts.before] at hc
    | cons d after =>
      cases hd : r.ends d with
      | true => simp [Cuts.before, hd] at hc
      | false =>
        have hc' : d = c := by simpa [Cuts.before, hd] using hc
        subst hc'
        rcases hafter d rfl with h | h
        · exact h
        · rw [hd] at h
          exact absurd h Bool.false_ne_true

/-- Without brackets the host is read up to its port. -/
theorem host_plain (hr : r.lastColon = false) (hhost : isLoopback host = true) {after : Text}
    (hafter : ∀ c ∈ after.head?, c = ':') : (r.hostAndPort (host ++ after)).1 = host := by
  have hmarks : ∀ x ∈ UrlReader.colons false host, Prod.snd x = false :=
    UrlReader.colons_outside (fun c hc => (plain_of_isLoopback hhost hc).2.1) false
  have hhead : ∀ x ∈ (UrlReader.colons false after).head?, Prod.snd x = true := by
    intro x hx
    cases after with
    | nil => simp [UrlReader.colons] at hx
    | cons c after =>
      obtain rfl := hafter c rfl
      obtain rfl := Option.some.inj hx
      rfl
  rw [UrlReader.hostAndPort_fst hr, UrlReader.colons_append_plain
    (fun c hc => ⟨(plain_of_isLoopback hhost hc).2.2.1, (plain_of_isLoopback hhost hc).2.2.2.1⟩),
    Cuts.before_append_of_head hmarks hhead, UrlReader.map_fst_colons]

/-- A loopback host in brackets is no host of the grammar. -/
theorem not_accepts_bracketed (g : HostGrammar) (hr : r.lastColon = false)
    (hhost : isLoopback host = true) {after : Text} (hafter : ∀ c ∈ after.head?, c = ']') :
    g.accepts (r.hostAndPort ('[' :: (host ++ after))).1 = false := by
  have hinside : ∃ closing : Text, (r.hostAndPort ('[' :: (host ++ after))).1 = '[' :: (host ++ closing) ∧
      ∀ c ∈ closing.head?, c = ']' := by
    have hcolons : UrlReader.colons false ('[' :: (host ++ after)) =
        ('[' :: host).map (fun c => (c, false)) ++ UrlReader.colons true after := by
      rw [UrlReader.colons, if_pos rfl, UrlReader.colons_append_inside
        (fun c hc => ⟨(plain_of_isLoopback hhost hc).2.2.1, (plain_of_isLoopback hhost hc).2.2.2.1⟩)]
      rfl
    refine ⟨(Cuts.before Prod.snd (UrlReader.colons true after)).map Prod.fst, ?_, ?_⟩
    · rw [UrlReader.hostAndPort_fst hr, hcolons, Cuts.before_append (by simp), List.map_append]
      simp [Function.comp_def]
    · intro c hc
      cases after with
      | nil => simp [UrlReader.colons, Cuts.before] at hc
      | cons d after =>
        obtain rfl := hafter d rfl
        simp [UrlReader.colons, Cuts.before] at hc
        exact hc.symm
  obtain ⟨closing, hread, hclosing⟩ := hinside
  rw [hread, Bool.eq_false_iff]
  intro haccepts
  obtain ⟨inner, hinner, hclose, hliteral⟩ := g.literal _ haccepts List.mem_cons_self
  have hsame : host ++ closing = inner ++ [']'] := (List.cons.inj hinner).2
  have hnoClose : ']' ∉ host := fun h => (plain_of_isLoopback hhost h).2.2.2.1 rfl
  have hhostInner : host = inner := by
    cases closing with
    | nil =>
      rw [List.append_nil] at hsame
      exact absurd (hsame ▸ List.mem_append_right _ (List.mem_singleton_self _)) hnoClose
    | cons d closing =>
      obtain rfl := hclosing d rfl
      exact (Separators.append_sep_inj hnoClose hclose hsame).1
  subst hhostInner
  rcases hliteral with hcolon | ⟨c, hc, hv⟩
  · exact (plain_of_isLoopback hhost hcolon).2.1 rfl
  · have hhead := head_of_isLoopback hhost hc
    rcases hv with rfl | rfl
    · exact hhead.1 rfl
    · exact hhead.2 rfl

/-- A located loopback host is what is read. -/
theorem isLoopback_of_located (g : HostGrammar) {u n scheme host' : Text}
    {port : Option Text} (hat : r.lastAt = true) (hcolon : r.lastColon = false) (hstop : Stop opening stop)
    (hhost : isLoopback host = true) (hlocated : Located r opening host stop rest)
    (hclean : r.cleaned u = n ++ ':' :: '/' :: '/' :: rest) (hn : ∀ c ∈ n, c.isAlpha = true)
    (hread : r.read u = some ⟨scheme, host', port⟩) (haccepts : g.accepts host' = true) :
    isLoopback host' = true := by
  have hopening : opening = [] ∨ opening = ['['] := hstop.imp And.left And.left
  have hhead : ∀ c ∈ rest.head?, r.isSlash c = false := by
    intro c hc
    obtain ⟨user, after, hrest, huser, -⟩ := hlocated
    have hends : r.ends c = false := by
      cases user with
      | cons d user =>
        rw [hrest] at hc
        obtain rfl := Option.some.inj hc
        exact huser d List.mem_cons_self
      | nil =>
        cases host with
        | nil => exact absurd rfl (ne_nil_of_isLoopback hhost)
        | cons d host =>
          rw [hrest] at hc
          rcases hopening with rfl | rfl
          · obtain rfl := Option.some.inj hc
            exact (plain_of_isLoopback hhost List.mem_cons_self).1 r
          · obtain rfl := Option.some.inj hc
            simp [UrlReader.ends, UrlReader.isSlash]
    simp only [UrlReader.ends, Bool.or_eq_false_iff] at hends
    exact hends.1.1
  obtain ⟨after, rest', hsplit, hslashes, hparts⟩ := UrlReader.read_eq_some_iff.1 hread
  rw [UrlReader.splitScheme_of_cleaned r hclean hn] at hsplit
  obtain ⟨-, rfl⟩ := Prod.mk.inj (Option.some.inj hsplit)
  rw [UrlReader.afterSlashes_two r hhead] at hslashes
  obtain rfl := Option.some.inj hslashes
  obtain ⟨after, hauthority, hafter⟩ := authority_of_located hat hopening hhost hlocated
  rw [hauthority] at hparts
  have hhost' : host' = (r.hostAndPort (opening ++ (host ++ after))).1 := by rw [hparts]
  rcases hstop with ⟨rfl, rfl⟩ | ⟨rfl, rfl⟩
  · rw [hhost', List.nil_append, host_plain hcolon hhost hafter]
    exact hhost
  · rw [hhost', List.singleton_append, not_accepts_bracketed g hcolon hhost hafter] at haccepts
    exact absurd haccepts Bool.false_ne_true

end Read

/-- A text that is written with `http://`. -/
theorem http_split {u : Text} (h : "http://".toList <+: toAsciiLowercase u) :
    ∃ n, u = n ++ ':' :: '/' :: '/' :: u.drop 7 ∧ toAsciiLowercase n = "http".toList ∧
      (∀ c ∈ n, c.isAlpha = true) ∧ n.length = 4 := by
  have hscheme : "http://".toList = "http".toList ++ "://".toList := by decide
  rw [hscheme] at h
  obtain ⟨n, rest, rfl, hname, hn⟩ := UrlReader.eq_of_scheme_prefix (by decide) h
  have hlength : n.length = 4 := by
    rw [← Letters.length_toAsciiLowercase, hname]
    decide
  refine ⟨n, ?_, hname, hn, hlength⟩
  rw [List.drop_append, hlength, List.drop_eq_nil_of_le (by omega)]
  rfl

/-- What is accepted, is written with `http://` and hides no host from a reader stays local. -/
theorem readsLoopback_of_accepted (g : HostGrammar) {r : UrlReader} (hr : r ∈ [rfc, whatwg]) {s : Text}
    (h : validateRedirectUri s = .ok ()) (hhttp : "http://".toList <+: toAsciiLowercase (Text.trim s))
    (hhides : ¬ HidesHost r (Text.trim s)) : ReadsLoopback g r (Text.trim s) := by
  intro host' port hread haccepts
  have hchecked := (validateRedirectUri_ok h).2.2.2 hhttp
  obtain ⟨n, hu, -, hn, hlength⟩ := http_split hhttp
  generalize Text.trim s = u at hchecked hhides hread hu
  have hne : n ≠ [] := by
    rintro rfl
    exact absurd hlength (by decide)
  unfold HidesHost at hhides
  rw [← Letters.toAsciiLowercase_drop] at hchecked
  obtain ⟨opening, host, stop, hstop, hhost, user, after, hrest, huser, hat, hafter⟩ :=
    host_of_checked hchecked
  have hlocated := located_of_checked hrest huser hat hafter hhides
  rcases List.mem_pair.1 hr with rfl | rfl
  · exact isLoopback_of_located g rfl rfl hstop hhost hlocated hu hn hread haccepts
  · have htab : UrlReader.isTabOrNewline stop = false := by
      rcases hstop with ⟨-, rfl⟩ | ⟨-, rfl⟩ <;> decide
    obtain ⟨rest', hclean, hlocated'⟩ :=
      located_cleaned hn hne hu (hstop.imp And.left And.left) hhost hlocated htab
    exact isLoopback_of_located g rfl rfl hstop hhost hlocated' hclean hn hread haccepts

/-! ## What is promised -/

theorem urn_of_splitScheme {r : UrlReader} {u rest : Text} (h : r.splitScheme u = some ("urn".toList, rest)) :
    "urn:".toList <+: toAsciiLowercase (r.cleaned u) := by
  obtain ⟨n, hclean, hname⟩ := UrlReader.splitScheme_eq_some h
  have hurn : "urn:".toList = "urn".toList ++ [':'] := by decide
  rw [hclean, Letters.toAsciiLowercase_append, hname, hurn, List.prefix_append_right_inj]
  exact ⟨toAsciiLowercase rest, rfl⟩

theorem splitScheme_of_urn {r : UrlReader} {u : Text} (h : "urn:".toList <+: toAsciiLowercase (r.cleaned u)) :
    ∃ rest, r.splitScheme u = some ("urn".toList, rest) := by
  have hurn : "urn:".toList = "urn".toList ++ [':'] := by decide
  rw [hurn] at h
  obtain ⟨n, rest, hclean, hname, hn⟩ := UrlReader.eq_of_colon_prefix (by decide) h
  refine ⟨rest, ?_⟩
  rw [UrlReader.splitScheme_of_cleaned r hclean hn, hname]

/-- The one grammar reads `http` only where it is written `http://`. -/
theorem http_of_rfc {u host : Text} {port : Option Text}
    (h : rfc.read u = some ⟨"http".toList, host, port⟩) : "http://".toList <+: toAsciiLowercase u := by
  obtain ⟨after, rest, hsplit, hslashes, -⟩ := UrlReader.read_eq_some_iff.1 h
  obtain ⟨n, hclean, hname⟩ := UrlReader.splitScheme_eq_some hsplit
  have hu : u = n ++ ':' :: after := hclean
  have hafter : after = '/' :: '/' :: rest := by
    match after, hslashes with
    | [], hslashes => simp [UrlReader.afterSlashes, rfc] at hslashes
    | [a], hslashes => simp [UrlReader.afterSlashes, rfc] at hslashes
    | a :: b :: tail, hslashes =>
      simp [UrlReader.afterSlashes, rfc, UrlReader.isSlash] at hslashes
      obtain ⟨⟨rfl, rfl⟩, rfl⟩ := hslashes
      rfl
  have hscheme : "http://".toList = "http".toList ++ [':', '/', '/'] := by decide
  rw [hu, hafter, Letters.toAsciiLowercase_append, hname, hscheme, List.prefix_append_right_inj]
  exact ⟨toAsciiLowercase rest, rfl⟩

/-- Where the scheme and its slashes are seen, what is read is what is written there. -/
theorem readsLoopback_iff {g : HostGrammar} {r : UrlReader} {u : Text}
    (h : "http:".toList <+: toAsciiLowercase (r.cleaned u))
    (hslashes : r.afterSlashes ((r.cleaned u).drop 5) = some (behindScheme r u)) :
    ReadsLoopback g r u ↔ NamesLocal g r u := by
  have hhttp : "http:".toList = "http".toList ++ [':'] := by decide
  rw [hhttp] at h
  obtain ⟨n, rest, hclean, hname, hn⟩ := UrlReader.eq_of_colon_prefix (by decide) h
  have hlength : n.length = 4 := by
    rw [← Letters.length_toAsciiLowercase, hname]
    decide
  have hdrop : (r.cleaned u).drop 5 = rest := by
    rw [hclean, List.append_cons]
    exact List.drop_left' (by simp [hlength])
  have hsplit := UrlReader.splitScheme_of_cleaned r hclean hn
  rw [hname] at hsplit
  rw [hdrop] at hslashes
  refine forall_congr' fun host => forall_congr' fun port => imp_congr_left ?_
  rw [UrlReader.read_eq_some_iff]
  constructor
  · rintro ⟨after, rest', hsplit', hslashes', hparts⟩
    obtain ⟨-, rfl⟩ := Prod.mk.inj (Option.some.inj (hsplit.symm.trans hsplit'))
    obtain rfl := Option.some.inj (hslashes.symm.trans hslashes')
    exact hparts
  · intro hparts
    exact ⟨rest, _, hsplit, hslashes, hparts⟩

/-- Skipping leaves a front in place that has nothing to skip. -/
theorem cleaned_front {front : Text} (hne : front ≠ []) (hfront : ∀ c ∈ front, UrlReader.isC0OrSpace c = false)
    (after : Text) : ∃ after', whatwg.cleaned (front ++ after) = front ++ after' := by
  obtain ⟨after', htrim, -⟩ := Cuts.trimEnds_append hne (fun c hc => hfront c (List.mem_of_mem_head? hc))
    (fun c hc => hfront c (List.mem_of_mem_getLast? hc)) after
  refine ⟨UrlReader.stripped after', ?_⟩
  show UrlReader.stripped (Cuts.trimEnds UrlReader.isC0OrSpace (front ++ after)) = _
  rw [htrim]
  exact (List.filter_append ..).trans (congrArg (· ++ _) (UrlReader.stripped_of_none hfront))

theorem readsLoopback_iff_of_hides {g : HostGrammar} {r : UrlReader} (hr : r ∈ [rfc, whatwg]) {u : Text}
    (hhttp : "http://".toList <+: toAsciiLowercase u) (hhides : HidesHost r u) :
    ReadsLoopback g r u ↔ NamesLocal g r u := by
  obtain ⟨n, hu, hname, hn, hlength⟩ := http_split hhttp
  have hprefix : ∀ t : Text, "http:".toList <+: toAsciiLowercase (n ++ ':' :: t) := by
    intro t
    rw [Letters.toAsciiLowercase_append, hname]
    exact ⟨toAsciiLowercase t, rfl⟩
  rcases List.mem_pair.1 hr with rfl | rfl
  · have hdrop : (rfc.cleaned u).drop 5 = '/' :: '/' :: u.drop 7 := by
      show u.drop 5 = _
      conv_lhs => rw [hu, List.append_cons]
      exact List.drop_left' (by simp [hlength])
    obtain ⟨host, d, tail, hcut, -⟩ := hhides
    -- in front of the host stand the two slashes and no third
    have hhead : ∀ c ∈ (u.drop 7).head?, rfc.isSlash c = false := by
      intro c hc
      obtain ⟨rest, hrest⟩ := List.head?_eq_some_iff.1 hc
      rw [hrest, Cuts.before, List.takeWhile_cons] at hcut
      by_contra hslash
      have hc : c = '/' := by simpa [UrlReader.isSlash, rfc] using hslash
      simp [hc] at hcut
    refine readsLoopback_iff (by show _ <+: toAsciiLowercase u; rw [hu]; exact hprefix _) ?_
    unfold behindScheme
    rw [hdrop, UrlReader.afterSlashes_two rfc hhead]
    cases hrest : u.drop 7 with
    | nil => rfl
    | cons c rest =>
      show some (c :: rest) = some ((c :: rest).dropWhile rfc.isSlash)
      rw [List.dropWhile_cons_of_neg (by simp [hhead c (by simp [hrest])])]
  · have hplain : ∀ c ∈ n ++ [':'], UrlReader.isC0OrSpace c = false := by
      intro c hc
      rcases List.mem_append.1 hc with hc | hc
      · exact notC0_of_isAlpha (hn c hc)
      · rw [List.mem_singleton.1 hc]
        rfl
    obtain ⟨after', hclean⟩ := cleaned_front (by simp) hplain ('/' :: '/' :: u.drop 7)
    rw [← List.append_cons, ← hu, ← List.append_cons] at hclean
    exact readsLoopback_iff (by rw [hclean]; exact hprefix _) rfl

theorem http_of_whatwg {u host : Text} {port : Option Text}
    (h : whatwg.read u = some ⟨"http".toList, host, port⟩) :
    "http:".toList <+: toAsciiLowercase (whatwg.cleaned u) := by
  obtain ⟨after, rest, hsplit, -⟩ := UrlReader.read_eq_some_iff.1 h
  obtain ⟨n, hclean, hname⟩ := UrlReader.splitScheme_eq_some hsplit
  have hscheme : "http:".toList = "http".toList ++ [':'] := by decide
  rw [hclean, Letters.toAsciiLowercase_append, hname, hscheme, List.prefix_append_right_inj]
  exact ⟨toAsciiLowercase after, rfl⟩

/-- An accepted text stays local exactly if it is plainly written. -/
theorem accepted_stays_local_iff (g : HostGrammar) {s : Text}
    (h : validateRedirectUri s = .ok () ∨ validateLogoutUrl s = .ok ()) :
    StaysLocal g s ↔ PlainlyWritten g s := by
  have haccepted : validateRedirectUri s = .ok () := h.elim id validateRedirectUri_of_logout
  obtain ⟨hshort, hstar, hurn, -⟩ := validateRedirectUri_ok haccepted
  constructor
  · intro hlocal
    refine ⟨fun _ => hlocal.short, ?_, ?_, ?_⟩
    · intro hhidden
      obtain ⟨rest, hsplit⟩ := splitScheme_of_urn hhidden
      exact absurd hsplit (hlocal.noUrn whatwg (by simp) rest)
    · intro hhidden
      exact .inr ((readsLoopback_iff hhidden rfl).1 (hlocal.loopback whatwg (by simp)))
    · intro hhttp r hr hhides
      exact (readsLoopback_iff_of_hides hr hhttp hhides).1 (hlocal.loopback r hr)
  · intro hplain
    refine ⟨star_notMem_of_trim hstar, hplain.notPadded hshort, ?_, ?_⟩
    · intro r hr rest hsplit
      rcases List.mem_pair.1 hr with rfl | rfl
      · exact hurn (urn_of_splitScheme hsplit)
      · exact hurn (hplain.urnInSight (urn_of_splitScheme hsplit))
    · intro r hr
      by_cases hhttp : "http://".toList <+: toAsciiLowercase (Text.trim s)
      · by_cases hhides : HidesHost r (Text.trim s)
        · exact (readsLoopback_iff_of_hides hr hhttp hhides).2 (hplain.hostInSight hhttp r hr hhides)
        · exact readsLoopback_of_accepted g hr haccepted hhttp hhides
      · intro host port hread
        rcases List.mem_pair.1 hr with rfl | rfl
        · exact absurd (http_of_rfc hread) hhttp
        · have hhidden := http_of_whatwg hread
          exact (readsLoopback_iff hhidden rfl).2 ((hplain.httpInSight hhidden).resolve_left hhttp)
            host port hread

/-- A grammar of names, with no literal. -/
def names : HostGrammar where
  accepts host := !List.contains host '['
  literal host haccepts hmem := by
    rw [List.contains_iff_mem.2 hmem] at haccepts
    exact absurd haccepts (by decide)

/-- A query hides the local machine behind itself. -/
theorem accepted_stays_local_iff_hidden : StaysLocal names "http://localhost?@127.0.0.1".toList := by
  refine (accepted_stays_local_iff names (.inl (by decide))).2
    ⟨by decide, by decide, fun _ => .inl (by decide), fun _ r hr _ host port hparts _ => ?_⟩
  have hread : r.hostAndPort (r.withoutUserinfo (Cuts.before r.ends
      (behindScheme r (Text.trim "http://localhost?@127.0.0.1".toList)))) = ("localhost".toList, none) := by
    rcases List.mem_pair.1 hr with rfl | rfl <;> decide
  rw [hread] at hparts
  cases hparts
  rfl

/-- A query hides the host from the check. -/
theorem query_hides_host :
    ¬ ∀ (g : HostGrammar) (s : Text),
      (validateRedirectUri s = .ok () ∨ validateLogoutUrl s = .ok ()) → StaysLocal g s := by
  intro hclaim
  have hlocal := hclaim names "http://evil.com?@localhost".toList (.inl (by decide))
  exact absurd (hlocal.loopback rfc (by simp) "evil.com".toList none (by decide) (by decide)) (by decide)

end Redirect

end App
