import AzAppToolkit.Lib.UrlReader

set_option autoImplicit false

/-! # The issuer of a federated credential

`validate_issuer` of `federation.rs`. The issuer is the URL the signing keys are fetched from, so what
is accepted must name one host, whichever way it is read. -/

namespace Federation

def maxFieldLen : Nat := 600

/-- `{:04X}` of a code point. -/
def hex4 (c : Char) : Text :=
  let digits := (Nat.toDigits 16 c.toNat).map Char.toUpper
  List.replicate (4 - digits.length) '0' ++ digits

/-- The checks every value shares. `debug` is the escaping of `{:?}`. -/
def validateField (debug : Text → Text) (label value : Text) : Except Text Unit :=
  if (Text.trim value).isEmpty then .error (label ++ " is required".toList)
  else if value.length > maxFieldLen then
    .error (label ++ " is longer than 600 characters".toList)
  else if Text.trim value ≠ value then
    .error (label ++ " has leading or trailing whitespace, which silently blocks the token exchange: ".toList ++
      debug value)
  else if List.contains value '*' then
    .error (label ++ " may not contain a wildcard: ".toList ++ value)
  else match value.find? Text.isControl with
    | some bad => .error (label ++ " contains a control character (U+".toList ++ hex4 bad ++ [')'])
    | none => .ok ()

def isHexDigit (c : Char) : Bool :=
  c.isDigit || ('a' ≤ c && c ≤ 'f') || ('A' ≤ c && c ≤ 'F')

def isAddressChar (c : Char) : Bool := isHexDigit c || c == ':' || c == '.'

def isHostChar (c : Char) : Bool := c.isAlphanum || c == '.' || c == '-'

/-- A port of 1 to 5 digits that fits in a `u16`. -/
def isPort (p : Text) : Bool :=
  !p.isEmpty && decide (p.length ≤ 5) && p.all Char.isDigit && (Text.parseUnsigned 16 p).isSome

/-- The host check, and the port to check. -/
def splitAuthority (authority : Text) : Option (Bool × Option Text) :=
  if ['['].isPrefixOf authority then
    match Text.breakOn [']'] (authority.drop 1) with
    | some (addr, after) =>
      some (!addr.isEmpty && addr.all isAddressChar,
        if after.isEmpty then none
        else some (if [':'].isPrefixOf after then after.drop 1 else []))
    | none => none
  else
    match Text.breakOn [':'] authority with
    | some (host, port) => some (!host.isEmpty && host.all isHostChar, some port)
    | none => some (!authority.isEmpty && authority.all isHostChar, none)

/-- `host[:port]`. -/
def isHostAndPort (authority : Text) : Bool :=
  match splitAuthority authority with
  | some (hostOk, port) => hostOk && port.all isPort
  | none => false

def endsAuthority (c : Char) : Bool := c == '/' || c == '?' || c == '#'

def validateIssuer (debug : Text → Text) (issuer : Text) : Except Text Unit :=
  match validateField debug "issuer".toList issuer with
  | .error reason => .error reason
  | .ok () =>
    let lower := toAsciiLowercase issuer
    let authority := (Text.splitOn endsAuthority (lower.drop 8)).head?.getD []
    if ¬ "https://".toList.isPrefixOf lower then
      .error ("issuer must be an https URL (the external provider's OpenID Connect issuer): ".toList ++
        issuer)
    else if List.contains issuer '\\' then
      .error (("issuer URL contains a backslash, which some parsers read as '/' and so hides the host " ++
        "the keys are actually fetched from: ").toList ++ issuer)
    else if issuer.any isWhitespace then
      .error ("issuer URL contains whitespace: ".toList ++ debug issuer)
    else if authority.isEmpty then .error ("issuer URL has no host: ".toList ++ issuer)
    else if List.contains authority '@' then
      .error (("issuer URL embeds credentials, which hide the host the keys are actually fetched " ++
        "from: ").toList ++ issuer)
    else if ¬ isHostAndPort authority then
      .error (("issuer URL host must be a plain host name (letters, digits, '.', '-'; punycode for an " ++
        "internationalised name) with an optional port: ").toList ++ issuer)
    else .ok ()

/-! ## What an issuer is -/

/-- A host name, or an address in brackets. -/
inductive IsHost : Text → Prop where
  | name {host : Text} (hne : host ≠ []) (hchars : ∀ c ∈ host, isHostChar c = true) : IsHost host
  | address {addr : Text} (hne : addr ≠ []) (hchars : ∀ c ∈ addr, isAddressChar c = true) :
      IsHost ('[' :: (addr ++ [']']))

/-- One to five digits, of a number below 65536. -/
structure IsPort (port : Text) : Prop where
  nonempty : port ≠ []
  short : port.length ≤ 5
  digits : ∀ c ∈ port, c.isDigit = true
  fits : Nat.ofDigitChars 10 port 0 < 65536

def portSuffix : Option Text → Text
  | none => []
  | some port => ':' :: port

/-- Nothing, or what follows the authority. -/
structure IsTail (tail : Text) : Prop where
  begins : ∀ c ∈ tail.head?, endsAuthority c = true
  plain : ∀ c ∈ tail, c ≠ '*' ∧ c ≠ '\\' ∧ isWhitespace c = false ∧ Text.isControl c = false

/-- An issuer in its parts. -/
structure Issuer where
  scheme : Text
  host : Text
  port : Option Text
  tail : Text
  isHttps : toAsciiLowercase scheme = "https://".toList
  isHost : IsHost host
  isPort : ∀ p ∈ port, IsPort p
  isTail : IsTail tail
  short : (scheme ++ host ++ portSuffix port ++ tail).length ≤ maxFieldLen

def Issuer.text (i : Issuer) : Text := i.scheme ++ i.host ++ portSuffix i.port ++ i.tail

/-! ## What the checks ask -/

theorem validateField_ok_iff {debug : Text → Text} {label value : Text} :
    validateField debug label value = .ok () ↔
      Text.trim value ≠ [] ∧ value.length ≤ maxFieldLen ∧ Text.trim value = value ∧ '*' ∉ value ∧
        ∀ c ∈ value, Text.isControl c = false := by
  unfold validateField
  split_ifs with hempty hlength htrim hstar
  · rw [List.isEmpty_iff] at hempty
    simp [hempty]
  · have hlong : ¬ value.length ≤ maxFieldLen := by omega
    simp [hlong]
  · simp [htrim]
  · have hstar' : '*' ∈ value := List.contains_iff_mem.1 hstar
    simp [hstar']
  · have hempty' : Text.trim value ≠ [] := fun h => hempty (List.isEmpty_iff.2 h)
    have hlength' : value.length ≤ maxFieldLen := by omega
    have hstar' : '*' ∉ value := fun h => hstar (List.contains_iff_mem.2 h)
    cases hfind : value.find? Text.isControl with
    | some bad =>
      have hbad := List.find?_some hfind
      have hmem := List.mem_of_find?_eq_some hfind
      simp only [reduceCtorEq, false_iff, not_and]
      intro _ _ _ _ hall
      rw [hall bad hmem] at hbad
      exact Bool.false_ne_true hbad
    | none =>
      have hall : ∀ c ∈ value, Text.isControl c = false := by
        intro c hc
        exact Bool.eq_false_iff.2 (List.find?_eq_none.1 hfind c hc)
      simp only [true_iff]
      exact ⟨hempty', hlength', not_not.1 htrim, hstar', hall⟩

/-- The authority the checks are made on. -/
def checkedAuthority (issuer : Text) : Text :=
  Cuts.before endsAuthority ((toAsciiLowercase issuer).drop 8)

theorem validateIssuer_ok_iff {debug : Text → Text} {issuer : Text} :
    validateIssuer debug issuer = .ok () ↔
      validateField debug "issuer".toList issuer = .ok () ∧
        "https://".toList <+: toAsciiLowercase issuer ∧ '\\' ∉ issuer ∧
        (∀ c ∈ issuer, isWhitespace c = false) ∧ checkedAuthority issuer ≠ [] ∧
        '@' ∉ checkedAuthority issuer ∧ isHostAndPort (checkedAuthority issuer) = true := by
  unfold validateIssuer
  simp only [Cuts.head?_splitOn]
  cases hfield : validateField debug "issuer".toList issuer with
  | error reason => simp
  | ok u =>
    unfold checkedAuthority
    simp only [List.isPrefixOf_iff_prefix, List.contains_iff_mem, List.isEmpty_iff, List.any_eq_true,
      true_and]
    constructor
    · intro h
      split_ifs at h with hscheme hslash hblank hempty hat hhost
      refine ⟨hscheme, hslash, ?_, hempty, hat, hhost⟩
      intro c hc
      exact Bool.eq_false_iff.2 (fun hspace => hblank ⟨c, hc, hspace⟩)
    · rintro ⟨hscheme, hslash, hblank, hempty, hat, hhost⟩
      have hblank' : ¬ ∃ c ∈ issuer, isWhitespace c = true := by
        rintro ⟨c, hc, hspace⟩
        rw [hblank c hc] at hspace
        exact Bool.false_ne_true hspace
      rw [if_neg (not_not.2 hscheme), if_neg hslash, if_neg hblank', if_neg hempty, if_neg hat,
        if_neg (not_not.2 hhost)]

/-! ## The host and the port -/

theorem isHexDigit_iff (c : Char) : isHexDigit c = true ↔ (48 ≤ c.toNat ∧ c.toNat ≤ 57) ∨
    (97 ≤ c.toNat ∧ c.toNat ≤ 102) ∨ (65 ≤ c.toNat ∧ c.toNat ≤ 70) := by
  simp only [isHexDigit, Char.isDigit, Bool.or_eq_true, Bool.and_eq_true, decide_eq_true_eq,
    Char.le_def, ge_iff_le, UInt32.le_iff_toNat_le, or_assoc]
  rfl

theorem isDigit_iff (c : Char) : c.isDigit = true ↔ 48 ≤ c.toNat ∧ c.toNat ≤ 57 := by
  simp only [Char.isDigit, Bool.and_eq_true, decide_eq_true_eq, ge_iff_le, UInt32.le_iff_toNat_le]
  rfl

/-- The characters of a host and its port. -/
def isAuthorityChar (c : Char) : Bool :=
  c.isAlphanum || c == '.' || c == '-' || c == ':' || c == '[' || c == ']'

variable {c : Char}

theorem isAuthorityChar_code (h : isAuthorityChar c = true) :
    (48 ≤ c.toNat ∧ c.toNat ≤ 57) ∨ (65 ≤ c.toNat ∧ c.toNat ≤ 90) ∨
      (97 ≤ c.toNat ∧ c.toNat ≤ 122) ∨ c.toNat = 46 ∨ c.toNat = 45 ∨ c.toNat = 58 ∨ c.toNat = 91 ∨
        c.toNat = 93 := by
  simp only [isAuthorityChar, Bool.or_eq_true, Letters.isAlphanum_iff, Letters.isAlpha_iff,
    beq_iff_eq, Letters.char_eq_iff] at h
  have hcodes : '.'.toNat = 46 ∧ '-'.toNat = 45 ∧ ':'.toNat = 58 ∧ '['.toNat = 91 ∧ ']'.toNat = 93 := by
    decide
  omega

/-- None of them has a meaning elsewhere in a URL, or is a blank or a control. -/
theorem isAuthorityChar_plain (h : isAuthorityChar c = true) :
    (c ≠ '*' ∧ c ≠ '\\' ∧ isWhitespace c = false ∧ Text.isControl c = false) ∧
      c ≠ '/' ∧ c ≠ '?' ∧ c ≠ '#' ∧ c ≠ '@' := by
  have hcode := isAuthorityChar_code h
  have hcodes : '*'.toNat = 42 ∧ '\\'.toNat = 92 ∧ '/'.toNat = 47 ∧ '?'.toNat = 63 ∧ '#'.toNat = 35 ∧
      '@'.toNat = 64 := by decide
  simp only [ne_eq, Letters.char_eq_iff, isWhitespace, Text.isControl, Bool.or_eq_false_iff,
    Bool.and_eq_false_iff, decide_eq_false_iff_not, beq_eq_false_iff_ne]
  omega

theorem isAuthorityChar_of_host (h : isHostChar c = true) : isAuthorityChar c = true := by
  unfold isHostChar at h
  unfold isAuthorityChar
  rw [h]
  rfl

theorem isAuthorityChar_of_address (h : isAddressChar c = true) : isAuthorityChar c = true := by
  unfold isAddressChar at h
  simp only [Bool.or_eq_true, isHexDigit_iff, beq_iff_eq] at h
  simp only [isAuthorityChar, Bool.or_eq_true, Letters.isAlphanum_iff, Letters.isAlpha_iff, beq_iff_eq]
  rcases h with (h | h) | h
  · omega
  · exact .inl (.inl (.inr h))
  · exact .inl (.inl (.inl (.inl (.inr h))))

theorem isAuthorityChar_of_digit (h : c.isDigit = true) : isAuthorityChar c = true := by
  simp only [isAuthorityChar, Char.isAlphanum, h, Bool.or_true, Bool.true_or]

/-- No letter is a bracket or a colon. -/
theorem isHostChar_ne (h : isHostChar c = true) : c ≠ ':' ∧ c ≠ '[' ∧ c ≠ ']' := by
  refine ⟨?_, ?_, ?_⟩ <;> rintro rfl <;> exact absurd h (by decide)

theorem isAddressChar_ne (h : isAddressChar c = true) : c ≠ '[' ∧ c ≠ ']' := by
  refine ⟨?_, ?_⟩ <;> rintro rfl <;> exact absurd h (by decide)

theorem isDigit_ne_colon (h : c.isDigit = true) : c ≠ ':' := by
  rintro rfl
  exact absurd h (by decide)

theorem isHostChar_toLower (c : Char) : isHostChar c.toLower = isHostChar c := by
  rcases Letters.toLower_cases c with ⟨hlow, hhigh, hcode⟩ | ⟨-, h⟩
  · have hupper : isHostChar c = true := by
      simp only [isHostChar, Bool.or_eq_true, Letters.isAlphanum_iff, Letters.isAlpha_iff]
      omega
    have hlower : isHostChar c.toLower = true := by
      simp only [isHostChar, Bool.or_eq_true, Letters.isAlphanum_iff, Letters.isAlpha_iff]
      omega
    rw [hupper, hlower]
  · rw [h]

theorem isAddressChar_toLower (c : Char) : isAddressChar c.toLower = isAddressChar c := by
  rcases Letters.toLower_cases c with ⟨hlow, hhigh, hcode⟩ | ⟨-, h⟩
  · have hcodes : ':'.toNat = 58 ∧ '.'.toNat = 46 := by decide
    rw [Bool.eq_iff_iff]
    simp only [isAddressChar, Bool.or_eq_true, isHexDigit_iff, beq_iff_eq, Letters.char_eq_iff]
    omega
  · rw [h]

theorem endsAuthority_toLower (c : Char) : endsAuthority c.toLower = endsAuthority c := by
  unfold endsAuthority
  rw [Cuts.beq_toLower (by decide), Cuts.beq_toLower (by decide), Cuts.beq_toLower (by decide)]

theorem toLower_of_isDigit (h : c.isDigit = true) : c.toLower = c := by
  rw [isDigit_iff] at h
  rcases Letters.toLower_cases c with ⟨hlow, -, -⟩ | ⟨-, hsame⟩
  · omega
  · exact hsame

theorem toAsciiLowercase_of_isPort {port : Text} (h : IsPort port) : toAsciiLowercase port = port := by
  unfold toAsciiLowercase
  rw [List.map_congr_left (fun c hc => toLower_of_isDigit (h.digits c hc)), List.map_id']

theorem parseUnsigned_of_digits {bits : Nat} {s : Text} (hne : s ≠ []) (hdigits : ∀ c ∈ s, c.isDigit = true) :
    Text.parseUnsigned bits s =
      if Nat.ofDigitChars 10 s 0 < 2 ^ bits then some (Nat.ofDigitChars 10 s 0) else none := by
  have hplus : ['+'].isPrefixOf s = false := by
    rw [Bool.eq_false_iff, Ne, List.isPrefixOf_iff_prefix]
    intro hle
    exact absurd (hdigits '+' (hle.subset List.mem_cons_self)) (by decide)
  have hany : s.any (fun c => !c.isDigit) = false := by
    rw [List.any_eq_false]
    intro c hc
    rw [hdigits c hc]
    simp
  unfold Text.parseUnsigned
  simp only [hplus, hany, List.isEmpty_eq_false_iff.2 hne, Bool.false_eq_true, if_false, Bool.or_false,
    Nat.ofDigitChars_eq_foldl]

theorem isPort_iff {port : Text} : isPort port = true ↔ IsPort port := by
  unfold isPort
  simp only [Bool.and_eq_true, Bool.not_eq_true', List.isEmpty_eq_false_iff, decide_eq_true_eq,
    List.all_eq_true]
  constructor
  · rintro ⟨⟨⟨hne, hshort⟩, hdigits⟩, hfits⟩
    rw [parseUnsigned_of_digits hne hdigits] at hfits
    split_ifs at hfits with hlt
    · exact ⟨hne, hshort, hdigits, hlt⟩
    · exact absurd hfits Bool.false_ne_true
  · intro h
    have hfits : Nat.ofDigitChars 10 port 0 < 2 ^ 16 := h.fits
    rw [parseUnsigned_of_digits h.nonempty h.digits, if_pos hfits]
    exact ⟨⟨⟨h.nonempty, h.short⟩, h.digits⟩, rfl⟩

/-- The recogniser accepts a host and a port, or a host. -/
theorem isHostAndPort_iff {authority : Text} :
    isHostAndPort authority = true ↔
      ∃ host port, authority = host ++ portSuffix port ∧ IsHost host ∧ ∀ p ∈ port, IsPort p := by
  unfold isHostAndPort splitAuthority
  constructor
  · intro h
    split_ifs at h with hbracket
    · obtain ⟨rest, rfl⟩ := List.isPrefixOf_iff_prefix.1 hbracket
      rw [List.singleton_append, List.drop_one, List.tail_cons] at h
      cases hbreak : Text.breakOn [']'] rest with
      | none => simp [hbreak] at h
      | some parts =>
        obtain ⟨addr, after⟩ := parts
        obtain ⟨rfl, -⟩ := Cuts.breakOn_eq_some_iff.1 hbreak
        simp only [hbreak, Bool.and_eq_true, Bool.not_eq_true', List.isEmpty_eq_false_iff,
          List.all_eq_true] at h
        obtain ⟨⟨hne, hchars⟩, hport⟩ := h
        cases after with
        | nil => exact ⟨_, none, by simp [portSuffix], .address hne hchars, by simp⟩
        | cons c after =>
          simp only [List.isEmpty_cons, Bool.false_eq_true, if_false, Option.all_some] at hport
          rw [isPort_iff] at hport
          split_ifs at hport with hcolon
          · obtain ⟨port, hafter⟩ := List.isPrefixOf_iff_prefix.1 hcolon
            rw [← hafter] at hport ⊢
            refine ⟨_, some port, ?_, .address hne hchars, ?_⟩
            · simp [portSuffix]
            · rintro p hp
              obtain rfl := Option.some.inj hp
              exact hport
          · exact absurd rfl hport.nonempty
    · cases hbreak : Text.breakOn [':'] authority with
      | none =>
        simp only [hbreak, Bool.and_eq_true, Bool.not_eq_true', List.isEmpty_eq_false_iff,
          List.all_eq_true] at h
        exact ⟨authority, none, by simp [portSuffix], .name h.1.1 h.1.2, by simp⟩
      | some parts =>
        obtain ⟨host, port⟩ := parts
        obtain ⟨rfl, -⟩ := Cuts.breakOn_eq_some_iff.1 hbreak
        simp only [hbreak, Bool.and_eq_true, Bool.not_eq_true', List.isEmpty_eq_false_iff,
          List.all_eq_true, Option.all_some] at h
        refine ⟨host, some port, rfl, .name h.1.1 h.1.2, ?_⟩
        rintro p hp
        obtain rfl := Option.some.inj hp
        exact isPort_iff.1 h.2
  · rintro ⟨host, port, rfl, hhost, hport⟩
    have hportOk : port.all isPort = true := by
      cases port with
      | none => rfl
      | some p => exact isPort_iff.2 (hport p rfl)
    cases hhost with
    | name hne hchars =>
      have hall : host.all isHostChar = true := List.all_eq_true.2 hchars
      have hcolon : ':' ∉ host := fun hmem => (isHostChar_ne (hchars _ hmem)).1 rfl
      have hbracket : ¬ ['['].isPrefixOf (host ++ portSuffix port) = true := by
        cases host with
        | nil => exact absurd rfl hne
        | cons c host =>
          have hc := (isHostChar_ne (hchars c List.mem_cons_self)).2.1
          simp [Ne.symm hc]
      rw [if_neg hbracket]
      cases port with
      | none =>
        rw [portSuffix, List.append_nil, Cuts.breakOn_eq_none_iff.2 hcolon]
        simp [hne, hall]
      | some p =>
        rw [portSuffix, Cuts.breakOn_eq_some_iff.2 ⟨rfl, hcolon⟩]
        simp only [hall, List.isEmpty_eq_false_iff.2 hne, Bool.not_false, Bool.and_self,
          Bool.true_and]
        exact hportOk
    | @address addr hne hchars =>
      have hall : addr.all isAddressChar = true := List.all_eq_true.2 hchars
      have hclose : ']' ∉ addr := fun hmem => (isAddressChar_ne (hchars _ hmem)).2 rfl
      have hdrop : ('[' :: (addr ++ [']']) ++ portSuffix port).drop 1 = addr ++ ']' :: portSuffix port := by
        simp
      rw [if_pos (by rfl), hdrop, Cuts.breakOn_eq_some_iff.2 ⟨rfl, hclose⟩]
      simp only [hall, List.isEmpty_eq_false_iff.2 hne, Bool.not_false, Bool.and_self, Bool.true_and]
      cases port with
      | none => rfl
      | some p =>
        have hcolon : [':'].isPrefixOf (portSuffix (some p)) = true := rfl
        rw [if_neg (by simp [portSuffix]), if_pos hcolon]
        exact hportOk

theorem isHost_toAsciiLowercase {host : Text} : IsHost (toAsciiLowercase host) ↔ IsHost host := by
  constructor
  · intro h
    generalize hlower : toAsciiLowercase host = lower at h
    cases h with
    | name hne hchars =>
      refine .name (fun h => hne (by rw [← hlower, h]; rfl)) ?_
      intro c hc
      rw [← isHostChar_toLower]
      exact hchars _ (hlower ▸ List.mem_map_of_mem hc)
    | @address addr hne hchars =>
      obtain ⟨c, rest, rfl, hc, hrest⟩ := List.map_eq_cons_iff.1 hlower
      obtain ⟨addr', close, rfl, haddr, hclose⟩ := List.map_eq_append_iff.1 hrest
      obtain ⟨d, rfl, hd⟩ := List.map_eq_singleton_iff.1 hclose
      obtain rfl := (Letters.toLower_eq_iff c '[' (by decide)).1 hc
      obtain rfl := (Letters.toLower_eq_iff d ']' (by decide)).1 hd
      refine .address (fun h => hne (by rw [← haddr, h]; rfl)) ?_
      intro c hc
      rw [← isAddressChar_toLower]
      exact hchars _ (haddr ▸ List.mem_map_of_mem hc)
  · intro h
    cases h with
    | name hne hchars =>
      refine .name (fun h => hne (List.map_eq_nil_iff.1 h)) ?_
      intro c hc
      obtain ⟨d, hd, rfl⟩ := List.mem_map.1 hc
      rw [isHostChar_toLower]
      exact hchars d hd
    | @address addr hne hchars =>
      have hlower : toAsciiLowercase ('[' :: (addr ++ [']'])) =
          '[' :: (toAsciiLowercase addr ++ [']']) := by
        rw [Letters.toAsciiLowercase_cons, Letters.toAsciiLowercase_append]
        rfl
      rw [hlower]
      refine .address (fun h => hne (List.map_eq_nil_iff.1 h)) ?_
      intro c hc
      obtain ⟨d, hd, rfl⟩ := List.mem_map.1 hc
      rw [isAddressChar_toLower]
      exact hchars d hd

/-- The check is made on the lower-case text; it says the same of the text itself. -/
theorem isHostAndPort_toAsciiLowercase {authority : Text} :
    isHostAndPort (toAsciiLowercase authority) = true ↔ isHostAndPort authority = true := by
  rw [isHostAndPort_iff, isHostAndPort_iff]
  constructor
  · rintro ⟨host, port, h, hhost, hport⟩
    obtain ⟨host', suffix, rfl, rfl, hsuffix⟩ := List.map_eq_append_iff.1 h
    refine ⟨host', port, ?_, isHost_toAsciiLowercase.1 hhost, hport⟩
    cases port with
    | none => rw [List.map_eq_nil_iff.1 hsuffix, portSuffix]
    | some p =>
      obtain ⟨c, p', rfl, hc, hp'⟩ := List.map_eq_cons_iff.1 hsuffix
      obtain rfl := (Letters.toLower_eq_iff c ':' (by decide)).1 hc
      have hsame : p' = p := by
        rw [← hp']
        symm
        have hdigit : ∀ d ∈ p', d.toLower = d := by
          intro d hd
          have hlower : d.toLower.isDigit = true := (hport p rfl).digits _ (hp' ▸ List.mem_map_of_mem hd)
          have hletter : d.toLower.isAlpha = false := by
            rw [isDigit_iff] at hlower
            rw [Bool.eq_false_iff, Ne, Letters.isAlpha_iff]
            omega
          exact ((Letters.toLower_eq_iff d _ hletter).1 rfl).symm
        rw [List.map_congr_left hdigit, List.map_id']
      rw [hsame, portSuffix]
  · rintro ⟨host, port, rfl, hhost, hport⟩
    refine ⟨toAsciiLowercase host, port, ?_, isHost_toAsciiLowercase.2 hhost, hport⟩
    rw [Letters.toAsciiLowercase_append]
    cases port with
    | none => rfl
    | some p =>
      rw [portSuffix, Letters.toAsciiLowercase_cons, toAsciiLowercase_of_isPort (hport p rfl)]
      rfl

/-! ## What is accepted -/

theorem IsHost.chars {host : Text} (h : IsHost host) : ∀ c ∈ host, isAuthorityChar c = true := by
  cases h with
  | name hne hchars => exact fun c hc => isAuthorityChar_of_host (hchars c hc)
  | address hne hchars =>
    intro c hc
    rcases List.mem_cons.1 hc with rfl | hc
    · decide
    · rcases List.mem_append.1 hc with hc | hc
      · exact isAuthorityChar_of_address (hchars c hc)
      · rw [List.mem_singleton.1 hc]
        decide

theorem IsHost.ne_nil {host : Text} (h : IsHost host) : host ≠ [] := by
  cases h with
  | name hne hchars => exact hne
  | address hne hchars => exact List.cons_ne_nil _ _

namespace Issuer

variable (i : Issuer)

def authority : Text := i.host ++ portSuffix i.port

theorem authority_chars : ∀ c ∈ i.authority, isAuthorityChar c = true := by
  intro c hc
  rcases List.mem_append.1 hc with hc | hc
  · exact i.isHost.chars c hc
  · cases hport : i.port with
    | none => simp [hport, portSuffix] at hc
    | some p =>
      rw [hport, portSuffix] at hc
      rcases List.mem_cons.1 hc with rfl | hc
      · decide
      · exact isAuthorityChar_of_digit ((i.isPort p hport).digits c hc)

theorem text_eq : i.text = i.scheme ++ (i.authority ++ i.tail) := by
  simp [text, authority]

theorem length_scheme : i.scheme.length = 8 := by
  rw [← Letters.length_toAsciiLowercase, i.isHttps]
  decide

/-- `https` in either case, the colon and the slashes. -/
theorem scheme_eq : ∃ name : Text, i.scheme = name ++ "://".toList ∧
    toAsciiLowercase name = "https".toList ∧ ∀ c ∈ name, c.isAlpha = true := by
  have hprefix : "https".toList ++ "://".toList <+: toAsciiLowercase i.scheme := by
    rw [i.isHttps]
    decide
  obtain ⟨name, rest, hscheme, hname, hletters⟩ :=
    UrlReader.eq_of_scheme_prefix (by decide) hprefix
  have hlength : name.length = 5 := by
    rw [← Letters.length_toAsciiLowercase, hname]
    decide
  have hrest : rest = [] := by
    have h := i.length_scheme
    rw [hscheme] at h
    simp only [List.length_append, List.length_cons, hlength] at h
    exact List.eq_nil_of_length_eq_zero (by omega)
  have hmarks : "://".toList = [':', '/', '/'] := by decide
  refine ⟨name, ?_, hname, hletters⟩
  rw [hscheme, hrest, hmarks]

/-- Nothing in an issuer is a wildcard, a backslash, a blank or a control. -/
theorem text_plain : ∀ c ∈ i.text,
    c ≠ '*' ∧ c ≠ '\\' ∧ isWhitespace c = false ∧ Text.isControl c = false := by
  intro c hc
  rw [i.text_eq] at hc
  rcases List.mem_append.1 hc with hc | hc
  · obtain ⟨name, hscheme, -, hname⟩ := i.scheme_eq
    rw [hscheme] at hc
    rcases List.mem_append.1 hc with hc | hc
    · have hletter : isAuthorityChar c = true := by
        simp only [isAuthorityChar, Char.isAlphanum, hname c hc, Bool.true_or]
      exact (isAuthorityChar_plain hletter).1
    · have hmarks : "://".toList = [':', '/', '/'] := by decide
      have hall : ∀ d ∈ [':', '/', '/'],
          d ≠ '*' ∧ d ≠ '\\' ∧ isWhitespace d = false ∧ Text.isControl d = false := by
        simp
        decide
      exact hall c (hmarks ▸ hc)
  · rcases List.mem_append.1 hc with hc | hc
    · exact (isAuthorityChar_plain (i.authority_chars c hc)).1
    · exact i.isTail.plain c hc

end Issuer

theorem endsAuthority_of_authorityChar (h : isAuthorityChar c = true) : endsAuthority c = false := by
  obtain ⟨-, hslash, hquery, hfragment, -⟩ := isAuthorityChar_plain h
  simp [endsAuthority, hslash, hquery, hfragment]

/-- The accepted texts are the issuers. -/
theorem accepted_iff {debug : Text → Text} {s : Text} :
    validateIssuer debug s = .ok () ↔ ∃ i : Issuer, i.text = s := by
  rw [validateIssuer_ok_iff, validateField_ok_iff]
  constructor
  · rintro ⟨⟨-, hlength, -, hstar, hcontrol⟩, hscheme, hslash, hblank, -, -, hhost⟩
    have htake : toAsciiLowercase (s.take 8) = "https://".toList := by
      rw [List.prefix_iff_eq_take] at hscheme
      rw [hscheme]
      exact List.map_take
    obtain ⟨tail, htail, hends⟩ := Cuts.eq_before_append endsAuthority (s.drop 8)
    rw [checkedAuthority, ← Letters.toAsciiLowercase_drop,
      Cuts.before_toAsciiLowercase endsAuthority_toLower, isHostAndPort_toAsciiLowercase,
      isHostAndPort_iff] at hhost
    obtain ⟨host, port, hauthority, hhost, hport⟩ := hhost
    rw [hauthority] at htail
    have hs : s.take 8 ++ host ++ portSuffix port ++ tail = s := by
      rw [List.append_assoc, List.append_assoc, ← List.append_assoc host, ← htail,
        List.take_append_drop]
    have hplain : ∀ c ∈ tail, c ≠ '*' ∧ c ≠ '\\' ∧ isWhitespace c = false ∧ Text.isControl c = false := by
      intro c hc
      have hin : c ∈ s := hs ▸ List.mem_append_right _ hc
      exact ⟨fun h => hstar (h ▸ hin), fun h => hslash (h ▸ hin), hblank c hin, hcontrol c hin⟩
    exact ⟨⟨s.take 8, host, port, tail, htake, hhost, hport, ⟨hends, hplain⟩, by rw [hs]; exact hlength⟩,
      hs⟩
  · rintro ⟨i, rfl⟩
    have hplain := i.text_plain
    have htrim : Text.trim i.text = i.text := Cuts.trimEnds_of_none (fun c hc => (hplain c hc).2.2.1)
    have hdrop : (toAsciiLowercase i.text).drop 8 = toAsciiLowercase (i.authority ++ i.tail) := by
      rw [← Letters.toAsciiLowercase_drop, i.text_eq, List.drop_left' i.length_scheme]
    have hchecked : checkedAuthority i.text = toAsciiLowercase i.authority := by
      rw [checkedAuthority, hdrop, Cuts.before_toAsciiLowercase endsAuthority_toLower,
        Cuts.before_append_of_head
          (fun c hc => endsAuthority_of_authorityChar (i.authority_chars c hc)) i.isTail.begins]
    have hhost : i.authority ≠ [] := by
      intro h
      exact i.isHost.ne_nil (List.append_eq_nil_iff.1 h).1
    have htext : i.text ≠ [] := by
      rw [i.text_eq]
      intro h
      exact hhost (List.append_eq_nil_iff.1 (List.append_eq_nil_iff.1 h).2).1
    refine ⟨⟨?_, i.short, htrim, fun h => (hplain _ h).1 rfl, fun c hc => (hplain c hc).2.2.2⟩, ?_,
      fun h => (hplain _ h).2.1 rfl, fun c hc => (hplain c hc).2.2.1, ?_, ?_, ?_⟩
    · rw [htrim]
      exact htext
    · rw [i.text_eq, Letters.toAsciiLowercase_append, i.isHttps]
      exact List.prefix_append _ _
    · rw [hchecked]
      exact fun h => hhost (List.map_eq_nil_iff.1 h)
    · rw [hchecked, Letters.mem_toAsciiLowercase (by decide)]
      intro h
      exact (isAuthorityChar_plain (i.authority_chars _ h)).2.2.2.2 rfl
    · rw [hchecked, isHostAndPort_toAsciiLowercase, isHostAndPort_iff]
      exact ⟨i.host, i.port, rfl, i.isHost, i.isPort⟩

/-! ## What is read -/

theorem isSlash_of_authorityChar (r : UrlReader) (h : isAuthorityChar c = true) : r.isSlash c = false := by
  obtain ⟨⟨-, hback, -⟩, hslash, -⟩ := isAuthorityChar_plain h
  simp [UrlReader.isSlash, hback, hslash]

theorem ends_of_authorityChar (r : UrlReader) (h : isAuthorityChar c = true) : r.ends c = false := by
  obtain ⟨-, -, hquery, hfragment, -⟩ := isAuthorityChar_plain h
  simp [UrlReader.ends, isSlash_of_authorityChar r h, hquery, hfragment]

theorem ends_of_endsAuthority (r : UrlReader) (h : endsAuthority c = true) : r.ends c = true := by
  simp only [endsAuthority, Bool.or_eq_true] at h
  simp only [UrlReader.ends, UrlReader.isSlash, Bool.or_eq_true]
  rcases h with (h | h) | h
  · exact .inl (.inl (.inl h))
  · exact .inl (.inr h)
  · exact .inr h

namespace Issuer

variable (i : Issuer)

theorem hostAndPort (r : UrlReader) : r.hostAndPort i.authority = (i.host, i.port) := by
  have hdigits : ∀ p ∈ i.port, ∀ c ∈ p, c ≠ ':' :=
    fun p hp c hc => isDigit_ne_colon ((i.isPort p hp).digits c hc)
  have hsplit : ∀ p : Text, (∀ c ∈ p, c ≠ ':') →
      r.hostAndPort i.host = (i.host, none) ∧ r.hostAndPort (i.host ++ ':' :: p) = (i.host, some p) := by
    intro p hp
    have hhost := i.isHost
    generalize i.host = host at hhost ⊢
    cases hhost with
    | name hne hchars => exact UrlReader.hostAndPort_plain r (fun c hc => isHostChar_ne (hchars c hc)) hp
    | address hne hchars =>
      exact UrlReader.hostAndPort_bracketed r (fun c hc => isAddressChar_ne (hchars c hc)) hp
  unfold authority
  cases hport : i.port with
  | none =>
    rw [portSuffix, List.append_nil]
    exact (hsplit [] (fun c hc => absurd hc List.not_mem_nil)).1
  | some p => exact (hsplit p (hdigits p hport)).2

/-- Every reader finds the host behind the slashes. -/
theorem read_text (r : UrlReader) : r.read i.text = some ⟨"https".toList, i.host, i.port⟩ := by
  have hclean : r.cleaned i.text = i.text := by
    apply UrlReader.cleaned_of_none
    intro c hc
    obtain ⟨-, -, hblank, hcontrol⟩ := i.text_plain c hc
    simp only [isWhitespace, Text.isControl, Bool.or_eq_false_iff, Bool.and_eq_false_iff,
      decide_eq_false_iff_not, beq_eq_false_iff_ne] at hblank hcontrol
    unfold UrlReader.isC0OrSpace
    rw [decide_eq_false_iff_not]
    omega
  obtain ⟨name, hscheme, hname, hletters⟩ := i.scheme_eq
  have htext : i.text = name ++ ':' :: ('/' :: '/' :: (i.authority ++ i.tail)) := by
    rw [i.text_eq, hscheme, List.append_assoc]
    rfl
  have hsplit : r.splitScheme i.text = some ("https".toList, '/' :: '/' :: (i.authority ++ i.tail)) := by
    rw [← hname]
    exact UrlReader.splitScheme_of_cleaned r (hclean.trans htext) hletters
  have hhead : ∀ c ∈ (i.authority ++ i.tail).head?, r.isSlash c = false := by
    intro c hc
    have hmem : c ∈ i.authority := by
      cases hauthority : i.authority with
      | nil => exact absurd (List.append_eq_nil_iff.1 hauthority).1 i.isHost.ne_nil
      | cons d authority =>
        rw [hauthority] at hc
        obtain rfl := Option.some.inj hc
        exact List.mem_cons_self
    exact isSlash_of_authorityChar r (i.authority_chars c hmem)
  have hbefore : Cuts.before r.ends (i.authority ++ i.tail) = i.authority :=
    Cuts.before_append_of_head (fun c hc => ends_of_authorityChar r (i.authority_chars c hc))
      (fun c hc => ends_of_endsAuthority r (i.isTail.begins c hc))
  have hat : '@' ∉ i.authority :=
    fun h => (isAuthorityChar_plain (i.authority_chars _ h)).2.2.2.2 rfl
  rw [UrlReader.read_eq_some_iff]
  refine ⟨_, _, hsplit, UrlReader.afterSlashes_two r hhead, ?_⟩
  rw [hbefore, UrlReader.withoutUserinfo_of_none r hat, i.hostAndPort r]

end Issuer

/-- The accepted texts are the issuers, and every reader reads each of them alike. -/
theorem issuer_names_one_host (debug : Text → Text) (s : Text) :
    (validateIssuer debug s = .ok () ↔ ∃ i : Issuer, i.text = s) ∧
      ∀ i : Issuer, i.text = s → ∀ r : UrlReader, r.read s = some ⟨"https".toList, i.host, i.port⟩ := by
  refine ⟨accepted_iff, ?_⟩
  rintro i rfl r
  exact i.read_text r

/-- A loopback address with a port and a path. -/
def localIssuer : Issuer where
  scheme := "HTTPS://".toList
  host := '[' :: ([':', ':', '1'] ++ [']'])
  port := some ['8', '4', '4', '3']
  tail := ['/', 'x']
  isHttps := by decide
  isHost := .address (by decide) (by simp; decide)
  isPort := by
    rintro p ⟨⟩
    exact ⟨by decide, by decide, by simp, by decide⟩
  isTail := ⟨by rintro c ⟨⟩; rfl, by simp; decide⟩
  short := by decide

theorem issuer_names_one_host_local :
    validateIssuer id "HTTPS://[::1]:8443/x".toList = .ok () ∧
      (UrlReader.mk true true true true true true).read "HTTPS://[::1]:8443/x".toList =
        some ⟨"https".toList, "[::1]".toList, some "8443".toList⟩ :=
  ⟨(issuer_names_one_host id _).1.2 ⟨localIssuer, by decide⟩,
    (issuer_names_one_host id _).2 localIssuer (by decide) _⟩

/-- The scheme may be in upper case, and six digits are no port. -/
theorem issuer_form_is_looser :
    ¬ ∀ s : Text, validateIssuer id s = .ok () ↔
      s.length ≤ maxFieldLen ∧ ∃ host port tail, s = "https://".toList ++ host ++ portSuffix port ++ tail ∧
        IsHost host ∧ (∀ p ∈ port, p ≠ [] ∧ (∀ c ∈ p, c.isDigit = true) ∧ Nat.ofDigitChars 10 p 0 < 65536) ∧
        IsTail tail := by
  intro hclaim
  obtain ⟨-, host, port, tail, h, -⟩ := (hclaim "HTTPS://a".toList).1 (by decide)
  have hhead := congrArg List.head? h
  simp at hhead

end Federation
