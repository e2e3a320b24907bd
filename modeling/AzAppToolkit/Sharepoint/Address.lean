import AzAppToolkit.Graph.Errors
import AzAppToolkit.Lib.Cuts
import AzAppToolkit.Lib.Substring

set_option autoImplicit false

/-! # SharePoint addresses

The readers of a pasted URL in `client/sharepoint.rs`: the path a site is looked up by, the host and the
segments an item is matched by, the site collection a resolution starts at, and what is left of a target
below an address.

`url::Url::parse` belongs to the `url` crate; `parse` is what it reads of a text. -/

namespace Resolver

open Graph (GraphError)

/-- What is read of a URL. -/
structure Url where
  scheme : Text
  username : Text
  password : Option Text
  hostStr : Option Text
  port : Option Nat
  path : Text

abbrev Parser := Text → Option Url

/-! ## Refusals -/

def siteUrlNotAUrl : Text := "it is not a URL".toList

def siteUrlNotWeb : Text := "it is not an https:// or http:// address".toList

def siteUrlCredentials : Text := "it embeds a user name or password".toList

def siteUrlPort : Text := "it has a port".toList

def siteUrlBadHost : Text := "its host is not a host name".toList

def siteUrlBadSegment : Text := "a path segment contains ':' or an encoded '/', '\\', ':' or '.'".toList

def siteUrlRefusal (reason : Text) : GraphError :=
  .protocol ("refusing the site URL: ".toList ++ reason ++
    (". Paste a plain SharePoint site address, e.g. " ++
      "https://contoso.sharepoint.com/sites/Finance").toList)

/-! ## Checks -/

/-- Non-empty labels of letters, digits and hyphens. -/
def isHostname (host : Text) : Bool :=
  !host.isEmpty && (Text.splitOn (· == '.') host).all (fun label =>
    !label.isEmpty && label.all (fun c => c.isAlphanum || c == '-'))

/-- The octets that may not be encoded: `/`, `\`, `:` and `.`. -/
def encodedMarks : List Text := ["%2f", "%5c", "%3a", "%2e"].map String.toList

def isSitePathSegment (seg : Text) : Bool :=
  let lower := toAsciiLowercase seg
  seg != ['.'] && seg != ['.', '.'] && !(seg.any (fun c => c == ':' || c == '\\')) &&
    !(encodedMarks.any (fun enc => Text.contains enc lower))

def segsOf (rest : Text) : List Text := (Text.splitOn (· == '/') rest).filter (fun s => !s.isEmpty)

/-- An app token, `:x:`. -/
def isAppToken (s : Text) : Bool := decide (2 ≤ s.length) && s.head? == some ':' && s.getLast? == some ':'

/-- Without the `/:x:/r/` of a "Copy link" URL. -/
def undecoratedSegments : List Text → List Text
  | [] => []
  | first :: rest =>
    if isAppToken first then
      match rest with
      | [] => []
      | marker :: rest' => if marker == ['r'] || marker == ['s'] then rest' else rest
    else first :: rest

def isManagedPath (s : Text) : Bool := s == "sites".toList || s == "teams".toList || s == "personal".toList

/-! ## Readers -/

/-- A missing scheme is `https`. -/
def absoluteOf (trimmed : Text) : Text :=
  if Text.contains "://".toList trimmed then trimmed else "https://".toList ++ trimmed

/-- The segments a site is looked up by: of a share link, which runs past the site collection, those up
    to its name. -/
def lookupSegments (path : Text) : List Text :=
  let decorated := segsOf path
  let undecorated := undecoratedSegments decorated
  let wasDecorated := decide (decorated.length ≠ undecorated.length) || decorated.head?.any isAppToken
  if wasDecorated then
    match undecorated.findIdx? isManagedPath with
    | some i => undecorated.take (i + 2)
    | none => undecorated
  else undecorated

def siteLookupPath (parse : Parser) (siteUrl : Text) : Except GraphError Text :=
  match parse (absoluteOf (Text.trim siteUrl)) with
  | none => .error (siteUrlRefusal siteUrlNotAUrl)
  | some parsed =>
    if !(parsed.scheme == "https".toList || parsed.scheme == "http".toList) then
      .error (siteUrlRefusal siteUrlNotWeb)
    else if !parsed.username.isEmpty || parsed.password.isSome then
      .error (siteUrlRefusal siteUrlCredentials)
    else if parsed.port.isSome then .error (siteUrlRefusal siteUrlPort)
    else
      match parsed.hostStr.map toAsciiLowercase with
      | none => .error (siteUrlRefusal siteUrlBadHost)
      | some host =>
        if !isHostname host then .error (siteUrlRefusal siteUrlBadHost)
        else
          let segs := lookupSegments parsed.path
          if segs.any (fun s => !isSitePathSegment s) then .error (siteUrlRefusal siteUrlBadSegment)
          else
            let rel := Text.join ['/'] segs
            .ok (if rel.isEmpty then "/sites/".toList ++ host
              else "/sites/".toList ++ host ++ ":/".toList ++ rel)

/-- The lower-case host and the undecorated segments, where all may stand in a Graph path. -/
def urlHostAndSegments (parse : Parser) (raw : Text) : Option (Text × List Text) :=
  (parse (absoluteOf (Text.trim raw))).bind fun parsed =>
    (parsed.hostStr.map toAsciiLowercase).bind fun host =>
      if !isHostname host then none
      else
        let segs := undecoratedSegments (segsOf parsed.path)
        if segs.any (fun s => !isSitePathSegment s) then none else some (host, segs)

def siteCollectionUrl (parse : Parser) (targetUrl : Text) : Text :=
  match urlHostAndSegments parse targetUrl with
  | none => Text.trim targetUrl
  | some (host, segs) =>
    let root := match segs.findIdx? isManagedPath with
      | some i => if i + 1 < segs.length then segs.take (i + 2) else []
      | none => []
    if root.isEmpty then "https://".toList ++ host
    else "https://".toList ++ host ++ ['/'] ++ Text.join ['/'] root

/-- What is left of the target below the address, if it is below it. -/
def siteRelativePath (parse : Parser) (siteUrl targetUrl : Text) : Option Text :=
  (urlHostAndSegments parse siteUrl).bind fun (siteHost, siteSegs) =>
    (urlHostAndSegments parse targetUrl).bind fun (targetHost, targetSegs) =>
      if siteHost != targetHost || decide (targetSegs.length < siteSegs.length) then none
      else if (siteSegs.zip targetSegs).all (fun p => Text.eqIgnoreAsciiCase p.1 p.2) then
        some (Text.join ['/'] (targetSegs.drop siteSegs.length))
      else none

/-! ## Percent-encoded octets -/

def hexDigit (c : Char) : Option Nat := "0123456789abcdef".toList.idxOf? c.toLower

/-- The octets a text encodes, as a percent-decoder takes them. -/
def encodedOctets : Text → List Nat
  | '%' :: a :: b :: rest =>
    match hexDigit a, hexDigit b with
    | some x, some y => (16 * x + y) :: encodedOctets rest
    | _, _ => encodedOctets (a :: b :: rest)
  | _ :: rest => encodedOctets rest
  | [] => []

theorem mem_encodedOctets {s : Text} {o : Nat} (h : o ∈ encodedOctets s) :
    ∃ a b x y, ['%', a, b] <:+: s ∧ hexDigit a = some x ∧ hexDigit b = some y ∧ o = 16 * x + y := by
  fun_induction encodedOctets s with
  | case1 a b rest x y hy hx ih =>
    rcases List.mem_cons.1 h with rfl | h
    · exact ⟨a, b, x, y, ⟨[], rest, rfl⟩, hx, hy, rfl⟩
    · obtain ⟨a', b', x', y', hin, hrest⟩ := ih h
      exact ⟨a', b', x', y', hin.trans (List.IsSuffix.isInfix ⟨['%', a, b], rfl⟩), hrest⟩
  | case2 a b rest _ ih =>
    obtain ⟨a', b', x', y', hin, hrest⟩ := ih h
    exact ⟨a', b', x', y', hin.trans (List.IsSuffix.isInfix ⟨['%'], rfl⟩), hrest⟩
  | case3 c rest _ ih =>
    obtain ⟨a', b', x', y', hin, hrest⟩ := ih h
    exact ⟨a', b', x', y', hin.trans (List.IsSuffix.isInfix ⟨[c], rfl⟩), hrest⟩
  | case4 => exact absurd h List.not_mem_nil

theorem hexDigit_eq_some {c : Char} {n : Nat} (h : hexDigit c = some n) :
    "0123456789abcdef".toList[n]? = some c.toLower := by
  obtain ⟨hlt, heq, -⟩ := List.idxOf?_eq_some_iff.1 h
  rw [List.getElem?_eq_getElem hlt, heq]

/-- The marks that may not be encoded, as octets. -/
def markOctets : List Nat := [0x2f, 0x5c, 0x3a, 0x2e]

/-- The digits of a mark, in lower case. -/
theorem mark_digits {a b : Char} {x y : Nat} (hx : hexDigit a = some x) (hy : hexDigit b = some y)
    (ho : 16 * x + y ∈ markOctets) : ['%', a.toLower, b.toLower] ∈ encodedMarks := by
  have ha := hexDigit_eq_some hx
  have hb := hexDigit_eq_some hy
  have hx16 : x < 16 := (List.getElem?_eq_some_iff.1 ha).1
  have hy16 : y < 16 := (List.getElem?_eq_some_iff.1 hb).1
  unfold markOctets at ho
  simp only [List.mem_cons, List.not_mem_nil, or_false] at ho
  have hcases : (x = 2 ∧ y = 15) ∨ (x = 5 ∧ y = 12) ∨ (x = 3 ∧ y = 10) ∨ (x = 2 ∧ y = 14) := by omega
  rcases hcases with ⟨rfl, rfl⟩ | ⟨rfl, rfl⟩ | ⟨rfl, rfl⟩ | ⟨rfl, rfl⟩
  all_goals
    rw [← Option.some.inj ha, ← Option.some.inj hb]
    decide

/-- A segment that may stand in a site address decodes to none of the marks. -/
theorem octet_not_mark {seg : Text} (h : isSitePathSegment seg = true) {o : Nat} (ho : o ∈ encodedOctets seg) :
    o ∉ markOctets := by
  intro hmark
  obtain ⟨a, b, x, y, hin, hx, hy, rfl⟩ := mem_encodedOctets ho
  have hlower : Text.contains ['%', a.toLower, b.toLower] (toAsciiLowercase seg) = true :=
    Text.contains_iff.2 (hin.map Char.toLower)
  have hany : encodedMarks.any (fun enc => Text.contains enc (toAsciiLowercase seg)) = true :=
    List.any_eq_true.2 ⟨_, mark_digits hx hy hmark, hlower⟩
  unfold isSitePathSegment at h
  simp only [hany, Bool.not_true, Bool.and_false] at h
  cases h

/-! ## The lookup path -/

/-- A segment of a site address. -/
structure PlainSegment (seg : Text) : Prop where
  nonempty : seg ≠ []
  whole : '/' ∉ seg
  not_dots : seg ≠ ['.'] ∧ seg ≠ ['.', '.']
  no_pivot : ':' ∉ seg ∧ '\\' ∉ seg
  decoded : ∀ o ∈ encodedOctets seg, o ∉ markOctets

/-- Labels of letters, digits and hyphens, with dots between. -/
def PlainHost (host : Text) : Prop :=
  ∀ label ∈ Text.splitOn (· == '.') host, label ≠ [] ∧ ∀ c ∈ label, c.isAlphanum = true ∨ c = '-'

/-- `/sites/{host}`, or `/sites/{host}:/{path}`. -/
def SiteLookup (path : Text) : Prop :=
  ∃ host segs, PlainHost host ∧ (∀ seg ∈ segs, PlainSegment seg) ∧
    path = if segs = [] then "/sites/".toList ++ host
      else "/sites/".toList ++ host ++ ":/".toList ++ Text.join ['/'] segs

theorem plainHost_of_isHostname {host : Text} (h : isHostname host = true) : PlainHost host := by
  intro label hlabel
  have hall := List.all_eq_true.1 ((Bool.and_eq_true _ _).mp h).2 label hlabel
  obtain ⟨hne, hchars⟩ := (Bool.and_eq_true _ _).mp hall
  refine ⟨by simpa using hne, fun c hc => ?_⟩
  simpa using List.all_eq_true.1 hchars c hc

theorem plainSegment_of_isSitePathSegment {rest seg : Text} (hin : seg ∈ segsOf rest)
    (h : isSitePathSegment seg = true) : PlainSegment seg := by
  obtain ⟨hpart, hne⟩ := List.mem_filter.1 hin
  have hslash : '/' ∉ seg := fun hc => absurd (Cuts.not_sep_of_mem_splitOn hpart '/' hc) (by decide)
  have hdecoded : ∀ o ∈ encodedOctets seg, o ∉ markOctets := fun o ho => octet_not_mark h ho
  unfold isSitePathSegment at h
  simp only [Bool.and_eq_true, bne_iff_ne, ne_eq, Bool.not_eq_true', List.any_eq_false] at h
  obtain ⟨⟨⟨hdot, hdots⟩, hpivot⟩, -⟩ := h
  refine ⟨by simpa using hne, hslash, ⟨hdot, hdots⟩, ⟨fun hc => ?_, fun hc => ?_⟩, hdecoded⟩
  · exact hpivot ':' hc (by decide)
  · exact hpivot '\\' hc (by decide)

theorem undecorated_sublist (segs : List Text) : (undecoratedSegments segs).Sublist segs := by
  unfold undecoratedSegments
  split
  · exact .refl _
  · next first rest =>
    split
    · split
      · exact List.nil_sublist _
      · next marker rest' =>
        split
        · exact (List.sublist_cons_self _ _).trans (List.sublist_cons_self _ _)
        · exact List.sublist_cons_self _ _
    · exact .refl _

theorem join_eq_nil {segs : List Text} (hne : ∀ seg ∈ segs, seg ≠ []) : Text.join ['/'] segs = [] ↔ segs = [] := by
  constructor
  · intro h
    cases segs with
    | nil => rfl
    | cons seg rest =>
      exfalso
      refine hne seg List.mem_cons_self ?_
      cases rest with
      | nil => simpa [Text.join] using h
      | cons next rest =>
        have hcons : Text.join ['/'] (seg :: next :: rest) = seg ++ (['/'] ++ Text.join ['/'] (next :: rest)) := by
          simp [Text.join, List.intercalate_cons_cons]
        rw [hcons] at h
        exact (List.append_eq_nil_iff.1 h).1
  · rintro rfl
    rfl

theorem lookupSegments_sublist (path : Text) : (lookupSegments path).Sublist (segsOf path) := by
  have hundecorated := undecorated_sublist (segsOf path)
  unfold lookupSegments
  extract_lets decorated undecorated wasDecorated
  split
  · split
    · exact (List.take_sublist _ _).trans hundecorated
    · exact hundecorated
  · exact hundecorated

variable {parse : Parser}

/-- What is looked up is a host's site tree, and a path that stays in it. -/
theorem siteLookupPath_plain {siteUrl path : Text} (h : siteLookupPath parse siteUrl = .ok path) :
    SiteLookup path := by
  unfold siteLookupPath at h
  split at h
  · cases h
  · next parsed hparsed =>
    split at h
    · cases h
    split at h
    · cases h
    split at h
    · cases h
    split at h
    · cases h
    · next host hhost =>
      split at h
      · cases h
      · next hname =>
        extract_lets segs rel at h
        split at h
        · cases h
        · next hplain =>
          have hsegs : ∀ seg ∈ segs, PlainSegment seg := by
            intro seg hseg
            refine plainSegment_of_isSitePathSegment
              ((lookupSegments_sublist parsed.path).subset hseg) ?_
            by_contra hbad
            exact hplain (List.any_eq_true.2 ⟨seg, hseg, by simpa using hbad⟩)
          refine ⟨host, segs, plainHost_of_isHostname (by simpa using hname), hsegs, ?_⟩
          obtain rfl := Except.ok.inj h
          have hempty : rel.isEmpty = true ↔ segs = [] := by
            rw [List.isEmpty_iff]
            exact join_eq_nil fun seg hseg => (hsegs seg hseg).nonempty
          by_cases hnil : segs = []
          · rw [if_pos (hempty.2 hnil), if_pos hnil]
          · rw [if_neg (mt hempty.1 hnil), if_neg hnil]

/-! ## Addresses below an address -/

theorem urlHostAndSegments_plain {raw host : Text} {segs : List Text}
    (h : urlHostAndSegments parse raw = some (host, segs)) : ∀ seg ∈ segs, PlainSegment seg := by
  unfold urlHostAndSegments at h
  obtain ⟨parsed, -, h⟩ := Option.bind_eq_some_iff.1 h
  obtain ⟨host', -, h⟩ := Option.bind_eq_some_iff.1 h
  split at h
  · cases h
  · dsimp only at h
    split at h
    · cases h
    · next hplain =>
      obtain ⟨rfl, rfl⟩ := Prod.mk.inj (Option.some.inj h)
      intro seg hseg
      refine plainSegment_of_isSitePathSegment ((undecorated_sublist _).subset hseg) ?_
      by_contra hbad
      exact hplain (List.any_eq_true.2 ⟨seg, hseg, by simpa using hbad⟩)

/-- The address is on the host of the target, and its segments begin the target's, in either case. -/
def Inside (parse : Parser) (address target : Text) : Prop :=
  ∃ host segs targetSegs, urlHostAndSegments parse address = some (host, segs) ∧
    urlHostAndSegments parse target = some (host, targetSegs) ∧
    segs.map toAsciiLowercase <+: targetSegs.map toAsciiLowercase

/-- The same, and there are no further segments. -/
def SameAddress (parse : Parser) (address target : Text) : Prop :=
  ∃ host segs targetSegs, urlHostAndSegments parse address = some (host, segs) ∧
    urlHostAndSegments parse target = some (host, targetSegs) ∧
    segs.map toAsciiLowercase = targetSegs.map toAsciiLowercase

def segmentsOf (parse : Parser) (raw : Text) : List Text :=
  ((urlHostAndSegments parse raw).map Prod.snd).getD []

theorem zip_all_iff {a b : List Text} (hlen : a.length ≤ b.length) :
    (a.zip b).all (fun p => Text.eqIgnoreAsciiCase p.1 p.2) = true ↔
      a.map toAsciiLowercase <+: b.map toAsciiLowercase := by
  induction a generalizing b with
  | nil => simp
  | cons x a ih =>
    cases b with
    | nil => exact absurd hlen (by simp)
    | cons y b =>
      rw [List.zip_cons_cons, List.all_cons, Bool.and_eq_true, Text.eqIgnoreAsciiCase_iff,
        ih (Nat.le_of_succ_le_succ hlen), List.map_cons, List.map_cons, List.cons_prefix_cons]

/-- What is left of a target is what follows an address it is inside of. -/
theorem siteRelativePath_eq_some {address target inner : Text} :
    siteRelativePath parse address target = some inner ↔ Inside parse address target ∧
      inner = Text.join ['/'] ((segmentsOf parse target).drop (segmentsOf parse address).length) := by
  unfold siteRelativePath Inside segmentsOf
  cases haddress : urlHostAndSegments parse address with
  | none => simp
  | some found =>
    obtain ⟨host, segs⟩ := found
    cases htarget : urlHostAndSegments parse target with
    | none => simp
    | some found' =>
      obtain ⟨targetHost, targetSegs⟩ := found'
      simp only [Option.bind_some, Option.map_some, Option.getD_some, Option.some.injEq, Prod.mk.injEq]
      constructor
      · intro h
        split at h
        · cases h
        · next hguard =>
          simp only [Bool.or_eq_true, bne_iff_ne, ne_eq, decide_eq_true_eq, not_or, not_not,
            Nat.not_lt] at hguard
          obtain ⟨rfl, hlen⟩ := hguard
          split at h
          · next hall =>
            exact ⟨⟨_, _, _, ⟨rfl, rfl⟩, ⟨rfl, rfl⟩, (zip_all_iff hlen).1 hall⟩, (Option.some.inj h).symm⟩
          · cases h
      · rintro ⟨⟨_, _, _, ⟨rfl, rfl⟩, ⟨rfl, rfl⟩, hpre⟩, rfl⟩
        have hlen : segs.length ≤ targetSegs.length := by simpa using hpre.length_le
        rw [if_neg (by simp [hlen]), if_pos ((zip_all_iff hlen).2 hpre)]

theorem mem_segmentsOf {raw seg : Text} (h : seg ∈ segmentsOf parse raw) : PlainSegment seg := by
  unfold segmentsOf at h
  cases hread : urlHostAndSegments parse raw with
  | none => rw [hread] at h; cases h
  | some found => rw [hread] at h; exact urlHostAndSegments_plain hread seg h

/-- Segments are read back from the path they are joined to. -/
theorem join_inj {a b : List Text} (ha : ∀ seg ∈ a, PlainSegment seg) (hb : ∀ seg ∈ b, PlainSegment seg)
    (h : Text.join ['/'] a = Text.join ['/'] b) : a = b := by
  by_cases hnil : a = []
  · rw [hnil] at h ⊢
    exact ((join_eq_nil fun seg hseg => (hb seg hseg).nonempty).1 h.symm).symm
  · have hnil' : b ≠ [] := by
      rintro rfl
      exact hnil ((join_eq_nil fun seg hseg => (ha seg hseg).nonempty).1 h)
    rw [← Cuts.splitOn_join (fun seg hseg => (ha seg hseg).whole) hnil, h,
      Cuts.splitOn_join (fun seg hseg => (hb seg hseg).whole) hnil']

theorem Inside.length_le {address target : Text} (h : Inside parse address target) :
    (segmentsOf parse address).length ≤ (segmentsOf parse target).length := by
  obtain ⟨host, segs, targetSegs, haddress, htarget, hpre⟩ := h
  unfold segmentsOf
  rw [haddress, htarget]
  simpa using hpre.length_le

/-- Two addresses of a target that leave the same of it are as long. -/
theorem length_eq_of_rest_eq {a b target : Text} (ha : Inside parse a target) (hb : Inside parse b target)
    (h : Text.join ['/'] ((segmentsOf parse target).drop (segmentsOf parse a).length) =
      Text.join ['/'] ((segmentsOf parse target).drop (segmentsOf parse b).length)) :
    (segmentsOf parse a).length = (segmentsOf parse b).length := by
  have hplain : ∀ n, ∀ seg ∈ (segmentsOf parse target).drop n, PlainSegment seg :=
    fun n seg hseg => mem_segmentsOf (List.mem_of_mem_drop hseg)
  have hlen := congrArg List.length (join_inj (hplain _) (hplain _) h)
  rw [List.length_drop, List.length_drop] at hlen
  have hla := ha.length_le
  have hlb := hb.length_le
  omega

theorem sameAddress_iff {address target : Text} :
    SameAddress parse address target ↔ siteRelativePath parse address target = some [] := by
  rw [siteRelativePath_eq_some]
  constructor
  · rintro ⟨host, segs, targetSegs, haddress, htarget, heq⟩
    refine ⟨⟨host, segs, targetSegs, haddress, htarget, heq ▸ List.prefix_refl _⟩, ?_⟩
    have hlen : segs.length = targetSegs.length := by simpa using congrArg List.length heq
    unfold segmentsOf
    rw [haddress, htarget]
    simp [hlen, Text.join]
  · rintro ⟨hinside, hrest⟩
    have hnil := (join_eq_nil (fun seg hseg => (mem_segmentsOf (List.mem_of_mem_drop hseg)).nonempty)).1 hrest.symm
    obtain ⟨host, segs, targetSegs, haddress, htarget, hpre⟩ := hinside
    refine ⟨host, segs, targetSegs, haddress, htarget, hpre.eq_of_length_le ?_⟩
    unfold segmentsOf at hnil
    rw [haddress, htarget] at hnil
    simpa using List.drop_eq_nil_iff.1 hnil

end Resolver
