import AzAppToolkit.Lib.Cuts

set_option autoImplicit false

/-! # How parsers take a URL apart

A URL of a scheme with an authority (`http`, `https`), and the points at which the parsers in use
differ: which characters are skipped, what counts as a slash, how many slashes may stand before the
authority, and at which `@` and which colon the authority is cut. -/

/-- One way to read a URL. -/
structure UrlReader where
  /-- Controls and blanks at the ends are dropped. -/
  trims : Bool
  /-- Tabs and line ends are dropped wherever they stand. -/
  strips : Bool
  /-- A backslash is a slash. -/
  backslash : Bool
  /-- Any number of slashes may stand before the authority. -/
  anySlashes : Bool
  /-- The userinfo ends at the last `@`, not at the first. -/
  lastAt : Bool
  /-- The port begins at the last colon outside brackets, not at the first. -/
  lastColon : Bool

namespace UrlReader

/-- What is read of a URL. -/
structure Parts where
  scheme : Text
  host : Text
  port : Option Text
deriving DecidableEq

def isTabOrNewline (c : Char) : Bool := c == '\t' || c == '\n' || c == '\r'

def isC0OrSpace (c : Char) : Bool := c.toNat ≤ 32

def isAt (c : Char) : Bool := c == '@'

def stripped (s : Text) : Text := s.filter (fun c => !isTabOrNewline c)

/-- Each character, and whether it is a colon outside brackets. -/
def colons : Bool → Text → List (Char × Bool)
  | _, [] => []
  | inside, c :: s =>
    (c, c == ':' && !inside) ::
      colons (if c = '[' then true else if c = ']' then false else inside) s

section Reading

variable (r : UrlReader)

def isSlash (c : Char) : Bool := c == '/' || (r.backslash && c == '\\')

/-- The characters that end the authority. -/
def ends (c : Char) : Bool := r.isSlash c || c == '?' || c == '#'

/-- What the reader sees of a text. -/
def cleaned (s : Text) : Text :=
  let s := if r.trims then Cuts.trimEnds isC0OrSpace s else s
  if r.strips then stripped s else s

def afterSlashes (rest : Text) : Option Text :=
  if r.anySlashes then some (rest.dropWhile r.isSlash)
  else match rest with
    | a :: b :: tail => if r.isSlash a && r.isSlash b then some tail else none
    | _ => none

def withoutUserinfo (authority : Text) : Text :=
  if r.lastAt then Cuts.afterLast isAt authority else Cuts.afterFirst isAt authority

def hostAndPort (authority : Text) : Text × Option Text :=
  let marked := colons false authority
  if marked.any Prod.snd then
    if r.lastColon then
      ((Cuts.beforeLast Prod.snd marked).map Prod.fst,
        some ((Cuts.afterLast Prod.snd marked).map Prod.fst))
    else
      ((Cuts.before Prod.snd marked).map Prod.fst,
        some ((Cuts.afterFirst Prod.snd marked).map Prod.fst))
  else (authority, none)

/-- The scheme, in lower case, and what follows its colon. -/
def splitScheme (s : Text) : Option (Text × Text) :=
  (Text.breakOn [':'] (r.cleaned s)).map (fun parts => (toAsciiLowercase parts.1, parts.2))

def read (s : Text) : Option Parts :=
  (r.splitScheme s).bind fun (scheme, rest) =>
    (r.afterSlashes rest).map fun rest =>
      let (host, port) := r.hostAndPort (r.withoutUserinfo (Cuts.before r.ends rest))
      ⟨scheme, host, port⟩

end Reading

/-! ## The scheme -/

/-- A text that begins with a scheme, in either case. -/
theorem eq_of_colon_prefix {name s : Text} (hname : name.all Char.isAlpha = true)
    (h : name ++ [':'] <+: toAsciiLowercase s) :
    ∃ n rest, s = n ++ ':' :: rest ∧ toAsciiLowercase n = name ∧ ∀ c ∈ n, c.isAlpha = true := by
  obtain ⟨tail, htail⟩ := h
  rw [List.append_assoc] at htail
  obtain ⟨n, r, rfl, rfl, hr⟩ := List.map_eq_append_iff.1 htail.symm
  obtain ⟨a, rest, rfl, ha, -⟩ := List.map_eq_cons_iff.1 hr
  obtain rfl := (Letters.toLower_eq_iff a ':' (by decide)).1 ha
  refine ⟨n, rest, rfl, rfl, ?_⟩
  intro d hd
  exact Cuts.isAlpha_of_toLower (List.all_eq_true.1 hname _ (List.mem_map_of_mem hd))

/-- And with two slashes behind the colon. -/
theorem eq_of_scheme_prefix {name s : Text} (hname : name.all Char.isAlpha = true)
    (h : name ++ "://".toList <+: toAsciiLowercase s) :
    ∃ n rest, s = n ++ ':' :: '/' :: '/' :: rest ∧ toAsciiLowercase n = name ∧
      ∀ c ∈ n, c.isAlpha = true := by
  have hmarks : "://".toList = [':'] ++ ['/', '/'] := by decide
  rw [hmarks, ← List.append_assoc] at h
  obtain ⟨n, rest, rfl, rfl, hn⟩ := eq_of_colon_prefix hname ((List.prefix_append _ _).trans h)
  rw [Letters.toAsciiLowercase_append, Letters.toAsciiLowercase_cons, List.append_assoc,
    List.prefix_append_right_inj] at h
  obtain ⟨tail, htail⟩ := h
  obtain ⟨a, r, rfl, ha, hr⟩ := List.map_eq_cons_iff.1 (List.cons.inj htail).2.symm
  obtain ⟨b, rest, rfl, hb, -⟩ := List.map_eq_cons_iff.1 hr
  obtain rfl := (Letters.toLower_eq_iff a '/' (by decide)).1 ha
  obtain rfl := (Letters.toLower_eq_iff b '/' (by decide)).1 hb
  exact ⟨n, rest, rfl, rfl, hn⟩

theorem colon_notMem_of_isAlpha {n : Text} (hn : ∀ c ∈ n, c.isAlpha = true) : ':' ∉ n :=
  fun h => absurd (hn _ h) (by decide)

/-- A reader that sees a scheme and two slashes is behind them. -/
theorem splitScheme_of_cleaned (r : UrlReader) {s n rest : Text}
    (hclean : r.cleaned s = n ++ ':' :: rest) (hn : ∀ c ∈ n, c.isAlpha = true) :
    r.splitScheme s = some (toAsciiLowercase n, rest) := by
  rw [splitScheme, hclean, Cuts.breakOn_eq_some_iff.2 ⟨rfl, colon_notMem_of_isAlpha hn⟩]
  rfl

/-- A scheme that is read stands before the first colon. -/
theorem splitScheme_eq_some {r : UrlReader} {s scheme rest : Text}
    (h : r.splitScheme s = some (scheme, rest)) :
    ∃ n, r.cleaned s = n ++ ':' :: rest ∧ toAsciiLowercase n = scheme := by
  obtain ⟨⟨n, rest'⟩, hbreak, heq⟩ := Option.map_eq_some_iff.1 h
  obtain ⟨rfl, rfl⟩ := Prod.mk.inj heq
  exact ⟨n, (Cuts.breakOn_eq_some_iff.1 hbreak).1, rfl⟩

/-- What is read comes from a scheme, slashes and an authority. -/
theorem read_eq_some_iff {r : UrlReader} {s : Text} {parts : Parts} :
    r.read s = some parts ↔ ∃ after rest, r.splitScheme s = some (parts.scheme, after) ∧
      r.afterSlashes after = some rest ∧
        r.hostAndPort (r.withoutUserinfo (Cuts.before r.ends rest)) = (parts.host, parts.port) := by
  unfold read
  constructor
  · intro h
    obtain ⟨⟨scheme, after⟩, hsplit, h⟩ := Option.bind_eq_some_iff.1 h
    obtain ⟨rest, hrest, rfl⟩ := Option.map_eq_some_iff.1 h
    exact ⟨after, rest, hsplit, hrest, rfl⟩
  · rintro ⟨after, rest, hsplit, hrest, hparts⟩
    rw [hsplit, Option.bind_some]
    simp only [hrest, Option.map_some, hparts]

/-! ## The port -/

theorem colons_outside {a : Text} (ha : ∀ c ∈ a, c ≠ ':') (inside : Bool) :
    ∀ x ∈ colons inside a, x.2 = false := by
  induction a generalizing inside with
  | nil => exact fun x hx => absurd hx List.not_mem_nil
  | cons c a ih =>
    intro x hx
    rcases List.mem_cons.1 hx with rfl | hx
    · have hc : (c == ':') = false := beq_eq_false_iff_ne.2 (ha c List.mem_cons_self)
      rw [hc]
      rfl
    · exact ih (fun d hd => ha d (List.mem_cons_of_mem c hd)) _ x hx

@[simp] theorem map_fst_colons (inside : Bool) (a : Text) : (colons inside a).map Prod.fst = a := by
  induction a generalizing inside with
  | nil => rfl
  | cons c a ih =>
    unfold colons
    rw [List.map_cons, ih]

/-- Without brackets nothing is inside. -/
theorem colons_append_plain {a : Text} (ha : ∀ c ∈ a, c ≠ '[' ∧ c ≠ ']') (b : Text) :
    colons false (a ++ b) = colons false a ++ colons false b := by
  induction a with
  | nil => rfl
  | cons c a ih =>
    obtain ⟨hopen, hclose⟩ := ha c List.mem_cons_self
    rw [List.cons_append, colons, colons, if_neg hopen, if_neg hclose,
      ih (fun d hd => ha d (List.mem_cons_of_mem c hd))]
    rfl

theorem colons_append_inside {a : Text} (ha : ∀ c ∈ a, c ≠ '[' ∧ c ≠ ']') (b : Text) :
    colons true (a ++ b) = a.map (fun c => (c, false)) ++ colons true b := by
  induction a with
  | nil => rfl
  | cons c a ih =>
    obtain ⟨hopen, hclose⟩ := ha c List.mem_cons_self
    rw [List.cons_append, colons, if_neg hopen, if_neg hclose,
      ih (fun d hd => ha d (List.mem_cons_of_mem c hd))]
    simp

/-- A bracketed text is inside its brackets. -/
theorem colons_append_bracketed {a : Text} (ha : ∀ c ∈ a, c ≠ '[' ∧ c ≠ ']') (b : Text) :
    colons false ('[' :: (a ++ [']']) ++ b) =
      ('[' :: (a ++ [']'])).map (fun c => (c, false)) ++ colons false b := by
  rw [List.cons_append, colons, if_pos rfl, List.append_assoc, colons_append_inside ha,
    List.singleton_append, colons, if_neg (by decide), if_pos rfl]
  simp

/-- A text no character of which is a colon outside brackets, and a port or none. -/
theorem hostAndPort_of_marked (r : UrlReader) {host port : Text} {marked : List (Char × Bool)}
    (hmarked : ∀ b, colons false (host ++ b) = marked ++ colons false b)
    (hhost : ∀ x ∈ marked, x.2 = false) (hfst : marked.map Prod.fst = host) (hport : ∀ c ∈ port, c ≠ ':') :
    r.hostAndPort host = (host, none) ∧ r.hostAndPort (host ++ ':' :: port) = (host, some port) := by
  constructor
  · have hplain := hmarked []
    rw [List.append_nil] at hplain
    unfold hostAndPort
    rw [hplain, if_neg]
    intro hany
    obtain ⟨x, hx, hcolon⟩ := List.any_eq_true.1 hany
    rw [colons, List.append_nil] at hx
    exact absurd hcolon (by rw [hhost x hx]; exact Bool.false_ne_true)
  · have hsep : colons false (host ++ ':' :: port) = marked ++ (':', true) :: colons false port := by
      rw [hmarked]
      rfl
    have hafter := colons_outside hport false
    have hany : (marked ++ (':', true) :: colons false port).any Prod.snd = true := by simp
    have hcolon : Prod.snd (':', true) = true := rfl
    unfold hostAndPort
    simp only [hsep, hany, if_true, Cuts.before_append_sep hhost hcolon,
      Cuts.afterFirst_append_sep hhost hcolon, Cuts.beforeLast_append_sep hafter hcolon,
      Cuts.afterLast_append_sep hafter hcolon, map_fst_colons, hfst, ite_self]

theorem hostAndPort_plain (r : UrlReader) {host port : Text}
    (hhost : ∀ c ∈ host, c ≠ ':' ∧ c ≠ '[' ∧ c ≠ ']') (hport : ∀ c ∈ port, c ≠ ':') :
    r.hostAndPort host = (host, none) ∧ r.hostAndPort (host ++ ':' :: port) = (host, some port) :=
  hostAndPort_of_marked r (fun b => colons_append_plain (fun c hc => (hhost c hc).2) b)
    (colons_outside (fun c hc => (hhost c hc).1) false) (map_fst_colons false host) hport

theorem hostAndPort_bracketed (r : UrlReader) {a port : Text} (ha : ∀ c ∈ a, c ≠ '[' ∧ c ≠ ']')
    (hport : ∀ c ∈ port, c ≠ ':') :
    r.hostAndPort ('[' :: (a ++ [']'])) = ('[' :: (a ++ [']']), none) ∧
      r.hostAndPort ('[' :: (a ++ [']']) ++ ':' :: port) = ('[' :: (a ++ [']']), some port) :=
  hostAndPort_of_marked r (colons_append_bracketed ha) (by simp) (by simp [Function.comp_def]) hport

/-- A reader that takes the first colon takes the host before it. -/
theorem hostAndPort_fst {r : UrlReader} (hr : r.lastColon = false) (authority : Text) :
    (r.hostAndPort authority).1 = (Cuts.before Prod.snd (colons false authority)).map Prod.fst := by
  unfold hostAndPort
  simp only [hr, Bool.false_eq_true, if_false]
  split
  · rfl
  · next hany =>
    rw [Cuts.before_of_none (fun x hx => Bool.eq_false_iff.2 (fun h => hany (List.any_eq_true.2 ⟨x, hx, h⟩))),
      map_fst_colons]

/-! ## Texts that are read as they stand -/

/-- A reader that takes the last `@` drops what ends with it. -/
theorem withoutUserinfo_append {r : UrlReader} (hr : r.lastAt = true) {user host : Text}
    (huser : ∀ c ∈ user.getLast?, c = '@') (hhost : '@' ∉ host) :
    r.withoutUserinfo (user ++ host) = host := by
  have hat : ∀ c ∈ host, isAt c = false := fun c hc => beq_eq_false_iff_ne.2 (fun heq => hhost (heq ▸ hc))
  unfold withoutUserinfo
  rw [hr, if_pos rfl]
  induction user using List.reverseRecOn with
  | nil => exact Cuts.afterLast_of_none hat
  | append_singleton user c ih =>
    have hc : c = '@' := huser c (by simp)
    rw [hc, List.append_assoc, List.singleton_append]
    exact Cuts.afterLast_append_sep hat rfl

theorem withoutUserinfo_of_none (r : UrlReader) {authority : Text} (h : '@' ∉ authority) :
    r.withoutUserinfo authority = authority := by
  have hat : ∀ c ∈ authority, isAt c = false := by
    intro c hc
    exact beq_eq_false_iff_ne.2 (fun heq => h (heq ▸ hc))
  unfold withoutUserinfo
  rw [Cuts.afterLast_of_none hat, Cuts.afterFirst_of_none hat, ite_self]

theorem isTabOrNewline_imp {c : Char} (h : isTabOrNewline c = true) : isC0OrSpace c = true := by
  unfold isTabOrNewline at h
  simp only [Bool.or_eq_true, beq_iff_eq] at h
  rcases h with (rfl | rfl) | rfl <;> decide

theorem stripped_of_none {s : Text} (hs : ∀ c ∈ s, isC0OrSpace c = false) : stripped s = s := by
  unfold stripped
  rw [List.filter_eq_self]
  intro c hc
  cases htab : isTabOrNewline c with
  | false => rfl
  | true =>
    have h := isTabOrNewline_imp htab
    rw [hs c hc] at h
    exact absurd h Bool.false_ne_true

theorem cleaned_of_none (r : UrlReader) {s : Text} (hs : ∀ c ∈ s, isC0OrSpace c = false) :
    r.cleaned s = s := by
  unfold cleaned
  simp only [Cuts.trimEnds_of_none hs, stripped_of_none hs, ite_self]

/-- After two slashes and a character that is none, every reader is at the authority. -/
theorem afterSlashes_two (r : UrlReader) {rest : Text} (h : ∀ c ∈ rest.head?, r.isSlash c = false) :
    r.afterSlashes ('/' :: '/' :: rest) = some rest := by
  have hslash : r.isSlash '/' = true := rfl
  unfold afterSlashes
  cases r.anySlashes with
  | true =>
    rw [if_pos rfl, List.dropWhile_cons_of_pos hslash, List.dropWhile_cons_of_pos hslash,
      Cuts.dropWhile_of_head h]
  | false => simp only [hslash, Bool.and_self, Bool.false_eq_true, if_false, if_true]

end UrlReader
