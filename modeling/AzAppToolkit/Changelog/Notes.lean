import AzAppToolkit.Lib.Slices

set_option autoImplicit false

/-! # Release notes

`components/changelog_notes.rs`: the notes of a release are read line by line into headings, paragraphs and
nested lists, and the text of each is scanned for code, bold and links.

The items at `pos` and behind are a list that `buildLevel` takes from; a text found is the text before it and
the text behind it, where the source cuts by byte positions. -/

namespace Changelog

/-! ## Blocks -/

inductive Item where
  | mk (text : Text) (children : List Item)

inductive Block where
  | heading (text : Text)
  | paragraph (text : Text)
  | list (items : List Item)

/-- A bullet with its indent. -/
abbrev FlatItem := Nat × Text

/-- `str::lines`: a `\r` goes with the `\n` it stands before. -/
def linesOf (s : Text) : List Text :=
  let parts := Text.splitOn (· == '\n') s
  let ended := parts.dropLast.map fun line =>
    if line.getLast? = some '\r' then line.dropLast else line
  match parts.getLast? with
  | some (c :: last) => ended ++ [c :: last]
  | _ => ended

def trimEnd (s : Text) : Text := (s.reverse.dropWhile isWhitespace).reverse

def trimStart (s : Text) : Text := s.dropWhile isWhitespace

/-- The items of one level, and what is left of the items behind them. -/
def buildLevel (items : List FlatItem) (level : Nat) :
    { r : List Item × List FlatItem // r.2.length ≤ items.length } :=
  match items with
  | [] => ⟨([], []), le_rfl⟩
  | (indent, text) :: rest =>
    if indent < level then ⟨([], (indent, text) :: rest), le_rfl⟩
    else if level < indent then
      -- deeper, with no sibling at this level to own it: adopted here
      let siblings := buildLevel rest level
      ⟨(.mk text [] :: siblings.1.1, siblings.1.2), Nat.le_succ_of_le siblings.2⟩
    else
      let children : { r : List Item × List FlatItem // r.2.length ≤ rest.length } :=
        match rest.head? with
        | some (next, _) => if level < next then buildLevel rest next else ⟨([], rest), le_rfl⟩
        | none => ⟨([], rest), le_rfl⟩
      let siblings := buildLevel children.1.2 level
      ⟨(.mk text children.1.1 :: siblings.1.1, siblings.1.2),
        Nat.le_succ_of_le (siblings.2.trans children.2)⟩
termination_by items.length
decreasing_by
  · exact Nat.lt_succ_self _
  · exact Nat.lt_succ_self _
  · exact Nat.lt_succ_of_le children.2

/-- What the loop over the lines has so far. -/
structure Blocks where
  blocks : List Block
  flat : List FlatItem
  para : List Text

def Blocks.flushPara (b : Blocks) : Blocks :=
  if b.para.isEmpty then b
  else { b with blocks := b.blocks ++ [.paragraph (Text.join " ".toList b.para)], para := [] }

def Blocks.flushList (b : Blocks) : Blocks :=
  match b.flat with
  | [] => b
  | (base, text) :: rest =>
    { b with blocks := b.blocks ++ [.list (buildLevel ((base, text) :: rest) base).1.1], flat := [] }

/-- `last_mut`: the continuation of the open bullet. -/
def continueLast (trimmed : Text) (flat : List FlatItem) : List FlatItem :=
  match flat.getLast? with
  | some (indent, text) => flat.dropLast ++ [(indent, text ++ ' ' :: trimmed)]
  | none => flat

def Blocks.read (b : Blocks) (raw : Text) : Blocks :=
  let line := trimEnd raw
  let trimmed := trimStart line
  let indent := Slices.byteLength line - Slices.byteLength trimmed
  if trimmed.isEmpty then b.flushPara.flushList
  else if "#".toList.isPrefixOf trimmed then
    let b := b.flushPara.flushList
    { b with blocks := b.blocks ++ [.heading (Text.trim (trimmed.dropWhile (· == '#')))] }
  else if "- ".toList.isPrefixOf trimmed then
    let b := b.flushPara
    { b with flat := b.flat ++ [(indent, Text.trim (trimmed.drop 2))] }
  else if !b.flat.isEmpty then { b with flat := continueLast trimmed b.flat }
  else { b with para := b.para ++ [trimmed] }

def parseBlocks (notes : Text) : List Block :=
  ((linesOf notes).foldl Blocks.read ⟨[], [], []⟩).flushPara.flushList.blocks

/-! ## Inline text -/

inductive Inline where
  | text (t : Text)
  | bold (t : Text)
  | code (t : Text)
  | link (text href : Text)

inductive Marker where
  | code
  | bold
  | link

def Marker.text : Marker → Text
  | .code => "`".toList
  | .bold => "**".toList
  | .link => "[".toList

/-- The marker that comes first, with the text before it and behind it. -/
def earliest (rest : Text) : Option (Text × Marker × Text) :=
  ([Marker.code, .bold, .link].filterMap fun m =>
    (Text.breakOn m.text rest).map fun parts => (parts.1, m, parts.2)).argmin fun found => found.1.length

def isAllowedHref (href : Text) : Bool := "https://".toList.isPrefixOf href

/-- Behind the `[` of a link: its text, its target, and the rest. -/
def parseLink (inner : Text) : Option (Text × Text × Text) :=
  (Text.breakOn "]".toList inner).bind fun (label, tail) =>
    match tail with
    | '(' :: url => (Text.breakOn ")".toList url).map fun (href, rest) => (label, href, rest)
    | _ => none

/-- What a marker gives, as text or as a node of its own, and the rest. -/
def readMarker (m : Marker) (inner : Text) : (Text ⊕ Inline) × Text :=
  match m with
  | .code =>
    match Text.breakOn Marker.code.text inner with
    | some (code, rest) => (.inr (.code code), rest)
    | none => (.inl Marker.code.text, inner)
  | .bold =>
    match Text.breakOn Marker.bold.text inner with
    | some (bold, rest) => (.inr (.bold bold), rest)
    | none => (.inl Marker.bold.text, inner)
  | .link =>
    match parseLink inner with
    | some (label, href, rest) =>
      if isAllowedHref href then (.inr (.link label href), rest) else (.inl label, rest)
    | none => (.inl Marker.link.text, inner)

def flushText (out : List Inline) (text : Text) : List Inline :=
  if text.isEmpty then out else out ++ [.text text]

/-! ### Ends -/

theorem eq_of_breakOn {needle s a b : Text} (h : Text.breakOn needle s = some (a, b)) :
    s = a ++ needle ++ b := by
  induction s generalizing a with
  | nil =>
    unfold Text.breakOn at h
    split at h
    · next hnil =>
      obtain ⟨rfl, rfl⟩ := Prod.mk.inj (Option.some.inj h)
      rw [List.prefix_nil.1 (List.isPrefixOf_iff_prefix.1 hnil)]
      rfl
    · cases h
  | cons c s ih =>
    unfold Text.breakOn at h
    split at h
    · next hhere =>
      obtain ⟨rfl, rfl⟩ := Prod.mk.inj (Option.some.inj h)
      obtain ⟨t, ht⟩ := List.isPrefixOf_iff_prefix.1 hhere
      rw [← ht, List.drop_left, List.nil_append]
    · obtain ⟨⟨a', b'⟩, hparts, heq⟩ := Option.map_eq_some_iff.1 h
      obtain ⟨rfl, rfl⟩ := Prod.mk.inj heq
      rw [ih hparts]
      rfl

theorem eq_of_earliest {rest before after : Text} {m : Marker} (h : earliest rest = some (before, m, after)) :
    rest = before ++ m.text ++ after := by
  have hmem := List.argmin_mem h
  obtain ⟨marker, -, hfound⟩ := List.mem_filterMap.1 hmem
  obtain ⟨⟨a, b⟩, hparts, heq⟩ := Option.map_eq_some_iff.1 hfound
  simp only [Prod.mk.injEq] at heq
  obtain ⟨rfl, rfl, rfl⟩ := heq
  exact eq_of_breakOn hparts

theorem eq_of_parseLink {inner label href rest : Text} (h : parseLink inner = some (label, href, rest)) :
    inner = label ++ "](".toList ++ href ++ ")".toList ++ rest := by
  obtain ⟨⟨label', tail⟩, hlabel, h⟩ := Option.bind_eq_some_iff.1 h
  dsimp only at h
  split at h
  · next url =>
    obtain ⟨⟨href', rest'⟩, hhref, heq⟩ := Option.map_eq_some_iff.1 h
    simp only [Prod.mk.injEq] at heq
    obtain ⟨rfl, rfl, rfl⟩ := heq
    rw [eq_of_breakOn hlabel, eq_of_breakOn hhref]
    simp
  · cases h

/-- The rest behind what a marker gives is an end of what was behind the marker. -/
theorem readMarker_suffix (m : Marker) (inner : Text) : (readMarker m inner).2 <:+ inner := by
  have hcut : ∀ {needle a b : Text}, Text.breakOn needle inner = some (a, b) → b <:+ inner := by
    intro needle a b h
    rw [eq_of_breakOn h]
    exact List.suffix_append _ _
  unfold readMarker
  cases m with
  | code | bold =>
    dsimp only
    split
    · next h => exact hcut h
    · exact List.suffix_rfl
  | link =>
    dsimp only
    split
    · next label href rest h =>
      have hrest : rest <:+ inner := by
        rw [eq_of_parseLink h]
        exact List.suffix_append _ _
      split <;> exact hrest
    · exact List.suffix_rfl

theorem Marker.text_pos (m : Marker) : 0 < m.text.length := by
  cases m <;> decide

/-- The scan, with the nodes and the text so far. -/
def parseFrom (out : List Inline) (text rest : Text) : List Inline :=
  match h : earliest rest with
  | none => flushText out (text ++ rest)
  | some (before, m, inner) =>
    have : (readMarker m inner).2.length < rest.length := by
      have hshort := (readMarker_suffix m inner).length_le
      have hpos := m.text_pos
      rw [eq_of_earliest h, List.length_append, List.length_append]
      omega
    match (readMarker m inner).1 with
    | .inl literal => parseFrom out (text ++ before ++ literal) (readMarker m inner).2
    | .inr node => parseFrom (flushText out (text ++ before) ++ [node]) [] (readMarker m inner).2
termination_by rest.length

def parseInline (s : Text) : List Inline := parseFrom [] [] s

end Changelog
