import AzAppToolkit.Changelog.Notes

set_option autoImplicit false

/-! # What the blocks hold

The lines of the notes are grouped once more, by what they say: headings, paragraphs and runs of bullets
with their continuations. The parser makes one block of each, and of a run it keeps the bullets up to the
first that is indented less than the run began. -/

namespace Changelog

/-! ## The source, line by line -/

inductive Line where
  | blank
  | heading (text : Text)
  | bullet (indent : Nat) (text : Text)
  | loose (text : Text)

def Line.of (raw : Text) : Line :=
  let line := trimEnd raw
  let trimmed := trimStart line
  if trimmed.isEmpty then .blank
  else if "#".toList.isPrefixOf trimmed then .heading (Text.trim (trimmed.dropWhile (· == '#')))
  else if "- ".toList.isPrefixOf trimmed then
    .bullet (Slices.byteLength line - Slices.byteLength trimmed) (Text.trim (trimmed.drop 2))
  else .loose trimmed

def Line.isLoose : Line → Bool
  | .loose _ => true
  | _ => false

def Line.inList : Line → Bool
  | .bullet _ _ | .loose _ => true
  | _ => false

def looseTexts (lines : List Line) : List Text :=
  lines.filterMap fun line =>
    match line with
    | .loose text => some text
    | _ => none

inductive SourceBlock where
  | heading (text : Text)
  | paragraph (text : Text)
  | bullets (items : List FlatItem)

/-- The bullets of a run, each joined with its continuation lines. -/
def bulletsOf : List Line → List FlatItem
  | .bullet indent text :: lines =>
    (indent, Text.join " ".toList (text :: looseTexts (lines.takeWhile Line.isLoose))) ::
      bulletsOf (lines.dropWhile Line.isLoose)
  | _ => []
termination_by lines => lines.length
decreasing_by exact Nat.lt_succ_of_le (List.dropWhile_suffix _).length_le

def sourceBlocks : List Line → List SourceBlock
  | [] => []
  | .blank :: lines => sourceBlocks lines
  | .heading text :: lines => .heading text :: sourceBlocks lines
  | .loose text :: lines =>
    .paragraph (Text.join " ".toList (text :: looseTexts (lines.takeWhile Line.isLoose))) ::
      sourceBlocks (lines.dropWhile Line.isLoose)
  | .bullet indent text :: lines =>
    .bullets (bulletsOf (.bullet indent text :: lines.takeWhile Line.inList)) ::
      sourceBlocks (lines.dropWhile Line.inList)
termination_by lines => lines.length
decreasing_by
  · exact Nat.lt_succ_self _
  · exact Nat.lt_succ_self _
  · exact Nat.lt_succ_of_le (List.dropWhile_suffix _).length_le
  · exact Nat.lt_succ_of_le (List.dropWhile_suffix _).length_le

def sourceOf (notes : Text) : List SourceBlock := sourceBlocks ((linesOf notes).map Line.of)

/-! ## What is read in document order -/

inductive Element where
  | heading (text : Text)
  | paragraph (text : Text)
  | bullet (text : Text)
deriving DecidableEq

mutual

/-- The item before its children. -/
def Item.texts : Item → List Text
  | .mk text children => text :: textsOf children

def textsOf : List Item → List Text
  | [] => []
  | item :: items => item.texts ++ textsOf items

end

def Block.elements : Block → List Element
  | .heading text => [.heading text]
  | .paragraph text => [.paragraph text]
  | .list items => (textsOf items).map .bullet

def SourceBlock.elements : SourceBlock → List Element
  | .heading text => [.heading text]
  | .paragraph text => [.paragraph text]
  | .bullets items => items.map fun item => .bullet item.2

/-! ## One level -/

theorem takeWhile_split {α : Type} {p q : α → Bool} (h : ∀ x, q x = true → p x = true) (l : List α) :
    l.takeWhile p = l.takeWhile q ++ (l.dropWhile q).takeWhile p ∧
      l.dropWhile p = (l.dropWhile q).dropWhile p := by
  induction l with
  | nil => exact ⟨rfl, rfl⟩
  | cons x l ih =>
    cases hq : q x with
    | true => simp [hq, h x hq, ih.1, ih.2]
    | false => simp [hq]

/-- The items that are taken, and what is left of them. -/
def Takes (p : FlatItem → Bool) (items : List FlatItem) (r : List Item × List FlatItem) : Prop :=
  textsOf r.1 = (items.takeWhile p).map Prod.snd ∧ r.2 = items.dropWhile p

def atLeast (level : Nat) (item : FlatItem) : Bool := decide (level ≤ item.1)

theorem Takes.nothing (items : List FlatItem) : Takes (fun _ => false) items ([], items) := by
  cases items with
  | nil | cons item items => exact ⟨rfl, rfl⟩

/-- An item with its children, and then its siblings. -/
theorem Takes.cons {level indent : Nat} {text : Text} {rest : List FlatItem} {q : FlatItem → Bool}
    {children siblings : List Item × List FlatItem} (hlevel : level ≤ indent)
    (hq : ∀ item, q item = true → atLeast level item = true) (hchildren : Takes q rest children)
    (hsiblings : Takes (atLeast level) children.2 siblings) :
    Takes (atLeast level) ((indent, text) :: rest) (.mk text children.1 :: siblings.1, siblings.2) := by
  obtain ⟨htake, hdrop⟩ := takeWhile_split hq rest
  have hhead : atLeast level (indent, text) = true := decide_eq_true hlevel
  constructor
  · rw [List.takeWhile_cons_of_pos hhead, htake, ← hchildren.2, List.map_cons, List.map_append, ← hchildren.1,
      ← hsiblings.1]
    rfl
  · rw [List.dropWhile_cons_of_pos hhead, hdrop, ← hchildren.2]
    exact hsiblings.2

theorem Takes.leaf {level indent : Nat} {text : Text} {rest : List FlatItem}
    {siblings : List Item × List FlatItem} (hlevel : level ≤ indent)
    (hsiblings : Takes (atLeast level) rest siblings) :
    Takes (atLeast level) ((indent, text) :: rest) (.mk text [] :: siblings.1, siblings.2) :=
  Takes.cons (q := fun _ => false) hlevel (fun _ h => absurd h Bool.false_ne_true) (.nothing rest) hsiblings

/-- A level takes the items up to the first that is indented less, each once and in order. -/
theorem buildLevel_takes (n : Nat) (items : List FlatItem) (level : Nat) (hlen : items.length ≤ n) :
    Takes (atLeast level) items (buildLevel items level).1 := by
  induction n generalizing items level with
  | zero =>
    obtain rfl := List.length_eq_zero_iff.1 (Nat.le_zero.1 hlen)
    unfold buildLevel
    exact ⟨rfl, rfl⟩
  | succ n ih =>
    cases items with
    | nil =>
      unfold buildLevel
      exact ⟨rfl, rfl⟩
    | cons item rest =>
      obtain ⟨indent, text⟩ := item
      have hrest : rest.length ≤ n := Nat.le_of_succ_le_succ hlen
      unfold buildLevel
      by_cases hless : indent < level
      · have hhead : ¬ atLeast level (indent, text) = true := by simp [atLeast, hless]
        rw [if_pos hless]
        constructor
        · rw [List.takeWhile_cons_of_neg hhead]
          rfl
        · rw [List.dropWhile_cons_of_neg hhead]
      · have hlevel : level ≤ indent := Nat.le_of_not_lt hless
        rw [if_neg hless]
        by_cases hdeeper : level < indent
        · rw [if_pos hdeeper]
          exact Takes.leaf hlevel (ih rest level hrest)
        · rw [if_neg hdeeper]
          cases rest with
          | nil => exact Takes.leaf hlevel (ih [] level (Nat.zero_le n))
          | cons following rest =>
            obtain ⟨next, nextText⟩ := following
            dsimp only [List.head?_cons]
            by_cases hnext : level < next
            · rw [if_pos hnext]
              have hinner := ih ((next, nextText) :: rest) next hrest
              refine Takes.cons hlevel (fun item hitem => ?_) hinner (ih _ level ?_)
              · exact decide_eq_true ((Nat.le_of_lt hnext).trans (of_decide_eq_true hitem))
              · exact (buildLevel _ next).2.trans hrest
            · rw [if_neg hnext]
              exact Takes.leaf hlevel (ih _ level hrest)

theorem buildLevel_spec (items : List FlatItem) (level : Nat) :
    Takes (atLeast level) items (buildLevel items level).1 := buildLevel_takes _ items level le_rfl

/-! ## The loop over the lines -/

def baseOf (items : List FlatItem) : Nat := (items.head?.map Prod.fst).getD 0

def SourceBlock.block : SourceBlock → Block
  | .heading text => .heading text
  | .paragraph text => .paragraph text
  | .bullets items => .list (buildLevel items (baseOf items)).1.1

def Blocks.readLine (b : Blocks) : Line → Blocks
  | .blank => b.flushPara.flushList
  | .heading text =>
    { b.flushPara.flushList with blocks := b.flushPara.flushList.blocks ++ [.heading text] }
  | .bullet indent text => { b.flushPara with flat := b.flushPara.flat ++ [(indent, text)] }
  | .loose text =>
    if !b.flat.isEmpty then { b with flat := continueLast text b.flat } else { b with para := b.para ++ [text] }

theorem read_eq (b : Blocks) (raw : Text) : b.read raw = b.readLine (Line.of raw) := by
  unfold Blocks.read Line.of
  dsimp only
  split
  · rfl
  · split
    · rfl
    · split <;> rfl

def Blocks.finish (b : Blocks) : List Block := b.flushPara.flushList.blocks

theorem parseBlocks_eq (notes : Text) :
    parseBlocks notes = (((linesOf notes).map Line.of).foldl Blocks.readLine ⟨[], [], []⟩).finish := by
  unfold parseBlocks
  rw [List.foldl_map]
  have hread : Blocks.read = fun b raw => b.readLine (Line.of raw) := funext fun b => funext fun raw => read_eq b raw
  rw [hread]
  rfl

section Loop

variable {b : Blocks} {blocks : List Block} {flat : List FlatItem} {lines : List Line}

theorem flushPara_of_nil (h : b.para = []) : b.flushPara = b := by
  unfold Blocks.flushPara
  rw [h]
  rfl

theorem flushPara_para (b : Blocks) : b.flushPara.para = [] := by
  unfold Blocks.flushPara
  split
  · next hnil => exact List.isEmpty_iff.1 hnil
  · rfl

theorem flushPara_flushPara (b : Blocks) : b.flushPara.flushPara = b.flushPara :=
  flushPara_of_nil (flushPara_para b)

theorem flushList_of_nil (h : b.flat = []) : b.flushList = b := by
  unfold Blocks.flushList
  rw [h]

theorem flushList_flat (b : Blocks) : b.flushList.flat = [] := by
  unfold Blocks.flushList
  split
  · next hnil => exact hnil
  · rfl

theorem flushList_para (b : Blocks) : b.flushList.para = b.para := by
  unfold Blocks.flushList
  split <;> rfl

/-- The list that is open is a block of its own. -/
theorem flushList_blocks (hne : flat ≠ []) :
    (⟨blocks, flat, []⟩ : Blocks).flushList = ⟨blocks ++ [(SourceBlock.bullets flat).block], [], []⟩ := by
  cases flat with
  | nil => exact absurd rfl hne
  | cons item flat => rfl

/-- A paragraph ends where a line is not a loose one. -/
theorem foldl_flushPara (h : ∀ line ∈ lines.head?, line.isLoose = false) (b : Blocks) :
    (lines.foldl Blocks.readLine b.flushPara).finish = (lines.foldl Blocks.readLine b).finish := by
  cases lines with
  | nil =>
    change b.flushPara.flushPara.flushList.blocks = _
    rw [flushPara_flushPara]
    rfl
  | cons line lines =>
    rw [List.foldl_cons, List.foldl_cons]
    congr 2
    cases line with
    | loose text => exact absurd (h _ rfl).symm Bool.false_ne_true
    | _ => unfold Blocks.readLine; rw [flushPara_flushPara]

/-- A list ends where a line is neither a bullet nor a loose one. -/
theorem foldl_flushList (h : ∀ line ∈ lines.head?, line.inList = false) (hpara : b.para = []) :
    (lines.foldl Blocks.readLine b.flushList).finish = (lines.foldl Blocks.readLine b).finish := by
  have hpara' : b.flushList.flushPara = b.flushList := flushPara_of_nil (by rw [flushList_para, hpara])
  have hlist : b.flushList.flushPara.flushList = b.flushPara.flushList := by
    rw [hpara', flushPara_of_nil hpara, flushList_of_nil (flushList_flat b)]
  cases lines with
  | nil => exact congrArg Blocks.blocks hlist
  | cons line lines =>
    rw [List.foldl_cons, List.foldl_cons]
    congr 2
    cases line with
    | blank => exact hlist
    | heading text => unfold Blocks.readLine; rw [hlist]
    | _ => exact absurd (h _ rfl).symm Bool.false_ne_true

/-- Loose lines outside of a list go to the paragraph. -/
theorem foldl_loose (h : ∀ line ∈ lines, line.isLoose = true) (para : List Text) :
    lines.foldl Blocks.readLine ⟨blocks, [], para⟩ = ⟨blocks, [], para ++ looseTexts lines⟩ := by
  induction lines generalizing para with
  | nil => simp [looseTexts]
  | cons line lines ih =>
    rw [List.forall_mem_cons] at h
    cases line with
    | loose text =>
      rw [List.foldl_cons]
      change lines.foldl Blocks.readLine ⟨blocks, [], para ++ [text]⟩ = _
      rw [ih h.2, List.append_assoc]
      rfl
    | _ => exact absurd h.1 Bool.false_ne_true

theorem bulletsOf_bullet (indent : Nat) (text : Text) (lines : List Line) :
    bulletsOf (.bullet indent text :: lines) =
      (indent, Text.join " ".toList (text :: looseTexts (lines.takeWhile Line.isLoose))) ::
        bulletsOf (lines.dropWhile Line.isLoose) := by
  rw [bulletsOf]

/-- A continuation that has been read belongs to the text of its bullet. -/
theorem bulletsOf_continued (indent : Nat) (text more : Text) (lines : List Line) :
    bulletsOf (.bullet indent text :: .loose more :: lines) =
      bulletsOf (.bullet indent (text ++ ' ' :: more) :: lines) := by
  rw [bulletsOf_bullet, bulletsOf_bullet, List.takeWhile_cons_of_pos rfl, List.dropWhile_cons_of_pos rfl]
  congr 2
  change Text.join _ (text :: more :: looseTexts _) = _
  cases looseTexts (lines.takeWhile Line.isLoose) <;> simp [Text.join, List.intercalate]

/-- Bullets and loose lines go to the list that is open. -/
theorem foldl_bullets (h : ∀ line ∈ lines, line.inList = true) (flat : List FlatItem) (indent : Nat)
    (text : Text) :
    lines.foldl Blocks.readLine ⟨blocks, flat ++ [(indent, text)], []⟩ =
      ⟨blocks, flat ++ bulletsOf (.bullet indent text :: lines), []⟩ := by
  induction lines generalizing flat indent text with
  | nil =>
    rw [bulletsOf_bullet]
    simp [bulletsOf, looseTexts, Text.join, List.intercalate]
  | cons line lines ih =>
    rw [List.forall_mem_cons] at h
    rw [List.foldl_cons]
    cases line with
    | loose more =>
      have hread : (⟨blocks, flat ++ [(indent, text)], []⟩ : Blocks).readLine (.loose more) =
          ⟨blocks, flat ++ [(indent, text ++ ' ' :: more)], []⟩ := by
        simp [Blocks.readLine, continueLast]
      rw [hread, ih h.2, bulletsOf_continued]
    | bullet next nextText =>
      have hread : (⟨blocks, flat ++ [(indent, text)], []⟩ : Blocks).readLine (.bullet next nextText) =
          ⟨blocks, (flat ++ [(indent, text)]) ++ [(next, nextText)], []⟩ := rfl
      rw [hread, ih h.2, bulletsOf_bullet indent]
      simp [Line.isLoose, looseTexts, Text.join, List.intercalate]
    | _ => exact absurd h.1 Bool.false_ne_true

theorem head_dropWhile {α : Type} (p : α → Bool) (l : List α) : ∀ x ∈ (l.dropWhile p).head?, p x = false := by
  intro x hx
  have h := List.head?_dropWhile_not p l
  rw [Option.mem_def.1 hx] at h
  exact h

/-- The loop makes one block of each group of lines. -/
theorem finish_foldl (lines : List Line) (blocks : List Block) :
    (lines.foldl Blocks.readLine ⟨blocks, [], []⟩).finish =
      blocks ++ (sourceBlocks lines).map SourceBlock.block := by
  induction lines using sourceBlocks.induct generalizing blocks with
  | case1 =>
    rw [sourceBlocks]
    exact (List.append_nil blocks).symm
  | case2 lines ih =>
    rw [sourceBlocks, List.foldl_cons]
    exact ih blocks
  | case3 text lines ih =>
    rw [sourceBlocks, List.foldl_cons, List.map_cons, List.append_cons]
    exact ih (blocks ++ [.heading text])
  | case4 text lines ih =>
    rw [sourceBlocks, List.foldl_cons, List.map_cons, List.append_cons, ← ih]
    have hrest := head_dropWhile Line.isLoose lines
    have hloose : (lines.takeWhile Line.isLoose).foldl Blocks.readLine ⟨blocks, [], [text]⟩ =
        ⟨blocks, [], text :: looseTexts (lines.takeWhile Line.isLoose)⟩ :=
      foldl_loose (fun line hline => List.mem_takeWhile_imp hline) [text]
    change (lines.foldl Blocks.readLine ⟨blocks, [], [text]⟩).finish = _
    conv_lhs => rw [← List.takeWhile_append_dropWhile (p := Line.isLoose) (l := lines)]
    rw [List.foldl_append, hloose, ← foldl_flushPara hrest]
    rfl
  | case5 indent text lines ih =>
    rw [sourceBlocks, List.foldl_cons, List.map_cons, List.append_cons, ← ih]
    have hrest := head_dropWhile Line.inList lines
    have hrun : (lines.takeWhile Line.inList).foldl Blocks.readLine ⟨blocks, [(indent, text)], []⟩ =
        ⟨blocks, bulletsOf (.bullet indent text :: lines.takeWhile Line.inList), []⟩ :=
      foldl_bullets (fun line hline => List.mem_takeWhile_imp hline) [] indent text
    have hne : bulletsOf (.bullet indent text :: lines.takeWhile Line.inList) ≠ [] := by
      rw [bulletsOf_bullet]
      exact List.cons_ne_nil _ _
    change (lines.foldl Blocks.readLine ⟨blocks, [(indent, text)], []⟩).finish = _
    conv_lhs => rw [← List.takeWhile_append_dropWhile (p := Line.inList) (l := lines)]
    rw [List.foldl_append, hrun, ← foldl_flushList hrest rfl, flushList_blocks hne]

end Loop

/-! ## What is kept -/

theorem parseBlocks_blocks (notes : Text) : parseBlocks notes = (sourceOf notes).map SourceBlock.block := by
  rw [parseBlocks_eq, finish_foldl]
  rfl

/-- No bullet of a list is indented less than its first. -/
def NoOutdent (notes : Text) : Prop :=
  ∀ items, .bullets items ∈ sourceOf notes → ∀ item ∈ items, baseOf items ≤ item.1

def elementsOf (blocks : List Block) : List Element := blocks.flatMap Block.elements

theorem elements_block (block : SourceBlock) : block.block.elements <+: block.elements := by
  cases block with
  | bullets items =>
    change (textsOf (buildLevel items (baseOf items)).1.1).map Element.bullet <+: _
    rw [(buildLevel_spec items (baseOf items)).1, List.map_map]
    exact (List.takeWhile_prefix _).map _
  | _ => exact List.prefix_rfl

theorem elements_block_iff (block : SourceBlock) :
    block.block.elements = block.elements ↔
      ∀ items, .bullets items = block → ∀ item ∈ items, baseOf items ≤ item.1 := by
  cases block with
  | bullets items =>
    change (textsOf (buildLevel items (baseOf items)).1.1).map Element.bullet = items.map _ ↔ _
    rw [(buildLevel_spec items (baseOf items)).1, List.map_map]
    constructor
    · intro h items' heq
      obtain rfl := SourceBlock.bullets.inj heq
      have hlen := congrArg List.length h
      rw [List.length_map, List.length_map] at hlen
      have hall : items'.takeWhile (atLeast (baseOf items')) = items' :=
        (List.takeWhile_prefix _).eq_of_length hlen
      exact fun item hitem => of_decide_eq_true (List.takeWhile_eq_self_iff.1 hall item hitem)
    · intro h
      have hall : items.takeWhile (atLeast (baseOf items)) = items :=
        List.takeWhile_eq_self_iff.2 fun item hitem => decide_eq_true (h items rfl item hitem)
      rw [hall]
      rfl
  | _ => exact iff_of_true rfl (fun items heq => by cases heq)

/-- Where each part is a beginning of its counterpart, the whole is the same only if every part is. -/
theorem flatMap_eq_iff {α β : Type} {f g : α → List β} (h : ∀ x, f x <+: g x) (l : List α) :
    l.flatMap f = l.flatMap g ↔ ∀ x ∈ l, f x = g x := by
  have hlen : ∀ l : List α, (l.flatMap f).length ≤ (l.flatMap g).length := by
    intro l
    induction l with
    | nil => exact le_rfl
    | cons x l ih =>
      rw [List.flatMap_cons, List.flatMap_cons, List.length_append, List.length_append]
      exact Nat.add_le_add (h x).length_le ih
  induction l with
  | nil => simp
  | cons x l ih =>
    rw [List.flatMap_cons, List.flatMap_cons, List.forall_mem_cons]
    constructor
    · intro heq
      have hsum := congrArg List.length heq
      rw [List.length_append, List.length_append] at hsum
      have hx := (h x).length_le
      have hl := hlen l
      have heqx : f x = g x := (h x).eq_of_length (by omega)
      refine ⟨heqx, ih.1 ?_⟩
      rw [heqx] at heq
      exact List.append_cancel_left heq
    · rintro ⟨hx, hl⟩
      rw [hx, ih.2 hl]

/-- The blocks hold the headings, bullets and paragraphs of the notes, each once and in order, if and only
    if no bullet is indented less than the first of its list. -/
theorem elements_parseBlocks_iff (notes : Text) :
    elementsOf (parseBlocks notes) = (sourceOf notes).flatMap SourceBlock.elements ↔ NoOutdent notes := by
  rw [parseBlocks_blocks, elementsOf, List.flatMap_map,
    flatMap_eq_iff (f := fun block => block.block.elements) (g := SourceBlock.elements) elements_block]
  constructor
  · intro h items hitems
    exact (elements_block_iff _).1 (h _ hitems) items rfl
  · intro h block hblock
    refine (elements_block_iff block).2 fun items heq => ?_
    subst heq
    exact h items hblock

end Changelog
