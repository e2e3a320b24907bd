import AzAppToolkit.Changelog.Blocks

set_option autoImplicit false

/-! # What the inline text holds

Written back with their markers, the nodes are the text that was scanned, as long as the scan meets no link
whose target is not `https`; and such a link is no node. -/

namespace Changelog

/-- A node with its markers. -/
def Inline.write : Inline → Text
  | .text t => t
  | .bold t => Marker.bold.text ++ t ++ Marker.bold.text
  | .code t => Marker.code.text ++ t ++ Marker.code.text
  | .link label href => Marker.link.text ++ label ++ "](".toList ++ href ++ ")".toList

def writeBack (nodes : List Inline) : Text := nodes.flatMap Inline.write

/-- The scan of the one text comes to the other. -/
inductive Scans (s : Text) : Text → Prop
  | start : Scans s s
  | next {rest before inner : Text} {m : Marker} (h : Scans s rest)
      (hfound : earliest rest = some (before, m, inner)) : Scans s (readMarker m inner).2

/-- Behind the `[` stands a link, and not to `https`. -/
def RefusedLink (inner : Text) : Prop :=
  ∃ label href rest, parseLink inner = some (label, href, rest) ∧ isAllowedHref href = false

/-- The scan meets a link whose target is not `https`. -/
def MeetsRefused (s : Text) : Prop :=
  ∃ rest before inner, Scans s rest ∧ earliest rest = some (before, .link, inner) ∧ RefusedLink inner

/-- What is read, as it is written back. -/
def written (r : Text ⊕ Inline) : Text := r.elim id Inline.write

theorem written_readMarker (m : Marker) (inner : Text) (h : m = .link → ¬ RefusedLink inner) :
    written (readMarker m inner).1 ++ (readMarker m inner).2 = m.text ++ inner := by
  unfold readMarker
  cases m with
  | code | bold =>
    dsimp only
    split
    · next hfound => rw [eq_of_breakOn hfound]; simp [written, Inline.write]
    · rfl
  | link =>
    dsimp only
    split
    · next label href rest hfound =>
      split
      · rw [eq_of_parseLink hfound]
        simp [written, Inline.write]
      · next hrefused => exact absurd ⟨label, href, rest, hfound, Bool.eq_false_iff.2 hrefused⟩ (h rfl)
    · rfl

theorem writeBack_flushText (out : List Inline) (text : Text) :
    writeBack (flushText out text) = writeBack out ++ text := by
  unfold flushText
  split
  · next hnil =>
    rw [List.isEmpty_iff.1 hnil]
    exact (List.append_nil _).symm
  · simp [writeBack, Inline.write]

/-! ## The scan -/

section Scan

variable {out : List Inline} {text rest before inner literal : Text} {m : Marker} {node : Inline}

theorem parseFrom_end (h : earliest rest = none) : parseFrom out text rest = flushText out (text ++ rest) := by
  rw [parseFrom]
  split
  · rfl
  · next hsome =>
    rw [h] at hsome
    cases hsome

theorem parseFrom_literal (h : earliest rest = some (before, m, inner))
    (hread : (readMarker m inner).1 = .inl literal) :
    parseFrom out text rest = parseFrom out (text ++ before ++ literal) (readMarker m inner).2 := by
  rw [parseFrom]
  split
  · next hnone =>
    rw [h] at hnone
    cases hnone
  · next hsome =>
    rw [h] at hsome
    cases hsome
    rw [hread]

theorem parseFrom_node (h : earliest rest = some (before, m, inner))
    (hread : (readMarker m inner).1 = .inr node) :
    parseFrom out text rest =
      parseFrom (flushText out (text ++ before) ++ [node]) [] (readMarker m inner).2 := by
  rw [parseFrom]
  split
  · next hnone =>
    rw [h] at hnone
    cases hnone
  · next hsome =>
    rw [h] at hsome
    cases hsome
    rw [hread]

/-- A scan that has come to `rest` writes back what it has, and `rest`. -/
theorem writeBack_parseFrom {s : Text} (hclean : ¬ MeetsRefused s) (out : List Inline) (text rest : Text)
    (hscans : Scans s rest) : writeBack (parseFrom out text rest) = writeBack out ++ text ++ rest := by
  have hwritten : ∀ {rest before inner : Text} {m : Marker}, Scans s rest →
      earliest rest = some (before, m, inner) →
      written (readMarker m inner).1 ++ (readMarker m inner).2 = m.text ++ inner := by
    intro rest before inner m hscans hfound
    refine written_readMarker m inner fun hlink hrefused => hclean ?_
    subst hlink
    exact ⟨rest, before, inner, hscans, hfound, hrefused⟩
  induction out, text, rest using parseFrom.induct with
  | case1 out text rest hnone =>
    rw [parseFrom_end hnone, writeBack_flushText, List.append_assoc]
  | case2 out text rest before m inner hfound hless literal hread ih =>
    have hpiece := hwritten hscans hfound
    rw [hread] at hpiece
    rw [parseFrom_literal hfound hread, ih (hscans.next hfound), eq_of_earliest hfound]
    simp only [List.append_assoc, ← hpiece]
    rfl
  | case3 out text rest before m inner hfound hless node hread ih =>
    have hpiece := hwritten hscans hfound
    rw [hread] at hpiece
    rw [parseFrom_node hfound hread, ih (hscans.next hfound), eq_of_earliest hfound, writeBack,
      List.flatMap_append, ← writeBack, writeBack_flushText]
    simp only [List.append_assoc, ← hpiece, List.flatMap_singleton, List.nil_append]
    rfl

theorem writeBack_parseInline {s : Text} (hclean : ¬ MeetsRefused s) : writeBack (parseInline s) = s :=
  writeBack_parseFrom hclean [] [] s .start

/-! ## Links -/

/-- The target of a link, if the node is one. -/
def Inline.href? : Inline → Option Text
  | .link _ href => some href
  | _ => none

theorem href_readMarker (hread : (readMarker m inner).1 = .inr node) :
    ∀ href ∈ node.href?, isAllowedHref href = true := by
  unfold readMarker at hread
  cases m with
  | code | bold =>
    dsimp only at hread
    split at hread
    · obtain rfl := Sum.inr.inj hread
      exact nofun
    · cases hread
  | link =>
    dsimp only at hread
    split at hread
    · split at hread
      · next hallowed =>
        obtain rfl := Sum.inr.inj hread
        intro href hhref
        obtain rfl := Option.some.inj hhref
        exact hallowed
      · cases hread
    · cases hread

theorem mem_flushText {node : Inline} (h : node ∈ flushText out text) : node ∈ out ∨ node = .text text := by
  unfold flushText at h
  split at h
  · exact .inl h
  · simpa using h

theorem href_parseFrom (out : List Inline) (text rest : Text)
    (hout : ∀ node ∈ out, ∀ href ∈ node.href?, isAllowedHref href = true) :
    ∀ node ∈ parseFrom out text rest, ∀ href ∈ node.href?, isAllowedHref href = true := by
  have hflush : ∀ {out : List Inline} {text : Text},
      (∀ node ∈ out, ∀ href ∈ node.href?, isAllowedHref href = true) →
      ∀ node ∈ flushText out text, ∀ href ∈ node.href?, isAllowedHref href = true := by
    intro out text hout node hnode
    rcases mem_flushText hnode with hnode | rfl
    · exact hout node hnode
    · exact nofun
  induction out, text, rest using parseFrom.induct with
  | case1 out text rest hnone =>
    rw [parseFrom_end hnone]
    exact hflush hout
  | case2 out text rest before m inner hfound hless literal hread ih =>
    rw [parseFrom_literal hfound hread]
    exact ih hout
  | case3 out text rest before m inner hfound hless node hread ih =>
    rw [parseFrom_node hfound hread]
    refine ih fun node' hnode' => ?_
    rcases List.mem_append.1 hnode' with hnode' | hnode'
    · exact hflush hout node' hnode'
    · rw [List.mem_singleton.1 hnode']
      exact href_readMarker hread

end Scan

/-! ## The whole -/

/-- The blocks hold what the notes say, each once and in order, if and only if no bullet is indented less
    than the first of its list; the nodes of a text without a link elsewhere than to `https` are the text;
    and no link leads elsewhere. -/
theorem notes_kept_iff (notes s : Text) :
    (elementsOf (parseBlocks notes) = (sourceOf notes).flatMap SourceBlock.elements ↔ NoOutdent notes) ∧
      (¬ MeetsRefused s → writeBack (parseInline s) = s) ∧
      ∀ label href, .link label href ∈ parseInline s → "https://".toList <+: href :=
  ⟨elements_parseBlocks_iff notes, writeBack_parseInline, fun _ href hlink => List.isPrefixOf_iff_prefix.1
    (href_parseFrom [] [] s (fun _ hnode => absurd hnode List.not_mem_nil) _ hlink href rfl)⟩

/-! ## Texts that can be looked at -/

/-- A bold word, and behind it a link. -/
def linked : Text := "**a** [b](https://c)".toList

theorem earliest_linked : earliest linked = some ([], .bold, "a** [b](https://c)".toList) := rfl

theorem earliest_link : earliest " [b](https://c)".toList = some ([' '], .link, "b](https://c)".toList) := rfl

theorem scans_linked {rest : Text} (h : Scans linked rest) :
    rest = linked ∨ rest = " [b](https://c)".toList ∨ rest = [] := by
  induction h with
  | start => exact .inl rfl
  | next h hfound ih =>
    rcases ih with rfl | rfl | rfl
    · cases earliest_linked.symm.trans hfound
      exact .inr (.inl rfl)
    · cases earliest_link.symm.trans hfound
      exact .inr (.inr rfl)
    · cases hfound

theorem not_meetsRefused_linked : ¬ MeetsRefused linked := by
  rintro ⟨rest, before, inner, hscans, hfound, label, href, rest', hparse, hrefused⟩
  rcases scans_linked hscans with rfl | rfl | rfl
  · cases earliest_linked.symm.trans hfound
  · cases earliest_link.symm.trans hfound
    cases hparse
    exact absurd hrefused (by decide)
  · cases hfound

theorem notes_kept_iff_linked : writeBack (parseInline linked) = linked :=
  (notes_kept_iff [] linked).2.1 not_meetsRefused_linked

def outdented : Text := "  - first\n- second".toList

/-- The second bullet is indented less than the first, and is lost. -/
theorem outdented_bullet_lost :
    elementsOf (parseBlocks outdented) = [.bullet "first".toList] ∧
      elementsOf (parseBlocks outdented) ≠ (sourceOf outdented).flatMap SourceBlock.elements := by
  have hlines : (linesOf outdented).map Line.of =
      [.bullet 2 "first".toList, .bullet 0 "second".toList] := by
    rfl
  have hsource : sourceOf outdented = [.bullets [(2, "first".toList), (0, "second".toList)]] := by
    unfold sourceOf
    rw [hlines, sourceBlocks]
    simp only [List.takeWhile, List.dropWhile, Line.inList]
    rw [bulletsOf_bullet, sourceBlocks]
    simp only [List.takeWhile, List.dropWhile, Line.isLoose]
    rw [bulletsOf_bullet]
    simp only [List.takeWhile, List.dropWhile, bulletsOf]
    rfl
  have hblocks : elementsOf (parseBlocks outdented) = [.bullet "first".toList] := by
    rw [parseBlocks_blocks, hsource]
    change ((textsOf (buildLevel [(2, "first".toList), (0, "second".toList)] 2).1.1).map Element.bullet) ++ [] = _
    rw [(buildLevel_spec _ _).1]
    rfl
  refine ⟨hblocks, ?_⟩
  rw [hblocks, hsource]
  decide

end Changelog
