import AzAppToolkit.Sharepoint.ItemScopes

set_option autoImplicit false

/-! # What is recorded stays recorded

A tag and the scope it is of determine each other. Over every run of the calls that share the table of
gates, whatever tenant is forgotten and whatever gates are swept in between, a scope that was recorded is
listed until it is forgotten, and no other tag of the application is touched. -/

namespace Sharepoint

open Tester (SelectedScopeLevel isGuid)
open Slices (byteLength)

/-! ## Characters -/

/-- The characters of the ids that go into a Graph path. -/
def isIdChar (c : Char) : Bool := isHostChar c || c == ','

theorem isHostChar_of_isGuid {s : Text} (h : isGuid s = true) : ∀ c ∈ s, isHostChar c = true := by
  intro c hc
  obtain ⟨i, hi⟩ := List.mem_iff_getElem?.1 hc
  have hall := List.all_eq_true.1 (Bool.and_eq_true_iff.1 h).2 (c, i) (List.mk_mem_zipIdx_iff_getElem?.2 hi)
  unfold isHostChar
  simp only [Bool.or_eq_true, beq_iff_eq, Char.isAlphanum, Char.isAlpha, Char.isLower, Char.isUpper,
    Bool.and_eq_true, decide_eq_true_eq] at hall ⊢
  split at hall
  · exact .inr (by simpa using hall)
  · refine .inl (.inl ?_)
    simp only [Bool.or_eq_true, Bool.and_eq_true, decide_eq_true_eq] at hall
    rcases hall with (hdigit | ⟨hlow, hhigh⟩) | ⟨hlow, hhigh⟩
    · exact .inr hdigit
    · exact .inl (.inr ⟨hlow, le_trans hhigh (by decide)⟩)
    · exact .inl (.inl ⟨hlow, le_trans hhigh (by decide)⟩)

theorem isHostChar_of_isDigit {c : Char} (h : c.isDigit = true) : isHostChar c = true := by
  simp [isHostChar, Char.isAlphanum, h]

theorem isIdChar_of_isHostChar {c : Char} (h : isHostChar c = true) : isIdChar c = true := by
  simp [isIdChar, h]

theorem isIdChar_of_isSiteId {siteId : Text} (h : isSiteId siteId = true) :
    ∀ c ∈ siteId, isIdChar c = true := by
  have hjoin := Cuts.join_splitOn ',' siteId
  unfold isSiteId at h
  split at h
  · next host collection web hparts =>
    rw [hparts] at hjoin
    simp only [Bool.and_eq_true, List.all_eq_true] at h
    obtain ⟨⟨⟨-, hhost⟩, hcollection⟩, hweb⟩ := h
    intro c hc
    rw [← hjoin] at hc
    simp only [Text.join, List.intercalate, List.intersperse, List.flatten_cons, List.flatten_nil,
      List.append_nil, List.mem_append, List.mem_singleton] at hc
    rcases hc with hc | rfl | hc | rfl | hc
    · exact isIdChar_of_isHostChar (hhost c hc)
    · rfl
    · exact isIdChar_of_isHostChar (isHostChar_of_isGuid hcollection c hc)
    · rfl
    · exact isIdChar_of_isHostChar (isHostChar_of_isGuid hweb c hc)
  · exact Bool.noConfusion h

variable {scope : ItemScopeRef}

/-- No id of a valid scope leaves its segment of a path. -/
theorem isIdChar_of_isValidScope (h : isValidScope scope = true) :
    ∀ c ∈ scope.siteId ++ scope.listId ++ scope.itemId.getD [], isIdChar c = true := by
  unfold isValidScope at h
  simp only [Bool.and_eq_true] at h
  obtain ⟨⟨hitem, hsite⟩, hlist⟩ := h
  intro c hc
  rcases List.mem_append.1 hc with hc | hc
  · rcases List.mem_append.1 hc with hc | hc
    · exact isIdChar_of_isSiteId hsite c hc
    · exact isIdChar_of_isHostChar (isHostChar_of_isGuid hlist c hc)
  · cases hid : scope.itemId with
    | none =>
      rw [hid] at hc
      exact nomatch hc
    | some item =>
      rw [hid] at hc hitem
      refine isIdChar_of_isHostChar (isHostChar_of_isDigit ?_)
      unfold isItemOk at hitem
      cases hlevel : scope.level <;> rw [hlevel] at hitem <;>
        simp only [Bool.and_eq_true, List.all_eq_true, Bool.false_eq_true] at hitem
      · exact hitem.2 c hc
      · exact hitem.2 c hc

/-! ## The codec of a tag -/

theorem stripPrefix_eq_some {start s rest : Text} : stripPrefix start s = some rest ↔ s = start ++ rest := by
  unfold stripPrefix
  split
  · next h =>
    obtain ⟨t, rfl⟩ := List.isPrefixOf_iff_prefix.1 h
    rw [List.drop_left]
    constructor
    · intro h
      rw [Option.some.inj h]
    · intro h
      rw [List.append_cancel_left h]
  · next h =>
    constructor
    · intro h
      cases h
    · rintro rfl
      exact absurd (List.isPrefixOf_iff_prefix.2 (List.prefix_append start rest)) h

theorem parseLevel_eq_some {code : Text} {level : SelectedScopeLevel} :
    parseLevel code = some level ↔ levelCode level = some code := by
  unfold parseLevel
  constructor
  · intro h
    split at h
    · next hcode =>
      obtain rfl := Option.some.inj h
      exact congrArg some hcode.symm
    · split at h
      · next hcode =>
        obtain rfl := Option.some.inj h
        exact congrArg some hcode.symm
      · split at h
        · next hcode =>
          obtain rfl := Option.some.inj h
          exact congrArg some hcode.symm
        · cases h
  · intro h
    cases level with
    | site => cases h
    | list | listItem | file =>
      obtain rfl := Option.some.inj h
      rfl

theorem scopeOfParts_eq_some {code siteId listId : Text} {itemId : Option Text} :
    scopeOfParts code siteId listId itemId = some scope ↔
      levelCode scope.level = some code ∧ scope.siteId = siteId ∧ scope.listId = listId ∧
        scope.itemId = itemId ∧ isValidScope scope = true := by
  unfold scopeOfParts
  constructor
  · intro h
    cases hlevel : parseLevel code with
    | none =>
      rw [hlevel] at h
      cases h
    | some level =>
      rw [hlevel] at h
      dsimp only at h
      split at h
      · next hvalid =>
        obtain rfl := Option.some.inj h
        exact ⟨parseLevel_eq_some.1 hlevel, rfl, rfl, rfl, hvalid⟩
      · cases h
  · rintro ⟨hlevel, rfl, rfl, rfl, hvalid⟩
    rw [parseLevel_eq_some.2 hlevel]
    exact if_pos hvalid

theorem bar_of_isIdChar {s : Text} (h : ∀ c ∈ s, isIdChar c = true) : '|' ∉ s :=
  fun hbar => absurd (h '|' hbar) (by decide)

theorem bar_of_levelCode {level : SelectedScopeLevel} {code : Text} (h : levelCode level = some code) :
    '|' ∉ code := by
  cases level with
  | site => cases h
  | list | listItem | file =>
    obtain rfl := Option.some.inj h
    decide

theorem splitOn_tagParts {code : Text} (hcode : levelCode scope.level = some code)
    (hvalid : isValidScope scope = true) :
    Text.splitOn (· == '|') (Text.join ['|'] (tagParts code scope)) = tagParts code scope := by
  have hids := isIdChar_of_isValidScope hvalid
  have hsite : '|' ∉ scope.siteId :=
    bar_of_isIdChar fun c hc => hids c (List.mem_append_left _ (List.mem_append_left _ hc))
  have hlist : '|' ∉ scope.listId :=
    bar_of_isIdChar fun c hc => hids c (List.mem_append_left _ (List.mem_append_right _ hc))
  refine Cuts.splitOn_join ?_ ?_
  · intro part hpart
    unfold tagParts at hpart
    cases hitem : scope.itemId with
    | none =>
      rw [hitem] at hpart
      simp only [List.mem_cons, List.not_mem_nil, or_false] at hpart
      rcases hpart with rfl | rfl | rfl
      · exact bar_of_levelCode hcode
      · exact hsite
      · exact hlist
    | some item =>
      rw [hitem] at hpart hids
      simp only [List.mem_cons, List.not_mem_nil, or_false] at hpart
      rcases hpart with rfl | rfl | rfl | rfl
      · exact bar_of_levelCode hcode
      · exact hsite
      · exact hlist
      · exact bar_of_isIdChar fun c hc => hids c (List.mem_append_right _ hc)
  · unfold tagParts
    split <;> exact List.cons_ne_nil _ _

theorem decodeV1_join {body : Text} :
    decodeV1 (tagV1 ++ body) = some scope ↔ ∃ code, levelCode scope.level = some code ∧
      isValidScope scope = true ∧ body = Text.join ['|'] (tagParts code scope) := by
  unfold decodeV1
  rw [stripPrefix_eq_some.2 rfl]
  dsimp only
  constructor
  · intro h
    have hjoin := Cuts.join_splitOn '|' body
    split at h
    · next level siteId listId hparts =>
      obtain ⟨hlevel, rfl, rfl, hitem, hvalid⟩ := scopeOfParts_eq_some.1 h
      refine ⟨level, hlevel, hvalid, ?_⟩
      rw [← hjoin, hparts, tagParts, hitem]
    · next level siteId listId itemId hparts =>
      obtain ⟨hlevel, rfl, rfl, hitem, hvalid⟩ := scopeOfParts_eq_some.1 h
      refine ⟨level, hlevel, hvalid, ?_⟩
      rw [← hjoin, hparts, tagParts, hitem]
    · cases h
  · rintro ⟨code, hcode, hvalid, rfl⟩
    rw [splitOn_tagParts hcode hvalid, tagParts]
    cases hitem : scope.itemId with
    | none | some item => exact scopeOfParts_eq_some.2 ⟨hcode, rfl, rfl, hitem, hvalid⟩

theorem decodeTag_eq_some {tag : Text} :
    decodeTag tag = some (some scope) ↔ ∃ code, levelCode scope.level = some code ∧
      isValidScope scope = true ∧ tag = tagFamily ++ tagV1 ++ Text.join ['|'] (tagParts code scope) := by
  unfold decodeTag
  rw [Option.map_eq_some_iff]
  constructor
  · rintro ⟨rest, hrest, hdecode⟩
    have htag := stripPrefix_eq_some.1 hrest
    cases hbody : stripPrefix tagV1 rest with
    | none =>
      unfold decodeV1 at hdecode
      rw [hbody] at hdecode
      cases hdecode
    | some body =>
      obtain rfl := stripPrefix_eq_some.1 hbody
      obtain ⟨code, hcode, hvalid, rfl⟩ := decodeV1_join.1 hdecode
      exact ⟨code, hcode, hvalid, by rw [htag, List.append_assoc]⟩
  · rintro ⟨code, hcode, hvalid, rfl⟩
    refine ⟨tagV1 ++ Text.join ['|'] (tagParts code scope),
      stripPrefix_eq_some.2 (List.append_assoc _ _ _), ?_⟩
    exact decodeV1_join.2 ⟨code, hcode, hvalid, rfl⟩

theorem encodeTag_eq_some {tag : Text} :
    encodeTag scope = some tag ↔ decodeTag tag = some (some scope) ∧ byteLength tag ≤ maxTagLen := by
  rw [decodeTag_eq_some]
  unfold encodeTag
  constructor
  · intro h
    split at h
    · next hvalid =>
      cases hcode : levelCode scope.level with
      | none =>
        rw [hcode] at h
        cases h
      | some code =>
        rw [hcode] at h
        dsimp only at h
        split at h
        · next hlen =>
          obtain rfl := Option.some.inj h
          exact ⟨⟨code, rfl, hvalid, rfl⟩, hlen⟩
        · cases h
    · cases h
  · rintro ⟨⟨code, hcode, hvalid, rfl⟩, hlen⟩
    rw [if_pos hvalid, hcode]
    exact if_pos hlen

/-- What is written for a scope reads back as that scope, a tag that reads as a scope is the one that is
written for it, unless no tag may be so long, and what is read is safe in a path. -/
theorem tag_codec (tag : Text) (scope : ItemScopeRef) :
    (encodeTag scope = some tag ↔ decodeTag tag = some (some scope) ∧ byteLength tag ≤ maxTagLen) ∧
      (decodeTag tag = some (some scope) → isValidScope scope = true ∧
        ∀ c ∈ scope.siteId ++ scope.listId ++ scope.itemId.getD [], isIdChar c = true) := by
  refine ⟨encodeTag_eq_some, fun h => ?_⟩
  obtain ⟨code, -, hvalid, -⟩ := decodeTag_eq_some.1 h
  exact ⟨hvalid, isIdChar_of_isValidScope hvalid⟩

theorem scopeOfTag_eq_some {tag : Text} :
    scopeOfTag tag = some scope ↔ decodeTag tag = some (some scope) := by
  unfold scopeOfTag
  exact Option.join_eq_some_iff

theorem scopeOfTag_encodeTag {tag : Text} (h : encodeTag scope = some tag) :
    scopeOfTag tag = some scope := scopeOfTag_eq_some.2 (encodeTag_eq_some.1 h).1

/-! ## What a writer changes -/

variable {scopes : List ItemScopeRef}

theorem mem_wantedOf {tag : Text} :
    tag ∈ wantedOf scopes ↔ ∃ scope ∈ scopes, encodeTag scope = some tag := List.mem_filterMap

theorem pushTag_cases (tags : List Text) (tag : Text) :
    pushTag tags tag = tags ∧ tag ∈ tags ∨ pushTag tags tag = tags ++ [tag] := by
  unfold pushTag
  split
  · next h => exact .inl ⟨rfl, List.contains_iff_mem.1 h⟩
  · exact .inr rfl

/-- What is pushed is put behind, and is of what is wanted. -/
theorem foldl_pushTag (wanted tags : List Text) : ∃ more, wanted.foldl pushTag tags = tags ++ more ∧
    (∀ tag ∈ more, tag ∈ wanted) ∧ ∀ tag ∈ wanted, tag ∈ tags ++ more := by
  induction wanted generalizing tags with
  | nil => exact ⟨[], (List.append_nil tags).symm, fun tag h => absurd h List.not_mem_nil,
      fun tag h => absurd h List.not_mem_nil⟩
  | cons tag wanted ih =>
    obtain ⟨more, hfold, hsub, hall⟩ := ih (pushTag tags tag)
    rw [List.foldl_cons]
    rcases pushTag_cases tags tag with ⟨hpush, hmem⟩ | hpush
    · rw [hpush] at hfold hall ⊢
      refine ⟨more, hfold, fun t ht => List.mem_cons_of_mem tag (hsub t ht), fun t ht => ?_⟩
      rcases List.mem_cons.1 ht with rfl | ht
      · exact List.mem_append_left more hmem
      · exact hall t ht
    · rw [hpush] at hfold hall ⊢
      rw [List.append_assoc] at hfold hall
      refine ⟨[tag] ++ more, hfold, fun t ht => ?_, fun t ht => ?_⟩
      · rcases List.mem_append.1 ht with ht | ht
        · rw [List.mem_singleton.1 ht]
          exact List.mem_cons_self
        · exact List.mem_cons_of_mem tag (hsub t ht)
      · rcases List.mem_cons.1 ht with rfl | ht
        · exact List.mem_append_right tags (List.mem_append_left more (List.mem_singleton_self t))
        · exact hall t ht

/-- What a call makes of the tags of an application. -/
def GateCall.change (object : Text × Text) (tags : List Text) : GateCall → List Text
  | .remember object' scopes => if object' = object then (wantedOf scopes).foldl pushTag tags else tags
  | .forget object' scope =>
    if object' = object then tags.filter (fun tag => scopeOfTag tag ≠ some scope) else tags
  | .fetch _ => tags

theorem rememberEdit_getD (scopes : List ItemScopeRef) (tags : List Text) :
    (rememberEdit scopes tags).getD tags = (wantedOf scopes).foldl pushTag tags := by
  unfold rememberEdit
  dsimp only
  split
  · exact Option.getD_some
  · next hlen =>
    -- nothing was put behind
    obtain ⟨more, hfold, -⟩ := foldl_pushTag (wantedOf scopes) tags
    rw [hfold, List.length_append] at hlen
    have hmore : more.length = 0 := by omega
    rw [hfold, List.length_eq_zero_iff.1 hmore, List.append_nil, Option.getD_none]

theorem forgetEdit_getD (scope : ItemScopeRef) (tags : List Text) :
    (forgetEdit scope tags).getD tags = tags.filter (fun tag => scopeOfTag tag ≠ some scope) := by
  unfold forgetEdit
  dsimp only
  split
  · exact Option.getD_some
  · next hlen => exact ((List.filter_sublist).eq_of_length (not_not.1 hlen)).symm

theorem applyCall_eq_change (entries : List TagEntry) (object : Text × Text)
    (tags : List Text) {i : Nat} {e : TagEntry} (he : entries[i]? = some e) :
    Gates.applyCall gateCalls entries object tags i = e.call.change object tags := by
  unfold Gates.applyCall
  rw [he, Option.bind_some]
  cases hcall : e.call with
  | remember object' scopes =>
    by_cases hempty : (wantedOf scopes).isEmpty = true
    · have hwork : gateCalls.work (.remember object' scopes) = none := if_pos hempty
      rw [hwork, GateCall.change, List.isEmpty_iff.1 hempty, List.foldl_nil, ite_self]
    · have hwork : gateCalls.work (.remember object' scopes) = some (object', rememberEdit scopes) :=
        if_neg hempty
      rw [hwork]
      dsimp only
      rw [GateCall.change, rememberEdit_getD]
  | forget object' scope =>
    change (if object' = object then (forgetEdit scope tags).getD tags else tags) = _
    rw [forgetEdit_getD]
    rfl
  | fetch key => rfl

/-- The scope has a tag. -/
def Recorded (scope : ItemScopeRef) (tags : List Text) : Prop := ∃ tag ∈ tags, scopeOfTag tag = some scope

theorem recorded_remember {tags : List Text} :
    Recorded scope ((wantedOf scopes).foldl pushTag tags) ↔
      Recorded scope tags ∨ scope ∈ scopes ∧ (encodeTag scope).isSome = true := by
  obtain ⟨more, hfold, hsub, hall⟩ := foldl_pushTag (wantedOf scopes) tags
  rw [hfold]
  constructor
  · rintro ⟨tag, htag, hscope⟩
    rcases List.mem_append.1 htag with htag | htag
    · exact .inl ⟨tag, htag, hscope⟩
    · obtain ⟨scope', hscopes, hencode⟩ := mem_wantedOf.1 (hsub tag htag)
      obtain rfl := Option.some.inj (hscope.symm.trans (scopeOfTag_encodeTag hencode))
      exact .inr ⟨hscopes, Option.isSome_iff_exists.2 ⟨tag, hencode⟩⟩
  · rintro (⟨tag, htag, hscope⟩ | ⟨hscopes, hencode⟩)
    · exact ⟨tag, List.mem_append_left more htag, hscope⟩
    · obtain ⟨tag, hencode⟩ := Option.isSome_iff_exists.1 hencode
      exact ⟨tag, hall tag (mem_wantedOf.2 ⟨scope, hscopes, hencode⟩), scopeOfTag_encodeTag hencode⟩

theorem recorded_forget {scope scope' : ItemScopeRef} {tags : List Text} :
    Recorded scope (tags.filter (fun tag => scopeOfTag tag ≠ some scope')) ↔
      Recorded scope tags ∧ scope ≠ scope' := by
  constructor
  · rintro ⟨tag, htag, hscope⟩
    obtain ⟨htag, hkept⟩ := List.mem_filter.1 htag
    refine ⟨⟨tag, htag, hscope⟩, ?_⟩
    rintro rfl
    exact of_decide_eq_true hkept hscope
  · rintro ⟨⟨tag, htag, hscope⟩, hne⟩
    refine ⟨tag, List.mem_filter.2 ⟨htag, decide_eq_true fun h => hne ?_⟩, hscope⟩
    exact Option.some.inj (hscope.symm.trans h)

/-- The tags of no scope stay as they are, in their order. -/
theorem change_unread (call : GateCall) (object : Text × Text) (tags : List Text) :
    (call.change object tags).filter (fun tag => (scopeOfTag tag).isNone) =
      tags.filter (fun tag => (scopeOfTag tag).isNone) := by
  cases call with
  | remember object' scopes =>
    rw [GateCall.change]
    split
    · obtain ⟨more, hfold, hsub, -⟩ := foldl_pushTag (wantedOf scopes) tags
      have hmore : more.filter (fun tag => (scopeOfTag tag).isNone) = [] := by
        refine List.filter_eq_nil_iff.2 fun tag htag hnone => ?_
        obtain ⟨scope, -, hencode⟩ := mem_wantedOf.1 (hsub tag htag)
        rw [scopeOfTag_encodeTag hencode] at hnone
        exact Bool.noConfusion hnone
      rw [hfold, List.filter_append, hmore, List.append_nil]
    · rfl
  | forget object' scope =>
    rw [GateCall.change]
    split
    · rw [List.filter_filter]
      refine List.filter_congr fun tag _ => ?_
      cases scopeOfTag tag <;> simp
    · rfl
  | fetch key => rfl

/-! ## The list -/

theorem foldl_readTag (tags : List Text) (read : Nat × List ItemScopeRef) :
    (∀ scope, scope ∈ (tags.foldl readTag read).2 ↔ scope ∈ read.2 ∨ Recorded scope tags) ∧
      (read.2.Nodup → (tags.foldl readTag read).2.Nodup) := by
  induction tags generalizing read with
  | nil =>
    refine ⟨fun scope => ?_, fun h => h⟩
    exact (or_iff_left fun ⟨tag, htag, _⟩ => by cases htag).symm
  | cons tag tags ih =>
    obtain ⟨hmem, hnodup⟩ := ih (readTag read tag)
    have hread : (∀ scope, scope ∈ (readTag read tag).2 ↔ scope ∈ read.2 ∨ scopeOfTag tag = some scope) ∧
        (read.2.Nodup → (readTag read tag).2.Nodup) := by
      unfold readTag scopeOfTag
      cases hdecode : decodeTag tag with
      | none => simp
      | some read' =>
        cases read' with
        | none => simp
        | some scope' =>
          dsimp only
          split
          · next hseen =>
            refine ⟨fun scope => ?_, fun h => h⟩
            simp only [Option.join_some, Option.some.injEq]
            refine (or_iff_left_of_imp ?_).symm
            rintro rfl
            exact List.contains_iff_mem.1 hseen
          · next hnew =>
            refine ⟨fun scope => ?_, fun h => ?_⟩
            · simp [eq_comm]
            · refine List.nodup_append.2 ⟨h, List.nodup_singleton scope', ?_⟩
              rintro a ha b hb rfl
              rw [List.mem_singleton.1 hb] at ha
              exact hnew (List.contains_iff_mem.2 ha)
    refine ⟨fun scope => ?_, fun h => hnodup (hread.2 h)⟩
    rw [List.foldl_cons, hmem, hread.1, or_assoc]
    refine or_congr_right ⟨?_, ?_⟩
    · rintro (htag | ⟨t, ht, hscope⟩)
      · exact ⟨tag, List.mem_cons_self, htag⟩
      · exact ⟨t, List.mem_cons_of_mem tag ht, hscope⟩
    · rintro ⟨t, ht, hscope⟩
      rcases List.mem_cons.1 ht with rfl | ht
      · exact .inl hscope
      · exact .inr ⟨t, ht, hscope⟩

theorem mem_readTags {tags : List Text} : scope ∈ (readTags tags).2 ↔ Recorded scope tags := by
  rw [readTags, (foldl_readTag tags (0, [])).1]
  exact or_iff_right (List.not_mem_nil)

/-! ## Runs -/

/-- What a call says of the record of a scope. -/
def GateCall.tells (object : Text × Text) (scope : ItemScopeRef) : GateCall → Option Bool
  | .remember object' scopes =>
    if object' = object ∧ scope ∈ scopes ∧ (encodeTag scope).isSome = true then some true else none
  | .forget object' scope' => if object' = object ∧ scope = scope' then some false else none
  | .fetch _ => none

theorem tells_remember {object : Text × Text}
    (hmem : scope ∈ scopes) (htag : (encodeTag scope).isSome = true) :
    (GateCall.remember object scopes).tells object scope = some true := if_pos ⟨rfl, hmem, htag⟩

theorem recorded_change {object : Text × Text} {call : GateCall} {tags : List Text} :
    Recorded scope (call.change object tags) ↔
      (call.tells object scope).elim (Recorded scope tags) (fun b => b = true) := by
  cases call with
  | remember object' scopes =>
    rw [GateCall.change, GateCall.tells]
    by_cases hobject : object' = object
    · rw [if_pos hobject, recorded_remember]
      by_cases hscope : scope ∈ scopes ∧ (encodeTag scope).isSome = true
      · simp [hobject, hscope]
      · simp [hscope]
    · simp [hobject]
  | forget object' scope' =>
    rw [GateCall.change, GateCall.tells]
    by_cases hobject : object' = object
    · rw [if_pos hobject, recorded_forget]
      by_cases hscope : scope = scope' <;> simp [hobject, hscope]
    · simp [hobject]
  | fetch key => exact Iff.rfl

def callAt (entries : List TagEntry) (i : Nat) : Option GateCall :=
  entries[i]?.map (·.call)

/-- The calls that have taken effect, in that order. -/
def appliedCalls (s : TagState) : List GateCall := s.applied.filterMap (callAt s.entries)

theorem foldl_applyCall (entries : List TagEntry) (object : Text × Text)
    (applied : List Nat) (tags : List Text) (hmade : ∀ i ∈ applied, i < entries.length) :
    applied.foldl (Gates.applyCall gateCalls entries object) tags =
      (applied.filterMap (callAt entries)).foldl (fun v call => call.change object v) tags := by
  induction applied generalizing tags with
  | nil => rfl
  | cons i applied ih =>
    have hi := List.getElem?_eq_getElem (hmade i List.mem_cons_self)
    have hcall := congrArg (Option.map Gates.Entry.call) hi
    rw [List.foldl_cons, ih _ (fun j hj => hmade j (List.mem_cons_of_mem i hj)),
      applyCall_eq_change entries object tags hi, List.filterMap_cons_some (f := callAt entries) hcall,
      List.foldl_cons]

theorem recorded_foldl (object : Text × Text) (scope : ItemScopeRef) (calls : List GateCall)
    (tags : List Text) :
    Recorded scope (calls.foldl (fun v call => call.change object v) tags) ↔
      (calls.reverse.findSome? (fun call => call.tells object scope)).elim (Recorded scope tags)
        (fun b => b = true) := by
  induction calls using List.reverseRecOn with
  | nil => exact Iff.rfl
  | append_singleton calls call ih =>
    rw [List.foldl_append, List.foldl_cons, List.foldl_nil, recorded_change, List.reverse_append,
      List.reverse_singleton, List.singleton_append, List.findSome?_cons]
    cases call.tells object scope with
    | none => exact ih
    | some b => exact Iff.rfl

theorem foldl_unread (object : Text × Text) (calls : List GateCall) (tags : List Text) :
    (calls.foldl (fun v call => call.change object v) tags).filter (fun tag => (scopeOfTag tag).isNone) =
      tags.filter (fun tag => (scopeOfTag tag).isNone) := by
  induction calls generalizing tags with
  | nil => rfl
  | cons call calls ih => exact (ih _).trans (change_unread call object tags)

/-- Over every run of the calls that share the gates, an application keeps the tags that are of no scope, and
a scope is listed, once, if the last call that took effect and says so recorded it, or if there is none and it
was there. A call that was told it took effect did, and none does before one that has already. -/
theorem record_kept {tags : Text × Text → List Text} {tr : List TagEvent} {s : TagState}
    (hrun : Run TagStep (.start tags) tr s) :
    (∀ object, (s.store object).filter (fun tag => (scopeOfTag tag).isNone) =
        (tags object).filter (fun tag => (scopeOfTag tag).isNone) ∧
      (readTags (s.store object)).2.Nodup ∧
      ∀ scope, scope ∈ (readTags (s.store object)).2 ↔
        ((appliedCalls s).reverse.findSome? (fun call => call.tells object scope)).elim
          (scope ∈ (readTags (tags object)).2) (fun b => b = true)) ∧
      s.applied.Nodup ∧
      (∀ (i : Nat) (e : TagEntry), s.entries[i]? = some e →
        (e.stage.ok = true → i ∈ s.applied) ∧ (i ∈ s.applied → e.stage.landed = true)) ∧
      ∀ (tr' : List TagEvent) (s' : TagState), Run TagStep s tr' s' →
        s.applied <+: s'.applied := by
  have h := Gates.stateOk_of_run hrun
  refine ⟨fun object => ?_, h.nodup, fun i e he => ?_, fun tr' s' hrun' => Gates.applied_run hrun'⟩
  · have hstore : s.store object =
        (appliedCalls s).foldl (fun v call => call.change object v) (tags object) :=
      (h.store object).trans (foldl_applyCall s.entries object s.applied (tags object) h.made)
    refine ⟨?_, (foldl_readTag _ (0, [])).2 List.nodup_nil, fun scope => ?_⟩
    · rw [hstore, foldl_unread]
    · rw [mem_readTags, mem_readTags, hstore, recorded_foldl]
  · have hok := h.entries i e he
    exact ⟨fun htold => hok.applied.2 (hok.told htold), hok.applied.1⟩

/-- Over every such run two calls of one key never hold a lock at once, and the tags a call is about to write
are its edit of those that are there. -/
theorem gate_excludes {tags : Text × Text → List Text} {tr : List TagEvent} {s : TagState}
    (hrun : Run TagStep (.start tags) tr s) :
    (∀ (i j : Nat) (e e' : TagEntry), s.entries[i]? = some e → s.entries[j]? = some e' →
      e.call.key = e'.call.key → e.stage.lock ≠ none → e'.stage.lock ≠ none → i = j) ∧
    ∀ (i : Nat) (e : TagEntry) (gate : Nat) (v : List Text), s.entries[i]? = some e →
      e.stage = .editing gate v →
        ∃ object edit, e.call.work = some (object, edit) ∧ edit (s.store object) = some v := by
  have h := Gates.stateOk_of_run hrun
  refine ⟨fun i j e e' he he' hkey hlock hlock' => ?_, fun i e gate v he => (h.entries i e he).fresh gate v⟩
  obtain ⟨g, hg⟩ := Option.ne_none_iff_exists'.1 hlock
  obtain ⟨g', hg'⟩ := Option.ne_none_iff_exists'.1 hlock'
  -- both have the lock that the table has for the key
  have htable := (h.entries i e he).gate g (Gates.Stage.clone_of_lock hg)
  have htable' := (h.entries j e' he').gate g' (Gates.Stage.clone_of_lock hg')
  change s.table.lookup e.call.key = some g at htable
  rw [hkey] at htable
  obtain rfl := Option.some.inj (htable.symm.trans htable')
  exact h.exclusive i j e e' g he he' hg hg'

/-! ## A run -/

def sampleGuid : Text := "11111111-2222-3333-4444-555555555555".toList

def sampleScope : ItemScopeRef :=
  ⟨.list, "contoso.sharepoint.com,".toList ++ sampleGuid ++ ",".toList ++ sampleGuid, sampleGuid, none⟩

def sampleObject : Text × Text := ("t".toList, "o".toList)

def sampleTags : Text × Text → List Text := fun _ => ["HideApp".toList]

def sampleTag : Text := (encodeTag sampleScope).getD []

set_option maxRecDepth 8000 in
theorem sampleScope_tag : encodeTag sampleScope = some sampleTag := by decide

theorem wantedOf_sample : wantedOf [sampleScope] = [sampleTag] := by
  unfold wantedOf
  rw [List.filterMap_cons_some sampleScope_tag, List.filterMap_nil]

theorem work_remember {object : Text × Text} (h : wantedOf scopes ≠ []) :
    gateCalls.work (.remember object scopes) = some (object, rememberEdit scopes) := if_neg (by simpa using h)

theorem work_sample : gateCalls.work (.remember sampleObject [sampleScope]) =
    some (sampleObject, rememberEdit [sampleScope]) :=
  work_remember (by rw [wantedOf_sample]; exact List.cons_ne_nil _ _)

set_option maxRecDepth 8000 in
theorem rememberEdit_sample : rememberEdit [sampleScope] (sampleTags sampleObject) =
    some ["HideApp".toList, sampleTag] := by decide

theorem free_of_unlocked {χ ν : Type} {l : List (Gates.Entry χ ν)} {gate : Nat}
    (h : ∀ e ∈ l, e.stage.lock = none) (j : Nat) (e : Gates.Entry χ ν) (he : l[j]? = some e) :
    e.stage.lock ≠ some gate := by
  rw [h e (List.mem_of_getElem? he)]
  exact nofun

def sampleEntry : TagEntry := ⟨.remember sampleObject [sampleScope], .editing 0 ["HideApp".toList, sampleTag]⟩

/-- A second call waits for the lock. -/
def waitingEntry : TagEntry := ⟨.remember sampleObject [sampleScope], .cloned 0⟩

set_option maxRecDepth 8000 in
/-- A list is about to be recorded, and the tenant was forgotten in between. -/
theorem sample_editing : ∃ (tr : List TagEvent) (s : TagState), Run TagStep (.start sampleTags) tr s ∧
    s.entries = [sampleEntry, waitingEntry] ∧ s.applied = [] := by
  have h₀ : Run TagStep (.start sampleTags) [] (.start sampleTags) := .nil
  have h := h₀.snoc (.call (c := .remember sampleObject [sampleScope]))
  have h := h.snoc (.take (i := 0) rfl rfl)
  have h := h.snoc (.call (c := .remember sampleObject [sampleScope]))
  have h := h.snoc (.take (i := 1) rfl rfl)
  have h := h.snoc (e := .sweep (keepsOther "t".toList)) .sweep
  have h := h.snoc (.acquire (i := 0) rfl rfl (free_of_unlocked (by
    intro e he
    rcases List.mem_pair.1 he with rfl | rfl <;> rfl)))
  have h := h.snoc (.read (i := 0) rfl rfl work_sample rememberEdit_sample)
  exact ⟨_, _, h, rfl, rfl⟩

theorem gate_excludes_sample : ∃ (tr : List TagEvent) (s : TagState), Run TagStep (.start sampleTags) tr s ∧
    s.entries.length = 2 ∧
    (∀ j e, s.entries[j]? = some e → e.call.key = sampleEntry.call.key → e.stage.lock ≠ none → j = 0) ∧
    ∃ object edit, sampleEntry.call.work = some (object, edit) ∧
      edit (s.store object) = some ["HideApp".toList, sampleTag] := by
  obtain ⟨tr, s, hrun, hentries, -⟩ := sample_editing
  have he : s.entries[0]? = some sampleEntry := by rw [hentries]; rfl
  refine ⟨tr, s, hrun, by rw [hentries]; rfl, fun j e hj hkey hlock => ?_,
    (gate_excludes hrun).2 0 sampleEntry 0 _ he rfl⟩
  exact (gate_excludes hrun).1 j 0 e sampleEntry hj he hkey hlock nofun

theorem sample_run : ∃ (tr : List TagEvent) (s : TagState),
    Run TagStep (.start sampleTags) tr s ∧ appliedCalls s = [.remember sampleObject [sampleScope]] := by
  obtain ⟨tr, s, hrun, hentries, happlied⟩ := sample_editing
  have he : s.entries[0]? = some sampleEntry := by rw [hentries]; rfl
  refine ⟨_, _, hrun.snoc (.write he rfl work_sample true), ?_⟩
  simp [appliedCalls, callAt, Gates.State.move, hentries, happlied, sampleEntry]

theorem record_kept_sample : ∃ (tr : List TagEvent) (s : TagState),
    Run TagStep (.start sampleTags) tr s ∧ sampleScope ∈ (readTags (s.store sampleObject)).2 := by
  obtain ⟨tr, s, hrun, happlied⟩ := sample_run
  refine ⟨tr, s, hrun, (((record_kept hrun).1 sampleObject).2.2 sampleScope).2 ?_⟩
  have htells : (GateCall.remember sampleObject [sampleScope]).tells sampleObject sampleScope = some true :=
    tells_remember (List.mem_singleton_self _) (by rw [sampleScope_tag, Option.isSome_some])
  rw [happlied, List.reverse_singleton, List.findSome?_cons, htells]
  rfl

end Sharepoint
