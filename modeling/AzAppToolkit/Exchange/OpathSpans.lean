import AzAppToolkit.Exchange.OpathRoundTrip

set_option autoImplicit false

/-! # Where the clauses stand

The key scanner and the literal reader walk the same literals on their own. They agree on where a
literal ends, so no key is found inside a clause, and the spans of the clauses are increasing and
disjoint. -/

namespace Opath

open Letters

variable {uni : Unicode}

/-! ## The two scanners on a literal -/

/-- What the literal reader has read: the literal, and the quote that closes it. -/
theorem readLiteral_some {t dn : Text} {n : Nat} (h : readLiteral t = some (dn, n)) :
    ∃ rest, t = escapeOpath dn ++ '\'' :: rest ∧ rest.head? ≠ some '\'' ∧
      n = (escapeOpath dn).length + 1 := by
  induction t using readLiteral.induct generalizing dn n with
  | case1 => simp [readLiteral] at h
  | case2 rest ih =>
    rw [readLiteral, Option.map_eq_some_iff] at h
    obtain ⟨⟨dn', n'⟩, hr, hpair⟩ := h
    obtain ⟨rfl, rfl⟩ := Prod.mk.inj hpair
    obtain ⟨tail, rfl, htail, rfl⟩ := ih hr
    exact ⟨tail, by simp [escapeOpath], htail, by simp [escapeOpath]⟩
  | case3 rest hrest =>
    rw [readLiteral] at h
    · obtain ⟨rfl, rfl⟩ := Prod.mk.inj (Option.some.inj h)
      refine ⟨rest, rfl, ?_, rfl⟩
      intro hhead
      cases rest with
      | nil => simp at hhead
      | cons d tail => exact hrest tail (by simpa using hhead)
    · exact hrest
  | case4 c rest hne hc ih =>
    rw [readLiteral, Option.map_eq_some_iff] at h
    · obtain ⟨⟨dn', n'⟩, hr, hpair⟩ := h
      obtain ⟨rfl, rfl⟩ := Prod.mk.inj hpair
      obtain ⟨tail, rfl, htail, rfl⟩ := ih hr
      have hplain : c ≠ '\'' := hc
      exact ⟨tail, by simp [escapeOpath, hplain], htail, by simp [escapeOpath, hplain]⟩
    · exact hne
    · exact hc

/-- A literal the reader finds no end of keeps the scanner to the end of the text. -/
theorem keys_unterminated {t : Text} (h : readLiteral t = none) (i : Nat) :
    memberOfGroupKeysFrom 0 true false i (toAsciiLowercase t) = [] := by
  induction t using readLiteral.induct generalizing i with
  | case1 => rfl
  | case2 rest ih =>
    rw [readLiteral, Option.map_eq_none_iff] at h
    have hlow : toAsciiLowercase ('\'' :: '\'' :: rest) = '\'' :: '\'' :: toAsciiLowercase rest :=
      rfl
    rw [hlow, memberOfGroupKeysFrom, if_pos ⟨rfl, rfl⟩, if_pos ⟨rfl, rfl⟩, memberOfGroupKeysFrom]
    exact ih h _
  | case3 rest hrest =>
    rw [readLiteral] at h
    · simp at h
    · exact hrest
  | case4 c rest hne hc ih =>
    rw [readLiteral, Option.map_eq_none_iff] at h
    · have hplain : c.toLower ≠ '\'' := by
        rw [ne_eq, toLower_eq_iff c '\'' (by decide)]
        exact hc
      rw [toAsciiLowercase_cons, memberOfGroupKeysFrom, if_neg (fun h => hplain h.1),
        if_neg (fun h => absurd h.2 (by simp)), if_neg (fun h => absurd h.1 (by simp))]
      exact ih h _
    · exact hne
    · exact hc

theorem head_toAsciiLowercase_ne {t : Text} (h : t.head? ≠ some '\'') :
    (toAsciiLowercase t).head? ≠ some '\'' := by
  cases t with
  | nil => simp
  | cons c t =>
    intro hlow
    exact h (by simpa [toLower_eq_iff] using hlow)

/-- Behind an opening quote the scanner goes on where the reader ends. -/
theorem keys_of_readLiteral {t dn : Text} {n : Nat} (h : readLiteral t = some (dn, n)) (i : Nat) :
    memberOfGroupKeysFrom 0 false false i (toAsciiLowercase ('\'' :: t))
      = memberOfGroupKeysFrom 0 false false (i + 1 + n) (toAsciiLowercase (t.drop n)) := by
  obtain ⟨rest, rfl, hrest, rfl⟩ := readLiteral_some h
  have hdrop : (escapeOpath dn ++ '\'' :: rest).drop ((escapeOpath dn).length + 1) = rest := by
    simp
  have hlow : toAsciiLowercase ('\'' :: (escapeOpath dn ++ '\'' :: rest))
      = '\'' :: (escapeOpath (toAsciiLowercase dn) ++ '\'' :: toAsciiLowercase rest) := by
    rw [toAsciiLowercase_cons, toAsciiLowercase_append, toAsciiLowercase_escapeOpath,
      toAsciiLowercase_cons]
    rfl
  rw [hdrop, hlow, memberOfGroupKeysFrom, if_pos ⟨rfl, rfl⟩, if_neg (fun h => absurd h.1 (by simp))]
  show memberOfGroupKeysFrom 0 true false (i + 1) _ = _
  rw [keys_single _ _ (head_toAsciiLowercase_ne hrest), ← toAsciiLowercase_escapeOpath,
    length_toAsciiLowercase]
  rfl

/-! ## The text behind a key -/

theorem exists_blank_split (t : Text) : ∃ w t', t = w ++ t' ∧ Blank w ∧ NoBlankStart t' := by
  refine ⟨t.takeWhile isAsciiWhitespace, t.dropWhile isAsciiWhitespace,
    List.takeWhile_append_dropWhile.symm, ?_, ?_⟩
  · intro c hc
    exact List.mem_takeWhile_imp hc
  · intro c hc
    have := List.head?_dropWhile_not isAsciiWhitespace t
    rw [hc] at this
    simpa using this

/-- `-eq`, in some letter case, at the start of a text. -/
theorem exists_eq_split {t : Text} (h : "-eq".toList <+: toAsciiLowercase t) :
    ∃ e t', t = e ++ t' ∧ toAsciiLowercase e = "-eq".toList := by
  obtain ⟨rest, hrest⟩ := h
  refine ⟨t.take 3, t.drop 3, (List.take_append_drop 3 t).symm, ?_⟩
  rw [toAsciiLowercase, List.map_take]
  show (toAsciiLowercase t).take 3 = _
  rw [← hrest]
  rfl

/-- A clause is read from its key to the end of its literal, and the scanner finds no key before
    that end. -/
theorem clause_at_key {a k t : Text} {c : MemberClause} (hkey : toAsciiLowercase k = memberOfGroupKey)
    (h : memberClauseAt uni (a ++ (k ++ t)) a.length = some c) :
    ∃ m rest, t = m ++ rest ∧ c.span = (a.length, (a ++ (k ++ m)).length) ∧
      escapeOpath c.dn <:+: m ∧
      ∀ i, memberOfGroupKeysFrom 0 false false i (toAsciiLowercase t)
        = memberOfGroupKeysFrom 0 false false (i + m.length) (toAsciiLowercase rest) := by
  have hlen : (a ++ k).length = a.length + memberOfGroupKey.length := by
    rw [List.length_append, ← hkey, length_toAsciiLowercase]
  obtain ⟨w, t₁, rfl, hw, hstart⟩ := exists_blank_split t
  by_cases heq : "-eq".toList <+: toAsciiLowercase t₁
  · obtain ⟨e, t₂, rfl, he⟩ := exists_eq_split heq
    obtain ⟨w', t₃, rfl, hw', hstart'⟩ := exists_blank_split t₂
    rw [memberClauseAt_eq (List.append_assoc _ _ _).symm hlen hw he hw' hstart'] at h
    split at h
    · exact absurd h (by simp)
    split at h
    · exact absurd h (by simp)
    next hquote =>
      obtain ⟨t₄, rfl⟩ : ∃ t₄, t₃ = '\'' :: t₄ := by
        cases t₃ with
        | nil => simp at hquote
        | cons d t₄ => exact ⟨t₄, by simpa using hquote⟩
      rw [List.tail_cons] at h
      split at h
      · exact absurd h (by simp)
      next dn n hread =>
        split at h
        · exact absurd h (by simp)
        obtain rfl := Option.some.inj h
        have hn : n ≤ t₄.length := by
          obtain ⟨rest, rfl, -, rfl⟩ := readLiteral_some hread
          simp
        refine ⟨w ++ (e ++ (w' ++ '\'' :: t₄.take n)), t₄.drop n, ?_, ?_, ?_, ?_⟩
        · simp
        · simp [hn]
          omega
        · obtain ⟨rest, rfl, -, rfl⟩ := readLiteral_some hread
          exact ⟨w ++ (e ++ (w' ++ ['\''])), ['\''], by simp [List.take_length_add_append]⟩
        · intro i
          have hb := plain_of_blank hw
          have hb' := plain_of_blank hw'
          rw [toAsciiLowercase_append, keys_none _ _ hb.1 hb.2 (not_mem_blank hw),
            toAsciiLowercase_append, he, keys_none _ _ (by decide) (by decide) (by decide),
            toAsciiLowercase_append, keys_none _ _ hb'.1 hb'.2 (not_mem_blank hw'),
            keys_of_readLiteral hread]
          congr 1
          have hlen' : e.length = 3 := by
            rw [← length_toAsciiLowercase, he]
            rfl
          simp [hn, hlen']
          omega
  · rw [memberClauseAt_not_eq (List.append_assoc _ _ _).symm hlen hw hstart heq] at h
    exact absurd h (by simp)

/-! ## The spans -/

/-- A key stands where the scanner found it, and the scan goes on behind it. -/
theorem keys_behind {t : Text} {skip i k : Nat} {inSingle inDouble : Bool} {ks ks' : List Nat}
    (h : memberOfGroupKeysFrom skip inSingle inDouble i t = ks ++ k :: ks') :
    ∃ a b, t = a ++ (memberOfGroupKey ++ b) ∧ k = i + a.length ∧
      ks' = memberOfGroupKeysFrom 0 false false (k + memberOfGroupKey.length) b := by
  induction t generalizing skip i inSingle inDouble ks with
  | nil =>
    cases skip <;> simp [memberOfGroupKeysFrom] at h
  | cons c t ih =>
    -- the key is not at this character
    have hlater : ∀ {skip inSingle inDouble ks},
        memberOfGroupKeysFrom skip inSingle inDouble (i + 1) t = ks ++ k :: ks' →
        ∃ a b, c :: t = a ++ (memberOfGroupKey ++ b) ∧ k = i + a.length ∧
          ks' = memberOfGroupKeysFrom 0 false false (k + memberOfGroupKey.length) b := by
      intro skip inSingle inDouble ks hks
      obtain ⟨a, b, rfl, rfl, hks'⟩ := ih hks
      refine ⟨c :: a, b, rfl, ?_, hks'⟩
      rw [List.length_cons]
      omega
    cases skip with
    | succ skip => exact hlater h
    | zero =>
      rw [memberOfGroupKeysFrom] at h
      split at h
      · split at h
        · exact hlater h
        · exact hlater h
      split at h
      · exact hlater h
      split at h
      · next hkey =>
        obtain ⟨rfl, rfl, hpre⟩ := hkey
        cases ks with
        | cons k' ks =>
          rw [List.cons_append] at h
          exact hlater (List.cons.inj h).2
        | nil =>
          obtain ⟨rfl, rfl⟩ := List.cons.inj h
          obtain ⟨b, hb⟩ := List.isPrefixOf_iff_prefix.1 hpre
          refine ⟨[], b, hb.symm, rfl, ?_⟩
          have htail : t = memberOfGroupKey.tail ++ b := by
            have hcons : memberOfGroupKey ++ b = 'm' :: (memberOfGroupKey.tail ++ b) := rfl
            rw [hcons] at hb
            exact (List.cons.inj hb).2.symm
          have hskip := keys_skip memberOfGroupKey.tail b false false (i + 1)
          rw [htail, ← List.length_tail, hskip, List.length_tail, Nat.add_assoc]
          rfl
      · exact hlater h

theorem le_keys {t : Text} {skip i k : Nat} {inSingle inDouble : Bool}
    (h : k ∈ memberOfGroupKeysFrom skip inSingle inDouble i t) : i ≤ k := by
  obtain ⟨ks, ks', hsplit⟩ := List.append_of_mem h
  obtain ⟨a, b, -, rfl, -⟩ := keys_behind hsplit
  exact Nat.le_add_right _ _

/-- The place of a key in the filter. -/
theorem key_split {filter : Text} {k : Nat} {ks ks' : List Nat}
    (h : memberOfGroupKeys (toAsciiLowercase filter) = ks ++ k :: ks') :
    ∃ a x t, filter = a ++ (x ++ t) ∧ toAsciiLowercase x = memberOfGroupKey ∧ a.length = k ∧
      ks' = memberOfGroupKeysFrom 0 false false (k + memberOfGroupKey.length)
        (toAsciiLowercase t) := by
  obtain ⟨a', b', hlower, hk, hks'⟩ := keys_behind h
  rw [Nat.zero_add] at hk
  have hmap : filter.map Char.toLower = a' ++ (memberOfGroupKey ++ b') := hlower
  obtain ⟨a, rest, rfl, rfl, hrest⟩ := List.map_eq_append_iff.1 hmap
  obtain ⟨x, t, rfl, hx, rfl⟩ := List.map_eq_append_iff.1 hrest
  rw [List.length_map] at hk
  exact ⟨a, x, t, rfl, hx, hk.symm, hks'⟩

theorem pairwise_of_split {α : Type} {R : α → α → Prop} {l : List α}
    (h : ∀ ks k ks', l = ks ++ k :: ks' → ∀ k' ∈ ks', R k k') : l.Pairwise R := by
  induction l with
  | nil => exact List.Pairwise.nil
  | cons a l ih =>
    refine List.pairwise_cons.2 ⟨h [] a l rfl, ih ?_⟩
    intro ks k ks' hl
    exact h (a :: ks) k ks' (by rw [hl]; rfl)

/-- Behind the key of a clause, the next key comes after its end. -/
theorem clause_before_keys {filter : Text} {k : Nat} {ks ks' : List Nat} {c : MemberClause}
    (hkeys : memberOfGroupKeys (toAsciiLowercase filter) = ks ++ k :: ks')
    (hc : memberClauseAt uni filter k = some c) :
    c.span.1 = k ∧ k < c.span.2 ∧ c.span.2 ≤ filter.length ∧ ∀ k' ∈ ks', c.span.2 ≤ k' := by
  obtain ⟨a, x, t, rfl, hx, rfl, rfl⟩ := key_split hkeys
  obtain ⟨m, rest, rfl, hspan, -, hscan⟩ := clause_at_key hx hc
  have hlen : x.length = memberOfGroupKey.length := by
    rw [← hx, length_toAsciiLowercase]
  have hpos : 0 < memberOfGroupKey.length := by decide
  rw [hspan]
  refine ⟨rfl, ?_, ?_, ?_⟩
  · simp only [List.length_append]
    omega
  · simp only [List.length_append]
    omega
  · intro k' hk'
    rw [hscan] at hk'
    have hle := le_keys hk'
    simp only [List.length_append]
    omega

theorem keys_sorted (filter : Text) : (memberOfGroupKeys (toAsciiLowercase filter)).Pairwise (· < ·) := by
  refine pairwise_of_split ?_
  intro ks k ks' hkeys k' hk'
  obtain ⟨a, x, t, -, -, -, rfl⟩ := key_split hkeys
  have hle := le_keys hk'
  have hpos : 0 < memberOfGroupKey.length := by decide
  omega

/-- The spans are increasing and disjoint. -/
theorem clauses_disjoint (filter : Text) :
    (memberOfGroupClauses uni filter).Pairwise (fun a b => a.span.2 ≤ b.span.1) := by
  rw [memberOfGroupClauses, List.pairwise_filterMap]
  refine pairwise_of_split ?_
  intro ks k ks' hkeys k' hk' c hc c' hc'
  have hc'1 : c'.span.1 = k' := by
    have hmem : k' ∈ memberOfGroupKeys (toAsciiLowercase filter) := by
      rw [hkeys]
      exact List.mem_append_right _ (List.mem_cons_of_mem _ hk')
    obtain ⟨ks₁, ks₂, hsplit⟩ := List.append_of_mem hmem
    exact (clause_before_keys hsplit hc').1
  rw [hc'1]
  exact (clause_before_keys hkeys hc).2.2.2 k' hk'

/-- A clause is inside the filter, and the scanner finds no key in it but its own. -/
theorem clause_span {filter : Text} {c : MemberClause} (hc : c ∈ memberOfGroupClauses uni filter) :
    c.span.1 < c.span.2 ∧ c.span.2 ≤ filter.length ∧
      ∀ k ∈ memberOfGroupKeys (toAsciiLowercase filter), k ≤ c.span.1 ∨ c.span.2 ≤ k := by
  obtain ⟨k, hk, hclause⟩ := List.mem_filterMap.1 hc
  obtain ⟨ks, ks', hkeys⟩ := List.append_of_mem hk
  obtain ⟨rfl, hlt, hle, hbehind⟩ := clause_before_keys hkeys hclause
  refine ⟨hlt, hle, ?_⟩
  intro k' hk'
  have hsorted := keys_sorted filter
  rw [hkeys] at hk' hsorted
  rcases List.mem_append.1 hk' with hbefore | hafter
  · exact Or.inl (Nat.le_of_lt ((List.pairwise_append.1 hsorted).2.2 k' hbefore _
      List.mem_cons_self))
  · rcases List.mem_cons.1 hafter with rfl | hafter
    · exact Or.inl (Nat.le_refl _)
    · exact Or.inr (hbehind k' hafter)

/-- The operand of a clause stands in the filter, its quotes doubled. -/
theorem clause_operand {filter : Text} {c : MemberClause}
    (hc : c ∈ memberOfGroupClauses uni filter) : escapeOpath c.dn <:+: filter := by
  obtain ⟨k, hk, hclause⟩ := List.mem_filterMap.1 hc
  obtain ⟨ks, ks', hkeys⟩ := List.append_of_mem hk
  obtain ⟨a, x, t, rfl, hx, rfl, -⟩ := key_split hkeys
  obtain ⟨m, rest, rfl, -, hinfix, -⟩ := clause_at_key hx hclause
  obtain ⟨u, v, rfl⟩ := hinfix
  exact ⟨a ++ (x ++ u), v ++ rest, by simp⟩

end Opath
