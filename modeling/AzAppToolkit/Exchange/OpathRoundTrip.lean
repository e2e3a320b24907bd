import AzAppToolkit.Exchange.OpathPieces
import AzAppToolkit.Exchange.ScopeGroup

set_option autoImplicit false

/-! # A filter the toolkit wrote

What the recogniser makes of `member_of_group_filter`: the groups it was written from, whatever text
their names hold, and agreement of two such filters exactly when they name the same groups. -/

namespace Opath

variable (uni : Unicode)

/-- `ScopeGroups`: the groups a filter names, and whether all of it was read. -/
structure ScopeGroups where
  dns : Finset Text
  complete : Bool

def scopeGroupsInFilter (filter : Text) : ScopeGroups :=
  let clauses := memberOfGroupClauses uni filter
  { dns := (clauses.map (·.dn)).toFinset
    complete := clauses.length == countMemberOfGroup filter }

variable {uni}

/-! ## The cut of a written filter -/

theorem groupChain_operands (dn : Text) (rest : List Text) :
    (groupChain uni dn rest).operands = dn :: rest := by
  rw [Filter.operands, groupChain_comparisons, List.map_map]
  exact List.map_id _

theorem groupChain_readable {dn : Text} {rest : List Text} (hblank : ∀ d ∈ dn :: rest, isBlank d = false) :
    ∀ c ∈ (groupChain uni dn rest).comparisons, c.Readable := by
  rw [groupChain_comparisons]
  intro c hc
  obtain ⟨d, hd, rfl⟩ := List.mem_map.1 hc
  exact comparison_readable ⟨rfl, rfl⟩ rfl (hblank d hd)

section Written

variable {dns : List Text}

/-- The clauses of a written filter are its groups, in order, and no key is left over. -/
theorem written_clauses (hne : dns ≠ []) (hblank : ∀ dn ∈ dns, isBlank dn = false) :
    (memberOfGroupClauses uni (memberOfGroupFilter dns)).map (·.dn) = dns ∧
    (memberOfGroupClauses uni (memberOfGroupFilter dns)).length
      = countMemberOfGroup (memberOfGroupFilter dns) := by
  obtain ⟨first, rest, rfl⟩ := List.exists_cons_of_ne_nil hne
  obtain ⟨ps, hcut⟩ := (@prints_memberOfGroupFilter uni first rest).cut
  have hread := @groupChain_readable uni _ _ hblank
  have hdns := hcut.dns hread
  have hcount := hcut.clauses.2 hread
  rw [groupChain_operands] at hdns
  rw [← hcut.clauses.1] at hcount
  exact ⟨hdns, hcount⟩

theorem written_rewritable (hne : dns ≠ []) (hblank : ∀ dn ∈ dns, isBlank dn = false) :
    rewritableScopeDns uni (memberOfGroupFilter dns) = .ok (Text.dedup (Text.sort dns)) := by
  obtain ⟨first, rest, rfl⟩ := List.exists_cons_of_ne_nil hne
  obtain ⟨ps, hcut⟩ := (@prints_memberOfGroupFilter uni first rest).cut
  have hread := @groupChain_readable uni _ _ hblank
  refine (hcut.rewritable _).2 ⟨⟨hread, groupChain_connectives first rest⟩, ?_⟩
  rw [groupChain_operands]

theorem written_count (hne : dns ≠ []) (hblank : ∀ dn ∈ dns, isBlank dn = false) :
    countMemberOfGroup (memberOfGroupFilter dns) = dns.length := by
  have hwritten := @written_clauses asciiUnicode dns hne hblank
  rw [← hwritten.2, ← List.length_map (fun c : MemberClause => c.dn), hwritten.1]

theorem written_scopeGroups (hne : dns ≠ []) (hblank : ∀ dn ∈ dns, isBlank dn = false) :
    scopeGroupsInFilter uni (memberOfGroupFilter dns) = { dns := dns.toFinset, complete := true } := by
  obtain ⟨hdns, hcount⟩ := @written_clauses uni dns hne hblank
  simp [scopeGroupsInFilter, hdns, hcount]

theorem written_exact (hne : dns ≠ []) (hblank : ∀ dn ∈ dns, isBlank dn = false) :
    exactScopeDns uni (memberOfGroupFilter dns)
      = some ((Text.dedup (Text.sort dns)).map (foldDn uni)) := by
  simp [exactScopeDns, written_rewritable hne hblank]

end Written

theorem mem_folded (dns : List Text) (x : Text) :
    x ∈ (Text.dedup (Text.sort dns)).map (foldDn uni) ↔ x ∈ dns.map (foldDn uni) := by
  simp [Text.mem_dedup, Text.mem_sort]

/-! ## The round trip -/

/-- A filter written from a group list is read back as that list, sorted and without repeats; every
    key of it is a clause; and it agrees with another one exactly when the folded groups are the
    same. -/
theorem written_filter_reads_back (dns : List Text) (hne : dns ≠ [])
    (hblank : ∀ dn ∈ dns, isBlank dn = false) :
    (∃ sorted, rewritableScopeDns uni (memberOfGroupFilter dns) = .ok sorted ∧
      sorted.Pairwise (· < ·) ∧ ∀ dn, dn ∈ sorted ↔ dn ∈ dns) ∧
    scopeGroupsInFilter uni (memberOfGroupFilter dns) = { dns := dns.toFinset, complete := true } ∧
    countMemberOfGroup (memberOfGroupFilter dns) = dns.length ∧
    ∀ other : List Text, other ≠ [] → (∀ dn ∈ other, isBlank dn = false) →
      ((exactScopeDns uni (memberOfGroupFilter dns)).map List.toFinset
          = (exactScopeDns uni (memberOfGroupFilter other)).map List.toFinset
        ↔ (dns.map (foldDn uni)).toFinset = (other.map (foldDn uni)).toFinset) ∧
      (Exchange.scopeFilterAgrees uni (memberOfGroupFilter dns) (memberOfGroupFilter other) = true
        ↔ (dns.map (foldDn uni)).toFinset = (other.map (foldDn uni)).toFinset) := by
  refine ⟨⟨_, written_rewritable hne hblank, Text.dedup_strict (Text.sort_sorted dns), ?_⟩,
    written_scopeGroups hne hblank, written_count hne hblank, ?_⟩
  · intro dn
    rw [Text.mem_dedup, Text.mem_sort]
  · intro other hne' hblank'
    constructor
    · rw [written_exact hne hblank, written_exact hne' hblank']
      simp only [Option.map_some, Option.some.injEq, Finset.ext_iff, List.mem_toFinset, mem_folded]
    · simp only [Exchange.scopeFilterAgrees, written_exact hne hblank, written_exact hne' hblank',
        Exchange.sameSet, Bool.and_eq_true, List.all_eq_true, List.contains_iff_mem, mem_folded,
        Finset.ext_iff, List.mem_toFinset]
      constructor
      · rintro ⟨hto, hfrom⟩ x
        exact ⟨hto x, hfrom x⟩
      · intro hsame
        exact ⟨fun x => (hsame x).1, fun x => (hsame x).2⟩

/-- A group whose name holds a quote and a fake clause, a second one twice, and one over two lines. -/
theorem written_filter_reads_back_three :
    countMemberOfGroup (memberOfGroupFilter ["CN=O'Neil -or MemberOfGroup -eq 'b".toList,
        "CN=\"memberofgroup\"".toList, "CN=\"memberofgroup\"".toList, "CN=a\nb".toList]) = 4 ∧
      Exchange.scopeFilterAgrees asciiUnicode
        (memberOfGroupFilter ["CN=O'Neil -or MemberOfGroup -eq 'b".toList,
          "CN=\"memberofgroup\"".toList, "CN=\"memberofgroup\"".toList, "CN=a\nb".toList])
        (memberOfGroupFilter ["cn=A\nB".toList, "CN=\"MemberOfGroup\"".toList,
          "cn=o'neil -OR MemberOfGroup -eq 'b".toList]) = true := by
  have hread := @written_filter_reads_back asciiUnicode
    ["CN=O'Neil -or MemberOfGroup -eq 'b".toList, "CN=\"memberofgroup\"".toList,
      "CN=\"memberofgroup\"".toList, "CN=a\nb".toList] (by decide) (by decide)
  obtain ⟨-, -, hcount, hagree⟩ := hread
  have hsame := (hagree ["cn=A\nB".toList, "CN=\"MemberOfGroup\"".toList,
    "cn=o'neil -OR MemberOfGroup -eq 'b".toList] (by decide) (by decide)).2
  exact ⟨hcount, hsame.2 (by decide)⟩

end Opath
