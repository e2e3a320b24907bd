import AzAppToolkit.Exchange.MailScopes

set_option autoImplicit false

/-! # What the RBAC verdict says

The three steps of `verdict.rs` behind an RBAC verdict, put together: the rows that confer the
permission, their fold, and the reconciliation with what is still granted org-wide. The verdict is
stated in terms of what a row says, not of how it is read, and depends on the sets of rows and grants
alone. -/

namespace Exchange

/-- The verdict of the rows on a permission, reconciled with the org-wide grants. -/
def rbacVerdict (rows : List ExoAuthorizationResult) (p : ScopableMailPermission)
    (orgwideGranted : List Text) : MailPermissionScope :=
  reconcileOrgwideGrant (verdictFromRows (matchingRows rows p)) p.value orgwideGranted

/-! ## What a row says -/

/-- The same name, padding and letter case aside. -/
def SameName (a b : Text) : Prop := Text.eqIgnoreAsciiCase a b.trim = true

/-- The permissions a row lists are absent or blank. -/
def ListsNothing (row : ExoAuthorizationResult) : Prop :=
  ∀ g, row.grantedPermissions = some g → g.trim = []

/-- The row confers the permission: it has the permission's own role, or lists the permission, or
    lists nothing and has a composite role that bundles it. -/
inductive Confers (p : ScopableMailPermission) (row : ExoAuthorizationResult) : Prop
  | ownRole (r : Text) (hrole : row.roleName = some r) (hsame : SameName r.trim p.exchangeRole)
  | listed (g token : Text) (hlist : row.grantedPermissions = some g) (hne : g.trim ≠ [])
      (htoken : token ∈ Text.splitOn (fun c => c == ',' || c == ';' || isWhitespace c) g.trim)
      (htoken_ne : token ≠ []) (hsame : SameName token p.value)
  | composite (r v : Text) (bundle : Text × List Text) (hlist : ListsNothing row)
      (hrole : row.roleName = some r) (hbundle : bundle ∈ compositeRoles)
      (hname : SameName bundle.1 r.trim) (hmem : v ∈ bundle.2) (hsame : SameName v p.value)

/-- The row is confined: it names a resource scope, and its scope type is a confining one. -/
def Confined (row : ExoAuthorizationResult) : Prop :=
  ∃ scope, row.allowedResourceScope = some scope ∧ scope.trim ≠ [] ∧
    ¬ Text.eqIgnoreAsciiCase scope.trim "Not Applicable".toList = true ∧
    ∃ scopeType ∈ confinedScopeTypes,
      Text.eqIgnoreAsciiCase (row.scopeType.getD []).trim scopeType = true

theorem compositeRoleConfers_iff {role value : Text} : compositeRoleConfers role value = true ↔
    ∃ bundle ∈ compositeRoles, SameName bundle.1 role ∧ ∃ v ∈ bundle.2, SameName v value := by
  simp only [compositeRoleConfers, List.any_eq_true, Bool.and_eq_true, SameName]

/-- The list a row is read by. -/
theorem listed_eq_some {o : Option Text} {t : Text} :
    (o.map Text.trim).filter (fun g => g != []) = some t ↔
      ∃ g, o = some g ∧ g.trim = t ∧ t ≠ [] := by
  cases o with
  | none => simp
  | some g =>
    simp only [Option.map_some, Option.filter_some, bne_iff_ne, Option.ite_none_right_eq_some,
      Option.some.injEq, exists_eq_left']
    constructor
    · rintro ⟨hne, rfl⟩
      exact ⟨rfl, hne⟩
    · rintro ⟨rfl, hne⟩
      exact ⟨hne, rfl⟩

theorem listed_eq_none (row : ExoAuthorizationResult) :
    (row.grantedPermissions.map Text.trim).filter (fun g => g != []) = none ↔
      ListsNothing row := by
  unfold ListsNothing
  cases row.grantedPermissions with
  | none | some g => simp

theorem rowGrantsPermission_iff (row : ExoAuthorizationResult) (p : ScopableMailPermission) :
    rowGrantsPermission row p.exchangeRole p.value = true ↔ Confers p row := by
  have hrole : ∀ P : Text → Bool, (row.roleName.map Text.trim).any P = true ↔
      ∃ r, row.roleName = some r ∧ P r.trim = true := by
    intro P
    cases row.roleName with
    | none | some r => simp
  unfold rowGrantsPermission
  simp only [Bool.if_true_left, Bool.or_eq_true, decide_eq_true_eq]
  rw [hrole]
  constructor
  · rintro (⟨r, hr, hsame⟩ | hlist)
    · exact .ownRole r hr hsame
    · split at hlist
      · next granted hgranted =>
        obtain ⟨g, hg, rfl, hne⟩ := listed_eq_some.1 hgranted
        obtain ⟨token, htoken, hmatch⟩ := List.any_eq_true.1 hlist
        simp only [Bool.and_eq_true, bne_iff_ne] at hmatch
        exact .listed g token hg hne htoken hmatch.1 hmatch.2
      · next hnone =>
        obtain ⟨r, hr, hcomposite⟩ := (hrole _).1 hlist
        obtain ⟨bundle, hbundle, hname, v, hv, hsame⟩ := compositeRoleConfers_iff.1 hcomposite
        have htrim : SameName bundle.1 r.trim := hname
        exact .composite r v bundle ((listed_eq_none row).1 hnone) hr hbundle htrim hv hsame
  · intro h
    cases h with
    | ownRole r hr hsame => exact Or.inl ⟨r, hr, hsame⟩
    | listed g token hlist hne htoken htoken_ne hsame =>
      refine Or.inr ?_
      rw [listed_eq_some.2 ⟨g, hlist, rfl, hne⟩]
      refine List.any_eq_true.2 ⟨token, htoken, ?_⟩
      simp only [Bool.and_eq_true, bne_iff_ne]
      exact ⟨htoken_ne, hsame⟩
    | composite r v bundle hlist hr hbundle hname hmem hsame =>
      refine Or.inr ?_
      rw [(listed_eq_none row).2 hlist]
      exact (hrole _).2 ⟨r, hr, compositeRoleConfers_iff.2 ⟨bundle, hbundle, hname, v, hmem,
        hsame⟩⟩

theorem isOrgWideAuthRow_eq_false (row : ExoAuthorizationResult) :
    isOrgWideAuthRow row = false ↔ Confined row := by
  have hnil : Text.trim [] = [] := rfl
  unfold isOrgWideAuthRow Confined
  cases row.allowedResourceScope with
  | none => simp [hnil]
  | some scope =>
    simp only [Option.getD_some, Option.some.injEq, exists_eq_left']
    split
    · next horg =>
      simp only [Bool.true_eq_false, false_iff, not_and]
      rintro hne hscope
      exact absurd horg (not_or.2 ⟨hne, hscope⟩)
    · next hscope =>
      obtain ⟨hne, hnot⟩ := not_or.1 hscope
      rw [Bool.not_eq_false', List.any_eq_true]
      exact ⟨fun htype => ⟨hne, hnot, htype⟩, fun h => h.2.2⟩

theorem mem_matchingRows (rows : List ExoAuthorizationResult) (p : ScopableMailPermission)
    (row : ExoAuthorizationResult) :
    row ∈ matchingRows rows p ↔ row ∈ rows ∧ Confers p row := by
  rw [matchingRows, List.mem_filter, rowGrantsPermission_iff]

/-! ## The verdict -/

/-- Some row confers the permission, and every row that does is confined. -/
theorem rowsConfine_iff (rows : List ExoAuthorizationResult) (p : ScopableMailPermission) :
    RowsConfine rows p ↔
      (∃ row ∈ rows, Confers p row) ∧ ∀ row ∈ rows, Confers p row → Confined row := by
  unfold RowsConfine
  constructor
  · rintro ⟨hne, hall⟩
    obtain ⟨row, hrow⟩ := List.exists_mem_of_ne_nil _ hne
    refine ⟨⟨row, (mem_matchingRows rows p row).1 hrow⟩, ?_⟩
    intro row' hrow' hconfers
    rw [← isOrgWideAuthRow_eq_false]
    exact hall row' ((mem_matchingRows rows p row').2 ⟨hrow', hconfers⟩)
  · rintro ⟨⟨row, hrow, hconfers⟩, hall⟩
    refine ⟨List.ne_nil_of_mem ((mem_matchingRows rows p row).2 ⟨hrow, hconfers⟩), ?_⟩
    intro row' hrow'
    obtain ⟨hmem, hconfers'⟩ := (mem_matchingRows rows p row').1 hrow'
    exact (isOrgWideAuthRow_eq_false row').2 (hall row' hmem hconfers')

theorem defeats_iff (perm : Text) (granted : List Text) :
    defeats perm granted = true ↔ perm ∈ granted ∨ ewsFullAccessAsApp ∈ granted := by
  simp [defeats, isBlanketMailboxGrant]

/-- The verdict is an RBAC scope that stands, or org-wide. -/
theorem rbacVerdict_cases (rows : List ExoAuthorizationResult) (p : ScopableMailPermission)
    (granted : List Text) :
    (RowsConfine rows p ∧ defeats p.value granted = false ∧
      rbacVerdict rows p granted
        = .scoped (displayName (distinctScopeNames (matchingRows rows p))) none none .rbac) ∨
    (¬ (RowsConfine rows p ∧ defeats p.value granted = false) ∧
      rbacVerdict rows p granted = .orgWide) := by
  unfold rbacVerdict
  by_cases hrows : RowsConfine rows p
  · have hverdict : verdictFromRows (matchingRows rows p)
        = .scoped (displayName (distinctScopeNames (matchingRows rows p))) none none .rbac := by
      unfold verdictFromRows
      refine if_neg ?_
      simp only [not_or, List.any_eq_true, not_exists, not_and, Bool.not_eq_true]
      exact hrows
    rw [hverdict]
    cases hdefeats : defeats p.value granted with
    | true => exact Or.inr ⟨by simp, by simp [reconcileOrgwideGrant, hdefeats]⟩
    | false => exact Or.inl ⟨hrows, rfl, by simp [reconcileOrgwideGrant, hdefeats]⟩
  · rw [(verdictFromRows_class rows p).2 hrows]
    exact Or.inr ⟨fun h => hrows h.1, rfl⟩

/-! ## The sets it depends on -/

theorem distinctNames_congr {names names' : List Text} (h : ∀ n, n ∈ names ↔ n ∈ names') :
    distinctNames names = distinctNames names' := by
  unfold distinctNames
  refine List.Pairwise.eq_of_mem_iff (Text.dedup_strict (Text.sort_sorted _))
    (Text.dedup_strict (Text.sort_sorted _)) ?_
  intro n
  simp only [Text.mem_dedup, Text.mem_sort, List.mem_filter, List.mem_map, h]

/-- The verdict, its scope name included, depends on the set of the rows and the set of the grants. -/
theorem rbacVerdict_congr {rows rows' : List ExoAuthorizationResult} {granted granted' : List Text}
    (p : ScopableMailPermission) (hrows : ∀ row, row ∈ rows ↔ row ∈ rows')
    (hgranted : ∀ g, g ∈ granted ↔ g ∈ granted') :
    rbacVerdict rows p granted = rbacVerdict rows' p granted' := by
  have hmatching : ∀ row, row ∈ matchingRows rows p ↔ row ∈ matchingRows rows' p := by
    intro row
    rw [mem_matchingRows, mem_matchingRows, hrows]
  have hconfine : RowsConfine rows p ↔ RowsConfine rows' p := by
    simp only [rowsConfine_iff, hrows]
  have hdefeats : defeats p.value granted = defeats p.value granted' := by
    rw [Bool.eq_iff_iff, defeats_iff, defeats_iff, hgranted, hgranted]
  have hnames : distinctScopeNames (matchingRows rows p)
      = distinctScopeNames (matchingRows rows' p) := by
    refine distinctNames_congr ?_
    intro n
    simp only [List.mem_filterMap, hmatching]
  rcases rbacVerdict_cases rows p granted with ⟨hstands, hopen, hverdict⟩ | ⟨hnot, hverdict⟩
  · rcases rbacVerdict_cases rows' p granted' with ⟨-, -, hverdict'⟩ | ⟨hnot', -⟩
    · rw [hverdict, hverdict', hnames]
    · exact absurd ⟨hconfine.1 hstands, hdefeats ▸ hopen⟩ hnot'
  · rcases rbacVerdict_cases rows' p granted' with ⟨hstands', hopen', -⟩ | ⟨-, hverdict'⟩
    · exact absurd ⟨hconfine.2 hstands', hdefeats ▸ hopen'⟩ hnot
    · rw [hverdict, hverdict']

/-! ## The verdict as a whole -/

/-- An RBAC verdict is a scope exactly when the permission is conferred, only by confined rows, and
    nothing that defeats it is granted org-wide; else it is org-wide. Order and repetition of the
    rows do not matter, and a further row or grant makes no scope of an org-wide verdict, unless the
    row is the first to confer the permission. -/
theorem rbac_verdict_exact (rows : List ExoAuthorizationResult) (p : ScopableMailPermission)
    (granted : List Text) :
    ((rbacVerdict rows p granted).scopeClass = .scopedBy .rbac ↔
      (∃ row ∈ rows, Confers p row) ∧ (∀ row ∈ rows, Confers p row → Confined row) ∧
        p.value ∉ granted ∧ ewsFullAccessAsApp ∉ granted) ∧
    ((rbacVerdict rows p granted).scopeClass = .scopedBy .rbac ∨
      rbacVerdict rows p granted = .orgWide) ∧
    (∀ rows' granted', (∀ row, row ∈ rows ↔ row ∈ rows') → (∀ g, g ∈ granted ↔ g ∈ granted') →
      rbacVerdict rows p granted = rbacVerdict rows' p granted') ∧
    (∀ row, rbacVerdict rows p granted = .orgWide → rbacVerdict (row :: rows) p granted ≠ .orgWide →
      Confers p row ∧ ∀ row' ∈ rows, ¬ Confers p row') ∧
    ∀ g, rbacVerdict rows p granted = .orgWide → rbacVerdict rows p (g :: granted) = .orgWide := by
  have hclass : ∀ rows granted, (RowsConfine rows p ∧ defeats p.value granted = false) ↔
      (∃ row ∈ rows, Confers p row) ∧ (∀ row ∈ rows, Confers p row → Confined row) ∧
        p.value ∉ granted ∧ ewsFullAccessAsApp ∉ granted := by
    intro rows granted
    rw [rowsConfine_iff, ← Bool.not_eq_true, defeats_iff, not_or, and_assoc]
  have hstands : ∀ rows granted, rbacVerdict rows p granted ≠ .orgWide →
      RowsConfine rows p ∧ defeats p.value granted = false := by
    intro rows granted hne
    rcases rbacVerdict_cases rows p granted with ⟨hrows, hopen, -⟩ | ⟨-, horg⟩
    · exact ⟨hrows, hopen⟩
    · exact absurd horg hne
  have hfalls : ∀ rows granted, rbacVerdict rows p granted = .orgWide →
      ¬ (RowsConfine rows p ∧ defeats p.value granted = false) := by
    intro rows granted horg
    rcases rbacVerdict_cases rows p granted with ⟨-, -, hscoped⟩ | ⟨hnot, -⟩
    · rw [horg] at hscoped
      exact absurd hscoped (by simp)
    · exact hnot
  refine ⟨?_, ?_, fun rows' granted' => rbacVerdict_congr p, ?_, ?_⟩
  · rw [← hclass]
    rcases rbacVerdict_cases rows p granted with ⟨hrows, hopen, hverdict⟩ | ⟨hnot, hverdict⟩
    · rw [hverdict]
      exact ⟨fun _ => ⟨hrows, hopen⟩, fun _ => rfl⟩
    · rw [hverdict]
      exact ⟨fun h => absurd h (by simp [MailPermissionScope.scopeClass]), fun h => absurd h hnot⟩
  · rcases rbacVerdict_cases rows p granted with ⟨-, -, hverdict⟩ | ⟨-, hverdict⟩
    · rw [hverdict]
      exact Or.inl rfl
    · exact Or.inr hverdict
  · intro row horg hne
    have hnow := (hclass (row :: rows) granted).1 (hstands _ _ hne)
    have hbefore := mt (hclass rows granted).2 (hfalls _ _ horg)
    obtain ⟨⟨first, hfirst, hconfers⟩, hall, hperm, hblanket⟩ := hnow
    have hnone : ∀ row' ∈ rows, ¬ Confers p row' := by
      intro row' hrow' hconfers'
      refine hbefore ⟨⟨row', hrow', hconfers'⟩, ?_, hperm, hblanket⟩
      intro row'' hrow''
      exact hall row'' (List.mem_cons_of_mem _ hrow'')
    rcases List.mem_cons.1 hfirst with rfl | hlater
    · exact ⟨hconfers, hnone⟩
    · exact absurd hconfers (hnone first hlater)
  · intro g horg
    by_contra hne
    have hnow := (hclass rows (g :: granted)).1 (hstands _ _ hne)
    refine hfalls _ _ horg ((hclass rows granted).2 ⟨hnow.1, hnow.2.1, ?_, ?_⟩)
    · exact fun hmem => hnow.2.2.1 (List.mem_cons_of_mem _ hmem)
    · exact fun hmem => hnow.2.2.2 (List.mem_cons_of_mem _ hmem)

end Exchange
