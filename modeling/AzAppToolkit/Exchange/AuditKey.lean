import AzAppToolkit.Exchange.RbacVerdict
import AzAppToolkit.Lib.Separators

set_option autoImplicit false

/-! # The key of the audit's verdict

The security audit caches the lean verdict of an application under a key made of the permissions it
was asked for and those of them still granted org-wide. This file states what two calls with one key
have in common, and when they get one verdict. -/

namespace Exchange

def mailScopesKey (tenantId discriminator : Text) : Text :=
  tenantId ++ "|mail_scopes|".toList ++ discriminator

/-- The values of the permissions, sorted and without repeats. -/
def scopableValues (scopable : List ScopableMailPermission) : List Text :=
  Text.dedup (Text.sort (scopable.map (·.value)))

/-- Those of the values that are granted org-wide. -/
def heldValues (scopable : List ScopableMailPermission) (orgwideGranted : List Text) : List Text :=
  (scopableValues scopable).filter (fun v => orgwideGranted.contains v)

def auditMailScopesKey (tenantId appId : Text) (scopable : List ScopableMailPermission)
    (orgwideGranted : List Text) : Text :=
  mailScopesKey tenantId ("audit|".toList ++ appId ++ "|".toList ++
    Text.join ",".toList (scopableValues scopable) ++ "|orgwide:".toList ++
    Text.join ",".toList (heldValues scopable orgwideGranted))

/-- The permissions are what the audit's resource-aware gate lets through. -/
def Vetted (scopable : List ScopableMailPermission) : Prop :=
  ∀ p ∈ scopable, ∃ g, ScopableMailPermission.ofGrant g = some p

/-- Two answers of the resolver that say the same. -/
def SameScopes : Except ExchangeError (Table Text MailPermissionScope) →
    Except ExchangeError (Table Text MailPermissionScope) → Prop
  | .ok scopes, .ok scopes' => ∀ value, scopes.lookup value = scopes'.lookup value
  | .error err, .error err' => err = err'
  | _, _ => False

/-! ## What a key holds -/

/-- Non-empty values without a comma are told apart by their list. -/
theorem join_inj {l l' : List Text} (h : ∀ v ∈ l, v ≠ [] ∧ ',' ∉ v) (h' : ∀ v ∈ l', v ≠ [] ∧ ',' ∉ v)
    (hjoin : Text.join ",".toList l = Text.join ",".toList l') : l = l' := by
  have hsplit : ∀ l : List Text, (∀ v ∈ l, v ≠ [] ∧ ',' ∉ v) → l ≠ [] →
      List.splitOn ',' (Text.join ",".toList l) = l := by
    intro l hl hne
    exact List.splitOn_intercalate ',' (fun v hv => (hl v hv).2) hne
  have hempty : ∀ l : List Text, (∀ v ∈ l, v ≠ [] ∧ ',' ∉ v) → Text.join ",".toList l = [] →
      l = [] := by
    intro l hl hjoin
    by_contra hne
    have hone := hsplit l hl hne
    rw [hjoin] at hone
    have hmem : ([] : Text) ∈ l := by
      rw [← hone]
      simp
    exact (hl [] hmem).1 rfl
  by_cases hne : l = []
  · subst hne
    exact (hempty l' h' hjoin.symm).symm
  · by_cases hne' : l' = []
    · subst hne'
      exact hempty l h hjoin
    · rw [← hsplit l h hne, hjoin, hsplit l' h' hne']

theorem mem_scopableValues (scopable : List ScopableMailPermission) (v : Text) :
    v ∈ scopableValues scopable ↔ ∃ p ∈ scopable, p.value = v := by
  rw [scopableValues, Text.mem_dedup, Text.mem_sort, List.mem_map]

/-- What the gate lets through is a name without the key's separators. -/
theorem Vetted.value_plain {scopable : List ScopableMailPermission} (h : Vetted scopable) {v : Text}
    (hv : v ∈ scopableValues scopable) : v ≠ [] ∧ ',' ∉ v ∧ '|' ∉ v := by
  obtain ⟨p, hp, rfl⟩ := (mem_scopableValues _ _).1 hv
  obtain ⟨g, hg⟩ := h p hp
  rw [ScopableMailPermission.ofGrant_value hg]
  obtain ⟨resource, value⟩ := g
  have htable : ∀ r ∈ graphMailRoles, r.1.toList ≠ [] ∧ ',' ∉ r.1.toList ∧ '|' ∉ r.1.toList := by
    decide
  cases resource with
  | none => exact absurd hg (by simp [ScopableMailPermission.ofGrant])
  | some resource =>
    obtain ⟨role, hrole, -⟩ := Option.map_eq_some_iff.1 hg
    unfold exchangeRoleForResourcePermission at hrole
    split at hrole
    · obtain ⟨r, hr, -⟩ := Option.map_eq_some_iff.1 hrole
      obtain ⟨hsame, hmem⟩ := And.intro (List.find?_some hr) (List.mem_of_find?_eq_some hr)
      rw [← beq_iff_eq.1 hsame]
      exact htable r hmem
    · split at hrole
      · split at hrole
        · next hews =>
          rw [hews]
          decide
        · exact absurd hrole (by simp)
      · exact absurd hrole (by simp)

/-- One key: the same permissions, and the same of them granted org-wide. -/
theorem key_inj {tenantId appId : Text} {scopable scopable' : List ScopableMailPermission}
    {granted granted' : List Text} (h : Vetted scopable) (h' : Vetted scopable')
    (hkey : auditMailScopesKey tenantId appId scopable granted
      = auditMailScopesKey tenantId appId scopable' granted') :
    scopableValues scopable = scopableValues scopable' ∧
      heldValues scopable granted = heldValues scopable' granted' := by
  have hbar : ∀ {scopable}, Vetted scopable → '|' ∉ Text.join ",".toList (scopableValues scopable) := by
    intro scopable hvetted
    have hjoin : ∀ l : List Text, (∀ v ∈ l, '|' ∉ v) → '|' ∉ Text.join ",".toList l := by
      intro l
      induction l with
      | nil => intro _; decide
      | cons v l ih =>
        intro hl
        have hv := hl v List.mem_cons_self
        have hrest := ih (fun w hw => hl w (List.mem_cons_of_mem _ hw))
        cases l with
        | nil => simpa [Text.join] using hv
        | cons w l =>
          simp only [Text.join] at hrest ⊢
          simp only [List.intercalate_cons_cons, List.mem_append]
          rintro ((hmem | hmem) | hmem)
          · exact hv hmem
          · exact absurd hmem (by decide)
          · exact hrest hmem
    exact hjoin _ (fun v hv => (hvetted.value_plain hv).2.2)
  simp only [auditMailScopesKey, mailScopesKey, List.append_assoc, List.append_cancel_left_eq]
    at hkey
  obtain ⟨hvalues, htail⟩ := Separators.append_sep_inj (hbar h) (hbar h') hkey
  have hheld := (List.append_right_inj "orgwide:".toList).1 htail
  refine ⟨join_inj ?_ ?_ hvalues, join_inj ?_ ?_ hheld⟩
  · exact fun v hv => ⟨(h.value_plain hv).1, (h.value_plain hv).2.1⟩
  · exact fun v hv => ⟨(h'.value_plain hv).1, (h'.value_plain hv).2.1⟩
  · intro v hv
    have hmem := (List.mem_filter.1 hv).1
    exact ⟨(h.value_plain hmem).1, (h.value_plain hmem).2.1⟩
  · intro v hv
    have hmem := (List.mem_filter.1 hv).1
    exact ⟨(h'.value_plain hmem).1, (h'.value_plain hmem).2.1⟩

/-! ## What the resolver answers -/

theorem permissionVerdict_lean (exo : ExchangeReads) (rows : List ExoAuthorizationResult)
    (granted : List Text) (p : ScopableMailPermission) :
    permissionVerdict exo rows none granted false p = rbacVerdict rows p granted := by
  simp only [permissionVerdict, rbacVerdict, Bool.false_eq_true, if_false]
  cases verdictFromRows (matchingRows rows p) <;> cases p.aapConfinable <;> rfl

theorem lookup_foldl_insert_other {α β : Type} (key : β → Text) (f : β → α) (l : List β)
    (t : Table Text α) {k : Text} (hk : ∀ b ∈ l, key b ≠ k) :
    (l.foldl (fun t b => t.insert (key b) (f b)) t).lookup k = t.lookup k := by
  induction l generalizing t with
  | nil => rfl
  | cons b l ih =>
    rw [List.foldl_cons, ih _ (fun b' hb' => hk b' (List.mem_cons_of_mem _ hb')),
      AList.lookup_insert_eq, if_neg (Ne.symm (hk b List.mem_cons_self))]

/-- A vetted permission is known by its value. -/
theorem Vetted.eq_of_value {scopable scopable' : List ScopableMailPermission} (h : Vetted scopable)
    (h' : Vetted scopable') {p p' : ScopableMailPermission} (hp : p ∈ scopable)
    (hp' : p' ∈ scopable') (hvalue : p.value = p'.value) : p = p' := by
  obtain ⟨g, hg⟩ := h p hp
  obtain ⟨g', hg'⟩ := h' p' hp'
  refine (ScopableMailPermission.ofGrant_value_inj hg hg' ?_).2
  rw [← ScopableMailPermission.ofGrant_value hg, ← ScopableMailPermission.ofGrant_value hg', hvalue]

section Resolve

variable (rows : List ExoAuthorizationResult) (policies : List ExoApplicationAccessPolicy)
  (scopes : Text → Except ExchangeError (Option ExoManagementScope)) (appId : Text)
  (granted : List Text)

/-- The lean resolver answers each permission it was asked for, and no other value. -/
theorem resolve_lean_lookup {scopable : List ScopableMailPermission} (h : Vetted scopable) :
    ∃ table, resolveMailScopes (readsOf rows policies scopes) appId scopable granted false
        = .ok table ∧
      (∀ p ∈ scopable, table.lookup p.value = some (rbacVerdict rows p granted)) ∧
      ∀ value, (∀ p ∈ scopable, p.value ≠ value) → table.lookup value = none := by
  unfold resolveMailScopes
  by_cases hnil : scopable = []
  · subst hnil
    exact ⟨∅, rfl, by simp, by simp⟩
  · rw [if_neg hnil]
    refine ⟨_, rfl, ?_, ?_⟩
    · intro p hp
      rw [AList.lookup_foldl_insert (·.value) _ _ ∅ p hp
        (fun p' hp' hvalue => by rw [h.eq_of_value h hp' hp hvalue])]
      exact congrArg some (permissionVerdict_lean _ _ _ _)
    · intro value hvalue
      exact (lookup_foldl_insert_other (fun p : ScopableMailPermission => p.value) _ _ _
        hvalue).trans (AList.lookup_empty value)

end Resolve

theorem defeats_eq_iff (perm : Text) (granted granted' : List Text) :
    defeats perm granted = defeats perm granted' ↔
      ((perm ∈ granted ∨ ewsFullAccessAsApp ∈ granted) ↔
        (perm ∈ granted' ∨ ewsFullAccessAsApp ∈ granted')) := by
  rw [Bool.eq_iff_iff, defeats_iff, defeats_iff]

/-- Two reconciliations of the same rows agree unless a scope stands in one of them only. -/
theorem rbacVerdict_eq_iff (rows : List ExoAuthorizationResult) (p : ScopableMailPermission)
    (granted granted' : List Text) : rbacVerdict rows p granted = rbacVerdict rows p granted' ↔
      (RowsConfine rows p → defeats p.value granted = defeats p.value granted') := by
  rcases rbacVerdict_cases rows p granted with ⟨hrows, hopen, hverdict⟩ | ⟨hnot, hverdict⟩
  · rcases rbacVerdict_cases rows p granted' with ⟨-, hopen', hverdict'⟩ | ⟨hnot', hverdict'⟩
    · rw [hverdict, hverdict', hopen, hopen']
      simp
    · have hdefeated : defeats p.value granted' ≠ false := fun h => hnot' ⟨hrows, h⟩
      rw [hverdict, hverdict', hopen]
      simp [hrows, Ne.symm hdefeated]
  · rcases rbacVerdict_cases rows p granted' with ⟨hrows, hopen', hverdict'⟩ | ⟨hnot', hverdict'⟩
    · have hdefeated : defeats p.value granted ≠ false := fun h => hnot ⟨hrows, h⟩
      rw [hverdict, hverdict', hopen']
      simp [hrows, hdefeated]
    · rw [hverdict, hverdict']
      simp only [true_iff]
      intro hrows
      have hdefeated : defeats p.value granted = true := by
        simpa using fun h => hnot ⟨hrows, h⟩
      have hdefeated' : defeats p.value granted' = true := by
        simpa using fun h => hnot' ⟨hrows, h⟩
      rw [hdefeated, hdefeated']

/-! ## When the key determines the verdict -/

/-- Under one key, and over the same rows, two calls get the same verdicts exactly when both or
    neither of the grant sets hold the blanket mailbox grant, or every permission the rows confine is
    itself still granted org-wide. -/
theorem audit_key_determines_iff (tenantId appId : Text)
    (scopable scopable' : List ScopableMailPermission) (granted granted' : List Text)
    (rows : List ExoAuthorizationResult) (policies policies' : List ExoApplicationAccessPolicy)
    (scopes scopes' : Text → Except ExchangeError (Option ExoManagementScope))
    (h : Vetted scopable) (h' : Vetted scopable') (hkey : auditMailScopesKey tenantId appId scopable granted
      = auditMailScopesKey tenantId appId scopable' granted') :
    SameScopes (resolveMailScopes (readsOf rows policies scopes) appId scopable granted false)
        (resolveMailScopes (readsOf rows policies' scopes') appId scopable' granted' false) ↔
      (ewsFullAccessAsApp ∈ granted ↔ ewsFullAccessAsApp ∈ granted') ∨
        ∀ p ∈ scopable, RowsConfine rows p → p.value ∈ granted := by
  obtain ⟨hvalues, hheld⟩ := key_inj h h' hkey
  -- the two calls ask for the same permissions
  have hsame : ∀ p, p ∈ scopable ↔ p ∈ scopable' := by
    intro p
    constructor
    · intro hp
      have hv : p.value ∈ scopableValues scopable := (mem_scopableValues _ _).2 ⟨p, hp, rfl⟩
      rw [hvalues] at hv
      obtain ⟨p', hp', hvalue⟩ := (mem_scopableValues _ _).1 hv
      rw [h.eq_of_value h' hp hp' hvalue.symm]
      exact hp'
    · intro hp
      have hv : p.value ∈ scopableValues scopable' := (mem_scopableValues _ _).2 ⟨p, hp, rfl⟩
      rw [← hvalues] at hv
      obtain ⟨p', hp', hvalue⟩ := (mem_scopableValues _ _).1 hv
      rw [h'.eq_of_value h hp hp' hvalue.symm]
      exact hp'
  have hgranted : ∀ p ∈ scopable, (p.value ∈ granted ↔ p.value ∈ granted') := by
    intro p hp
    have hv : p.value ∈ scopableValues scopable := (mem_scopableValues _ _).2 ⟨p, hp, rfl⟩
    have hmem : p.value ∈ heldValues scopable granted ↔ p.value ∈ heldValues scopable' granted' := by
      rw [hheld]
    simpa [heldValues, ← hvalues, hv] using hmem
  obtain ⟨table, htable, hin, hout⟩ := resolve_lean_lookup rows policies scopes appId granted h
  obtain ⟨table', htable', hin', hout'⟩ :=
    resolve_lean_lookup rows policies' scopes' appId granted' h'
  have hverdicts : SameScopes (.ok table) (.ok table') ↔
      ∀ p ∈ scopable, rbacVerdict rows p granted = rbacVerdict rows p granted' := by
    constructor
    · intro hlookup p hp
      have hat : table.lookup p.value = table'.lookup p.value := hlookup p.value
      rw [hin p hp, hin' p ((hsame p).1 hp)] at hat
      exact Option.some.inj hat
    · intro hall value
      by_cases hvalue : ∃ p ∈ scopable, p.value = value
      · obtain ⟨p, hp, rfl⟩ := hvalue
        rw [hin p hp, hin' p ((hsame p).1 hp), hall p hp]
      · rw [hout value (fun p hp heq => hvalue ⟨p, hp, heq⟩),
          hout' value (fun p hp heq => hvalue ⟨p, (hsame p).2 hp, heq⟩)]
  rw [htable, htable', hverdicts]
  simp only [rbacVerdict_eq_iff, defeats_eq_iff]
  constructor
  · intro hall
    by_cases hblanket : ewsFullAccessAsApp ∈ granted ↔ ewsFullAccessAsApp ∈ granted'
    · exact Or.inl hblanket
    · refine Or.inr ?_
      intro p hp hrows
      by_contra hopen
      refine hblanket ?_
      have hor := hall p hp hrows
      simpa [← hgranted p hp, hopen] using hor
  · intro hcond p hp hrows
    rw [← hgranted p hp]
    rcases hcond with hblanket | hdefeated
    · rw [hblanket]
    · simp [hdefeated p hp hrows]

/-- A grant on another permission changes neither the key nor the verdict. -/
theorem audit_key_determines_other_grant :
    SameScopes (resolveMailScopes (readsOf [migratedRow] [] (fun _ => .ok none)) "app".toList
        [mailReadScopable] [] false)
      (resolveMailScopes (readsOf [migratedRow] [] (fun _ => .ok none)) "app".toList
        [mailReadScopable] ["Calendars.Read".toList] false) := by
  have hvetted : Vetted [mailReadScopable] := by
    intro p hp
    rw [List.mem_singleton.1 hp]
    exact ⟨mailRead, ofGrant_mailRead⟩
  refine (audit_key_determines_iff "t".toList "app".toList [mailReadScopable] [mailReadScopable] []
    ["Calendars.Read".toList] [migratedRow] [] [] (fun _ => .ok none) (fun _ => .ok none) hvetted
    hvetted ?_).2 (Or.inl ?_)
  · decide +kernel
  · decide

/-- The blanket grant changes the verdict, and not the key. -/
theorem blanket_grant_is_not_in_the_key :
    auditMailScopesKey "t".toList "app".toList [mailReadScopable] []
        = auditMailScopesKey "t".toList "app".toList [mailReadScopable] [ewsFullAccessAsApp] ∧
    ¬ SameScopes (resolveMailScopes (readsOf [migratedRow] [] (fun _ => .ok none)) "app".toList
        [mailReadScopable] [] false)
      (resolveMailScopes (readsOf [migratedRow] [] (fun _ => .ok none)) "app".toList
        [mailReadScopable] [ewsFullAccessAsApp] false) := by
  constructor
  · decide +kernel
  · intro hsame
    exact absurd (hsame "Mail.Read".toList) (by decide)

end Exchange
