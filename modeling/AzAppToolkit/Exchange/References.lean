import AzAppToolkit.Lib.Substring
import AzAppToolkit.Exchange.OpathSpans
import AzAppToolkit.Exchange.Migration

set_option autoImplicit false

/-! # What still references a group

`azapptoolkit-exchange/src/references.rs`, and `delete_exchange_scope_group` of
`commands/exchange/scope_group.rs`, which deletes a retired scope group only when nothing it can
enumerate references it.

Modelling choices:
* the records extend those of the other commands with the fields only this one reads;
* the two reads of `try_join!` are made one after the other; either error ends the command. -/

namespace Exchange

variable (uni : Unicode)

/-! ## References -/

/-- A management scope, with the identity that stands in for a missing name. -/
structure EnumeratedScope extends ExoManagementScope where
  identity : Option Text

/-- The identifiers one group answers to. -/
structure GroupIdentity where
  distinguishedName : Text
  name : Option Text
  primarySmtpAddress : Option Text

def GroupIdentity.identifiers (g : GroupIdentity) : List Text :=
  [some g.distinguishedName, g.name, g.primarySmtpAddress].filterMap id

def GroupIdentity.matches (g : GroupIdentity) (candidate : Text) : Bool :=
  let candidate := candidate.trim
  if candidate = [] then false
  else g.identifiers.any (fun i => i.eqIgnoreAsciiCase candidate)

/-- The text mentions the distinguished name anywhere, without regard to case. -/
def GroupIdentity.namedInText (g : GroupIdentity) (text : Text) : Bool :=
  let dn := g.distinguishedName.trim
  dn != [] && Text.contains (uni.toLowercase dn) (uni.toLowercase text)

def EnumeratedScope.label (s : EnumeratedScope) : Text :=
  (s.name <|> s.identity).getD "(unnamed)".toList

/-- The line for a scope that references the group. -/
def EnumeratedScope.reference (s : EnumeratedScope) : Text :=
  "management scope '".toList ++ s.label ++ "'".toList

/-- The line for a scope that may reference it. -/
def EnumeratedScope.possibleReference (s : EnumeratedScope) : Text :=
  s.reference ++ " (filter not fully readable — it may reference this group)".toList

/-- One round of the loop over the scopes. -/
def scopeReference (g : GroupIdentity) (s : EnumeratedScope) : Option Text :=
  match s.recipientFilter with
  | none => none
  | some filter =>
    let clauses := Opath.memberOfGroupClauses uni filter
    if clauses.any (fun c => g.matches c.dn) then some s.reference
    else if !(Opath.scopeGroupsInFilter uni filter).complete || g.namedInText uni filter then
      some s.possibleReference
    else none

/-- One round of the loop over the policies. -/
def policyReference (g : GroupIdentity) (p : ExoApplicationAccessPolicy) : Option Text :=
  match p.scopeName.filter g.matches <|> p.scopeIdentity.filter g.matches with
  | none => none
  | some _ => some ("Application Access Policy '".toList ++ p.identity.getD "(unnamed)".toList ++
      "' (app ".toList ++ p.appId.getD "unknown".toList ++ ")".toList)

def referencesToGroup (g : GroupIdentity) (scopes : List EnumeratedScope)
    (policies : List ExoApplicationAccessPolicy) : List Text :=
  scopes.filterMap (scopeReference uni g) ++ policies.filterMap (policyReference g)

/-! ## The delete -/

structure NamedGroup extends ExoGroup where
  name : Option Text
  primarySmtpAddress : Option Text

inductive DeleteCall where
  | exchangeClientChecked
  | getDistributionGroup (identity : Text)
  | listManagementScopes
  | getApplicationAccessPolicies
  | removeDistributionGroup (identity : Text)
deriving DecidableEq

abbrev DeleteAnswer : DeleteCall → Type
  | .exchangeClientChecked => Except UiError Unit
  | .getDistributionGroup _ => Except ExchangeError (Option NamedGroup)
  | .listManagementScopes => Except ExchangeError (List EnumeratedScope)
  | .getApplicationAccessPolicies => Except ExchangeError (List ExoApplicationAccessPolicy)
  | .removeDistributionGroup _ => Except ExchangeError Unit

def groupIdentityOf (groupIdentity : Text) (group : NamedGroup) : GroupIdentity :=
  { distinguishedName := group.distinguishedName.getD groupIdentity
    name := group.name
    primarySmtpAddress := group.primarySmtpAddress }

def deleteCall (c : DeleteCall) : Prog DeleteAnswer (DeleteAnswer c) := Prog.call c

/-- A client's result, with its error as a `UiError`. -/
def askExchange {α : Type} (p : Prog DeleteAnswer (Except ExchangeError α)) :
    ExceptT UiError (Prog DeleteAnswer) α :=
  ExceptT.mk (p >>= fun r => pure (r.mapError UiError.exchange))

def deleteExchangeScopeGroup (defaults : TenantDefaults) (appId groupIdentity : Text) :
    ExceptT UiError (Prog DeleteAnswer) Unit := do
  ExceptT.mk (deleteCall .exchangeClientChecked)
  match ← askExchange (deleteCall (.getDistributionGroup groupIdentity)) with
  | none => throw (UiError.notFound "group".toList
      ("no distribution or mail-enabled security group matches '".toList ++ groupIdentity ++
        "' — it may already have been deleted.".toList))
  | some group => do
      let identity := groupIdentityOf groupIdentity group
      let managed := defaults.groupNameFor appId
      if identity.matches managed then
        throw (UiError.validation "managed_group".toList ("'".toList ++ managed ++
          ("' is the toolkit-managed scope group this app's management scope now points at. " ++
            "Deleting it would remove the app's mailbox access entirely.").toList))
      else do
        let scopes ← askExchange (deleteCall .listManagementScopes)
        let policies ← askExchange (deleteCall .getApplicationAccessPolicies)
        let references := referencesToGroup uni identity scopes policies
        if references ≠ [] then
          throw (UiError.validation "group_in_use".toList ("'".toList ++
            identity.name.getD identity.distinguishedName ++ "' is still referenced by ".toList ++
            Text.join ", ".toList references ++ ". Repoint or remove those first.".toList))
        else askExchange (deleteCall (.removeDistributionGroup identity.distinguishedName))

variable {uni}

/-! ## What the guard sees -/

/-- The toolkit's own reading of a filter: a clause of it names the group, or a key of it is no
    clause it can read. -/
def NamesGroup (uni : Unicode) (g : GroupIdentity) (filter : Text) : Prop :=
  (∃ c ∈ Opath.memberOfGroupClauses uni filter,
    Opath.sameDn uni c.dn g.distinguishedName = true) ∨
  ∃ k ∈ Opath.memberOfGroupKeys (toAsciiLowercase filter), Opath.memberClauseAt uni filter k = none

/-- The filter spells the group out: an operand is one of its identifiers but for the case of ASCII
    letters, or the lower-cased distinguished name stands in the lower-cased filter. -/
def SpellsOut (uni : Unicode) (g : GroupIdentity) (filter : Text) : Prop :=
  (∃ c ∈ Opath.memberOfGroupClauses uni filter, Text.trim c.dn ≠ [] ∧
    ∃ i ∈ g.identifiers, toAsciiLowercase i = toAsciiLowercase (Text.trim c.dn)) ∨
  Text.trim g.distinguishedName ≠ [] ∧
    uni.toLowercase (Text.trim g.distinguishedName) <:+: uni.toLowercase filter

theorem matches_iff {g : GroupIdentity} {candidate : Text} : g.matches candidate = true ↔
    Text.trim candidate ≠ [] ∧
      ∃ i ∈ g.identifiers, toAsciiLowercase i = toAsciiLowercase (Text.trim candidate) := by
  unfold GroupIdentity.matches
  dsimp only
  split
  · next hempty => simp [hempty]
  · next hsome => simp [hsome, Text.eqIgnoreAsciiCase_iff]

theorem namedInText_iff {g : GroupIdentity} {text : Text} : g.namedInText uni text = true ↔
    Text.trim g.distinguishedName ≠ [] ∧
      uni.toLowercase (Text.trim g.distinguishedName) <:+: uni.toLowercase text := by
  simp [GroupIdentity.namedInText, Text.contains_iff]

theorem length_filterMap_eq {α β : Type} (f : α → Option β) (l : List α) :
    (l.filterMap f).length = l.length ↔ ∀ a ∈ l, f a ≠ none := by
  induction l with
  | nil => simp
  | cons a l ih =>
    have hle := List.length_filterMap_le f l
    cases hfa : f a with
    | none =>
      rw [List.filterMap_cons_none hfa, List.length_cons]
      constructor
      · intro hlen
        omega
      · intro hall
        exact absurd hfa (hall a List.mem_cons_self)
    | some b =>
      rw [List.filterMap_cons_some hfa, List.length_cons, List.length_cons, Nat.succ_inj, ih,
        List.forall_mem_cons]
      simp [hfa]

theorem complete_iff (filter : Text) : (Opath.scopeGroupsInFilter uni filter).complete = true ↔
    ∀ k ∈ Opath.memberOfGroupKeys (toAsciiLowercase filter),
      Opath.memberClauseAt uni filter k ≠ none := by
  rw [← length_filterMap_eq]
  simp only [Opath.scopeGroupsInFilter, Opath.memberOfGroupClauses, Opath.countMemberOfGroup,
    beq_iff_eq]

theorem scopeReference_eq_none {g : GroupIdentity} {s : EnumeratedScope} {filter : Text}
    (hfilter : s.recipientFilter = some filter) : scopeReference uni g s = none ↔
      ¬ SpellsOut uni g filter ∧ (Opath.scopeGroupsInFilter uni filter).complete = true := by
  have hany : (Opath.memberOfGroupClauses uni filter).any (fun c => g.matches c.dn) = true ↔
      ∃ c ∈ Opath.memberOfGroupClauses uni filter, g.matches c.dn = true := List.any_eq_true
  simp only [scopeReference, hfilter, SpellsOut, ← matches_iff, ← namedInText_iff]
  split
  · next hmatch =>
    simp [hany.1 hmatch]
  · next hmatch =>
    rw [hany] at hmatch
    split
    · next hother =>
      simp only [Bool.or_eq_true, Bool.not_eq_true'] at hother
      simp only [reduceCtorEq, false_iff, not_and, not_or]
      rintro ⟨-, hnamed⟩
      rcases hother with hopen | hnamed'
      · simp [hopen]
      · exact absurd hnamed' hnamed
    · next hother =>
      simp only [Bool.or_eq_true, Bool.not_eq_true', not_or, Bool.not_eq_false] at hother
      simp only [true_iff, not_or]
      exact ⟨⟨hmatch, hother.2⟩, hother.1⟩

/-- A reported scope is named by its line. -/
theorem scopeReference_names {g : GroupIdentity} {s : EnumeratedScope} {r : Text}
    (h : scopeReference uni g s = some r) : r = s.reference ∨ r = s.possibleReference := by
  unfold scopeReference at h
  split at h
  · exact absurd h (by simp)
  · simp only at h
    split at h
    · exact Or.inl (Option.some.inj h).symm
    · split at h
      · exact Or.inr (Option.some.inj h).symm
      · exact absurd h (by simp)

/-! ## Casing and apostrophes -/

theorem infix_of_trim (s : Text) : Text.trim s <:+: s := by
  have hback : Text.trim s <+: s.dropWhile isWhitespace := by
    have hsuffix := List.dropWhile_suffix isWhitespace (l := (s.dropWhile isWhitespace).reverse)
    rwa [← List.reverse_prefix, List.reverse_reverse] at hsuffix
  exact hback.isInfix.trans (List.dropWhile_suffix isWhitespace).isInfix

theorem infix_flatMap {α β : Type} (f : α → List β) {l s : List α} (h : l <:+: s) :
    l.flatMap f <:+: s.flatMap f := by
  obtain ⟨a, b, rfl⟩ := h
  exact ⟨a.flatMap f, b.flatMap f, by simp⟩

theorem escapeOpath_plain {s : Text} (h : '\'' ∉ s) : Opath.escapeOpath s = s := by
  induction s with
  | nil => rfl
  | cons c s ih =>
    rw [List.mem_cons, not_or] at h
    have hs := ih h.2
    simp only [Opath.escapeOpath] at hs
    simp [Opath.escapeOpath, hs, Ne.symm h.1]

/-- `str::to_lowercase` on texts without `Σ`, the one letter whose lower case depends on its place. -/
def LowersEach (uni : Unicode) (lower : Char → Text) : Prop :=
  ∀ s : Text, 'Σ' ∉ s → uni.toLowercase s = s.flatMap lower

/-- A clause of the group spells it out if its operand holds no apostrophe, which the filter would double,
    and also if it differs from the distinguished name in the case of ASCII letters only. -/
theorem spellsOut_of_operand {lower : Char → Text} (hlower : LowersEach uni lower) {g : GroupIdentity}
    {filter : Text} {c : Opath.MemberClause} (hc : c ∈ Opath.memberOfGroupClauses uni filter)
    (hsame : Opath.sameDn uni c.dn g.distinguishedName = true)
    (hsigma : 'Σ' ∉ filter ∧ 'Σ' ∉ g.distinguishedName)
    (hdn : Text.trim c.dn ≠ [] ∧ Text.trim g.distinguishedName ≠ []) (hoperand : '\'' ∉ c.dn ∨
      toAsciiLowercase g.distinguishedName = toAsciiLowercase (Text.trim c.dn)) :
    SpellsOut uni g filter := by
  rcases hoperand with hplain | hcase
  · have hstands := Opath.clause_operand hc
    rw [escapeOpath_plain hplain] at hstands
    have hfold : c.dn.flatMap lower = g.distinguishedName.flatMap lower := by
      rw [← hlower _ (fun h => hsigma.1 (hstands.subset h)), ← hlower _ hsigma.2]
      exact beq_iff_eq.1 hsame
    have htrim := infix_of_trim g.distinguishedName
    refine .inr ⟨hdn.2, ?_⟩
    rw [hlower _ (fun h => hsigma.2 (htrim.subset h)), hlower _ hsigma.1]
    exact (infix_flatMap lower htrim).trans (hfold ▸ infix_flatMap lower hstands)
  · exact .inl ⟨c, hc, hdn.1, g.distinguishedName, by simp [GroupIdentity.identifiers], hcase⟩

/-! ## Nothing referenced is deleted -/

/-- The calls of a run up to the removal of the group, with their answers. -/
def referenceReads (groupIdentity : Text) (group : NamedGroup) (scopes : List EnumeratedScope)
    (policies : List ExoApplicationAccessPolicy) : List (Prog.Exchanged DeleteAnswer) :=
  [⟨.exchangeClientChecked, .ok ()⟩, ⟨.getDistributionGroup groupIdentity, .ok (some group)⟩,
    ⟨.listManagementScopes, .ok scopes⟩, ⟨.getApplicationAccessPolicies, .ok policies⟩]

/-- What a run has read when it removes the group `dn`: its identifiers, and lists of scopes and
    policies in which nothing references it. -/
def Cleared (uni : Unicode) (groupIdentity : Text) (asked : List (Prog.Exchanged DeleteAnswer))
    (dn : Text) : Prop :=
  ∃ group scopes policies, asked = referenceReads groupIdentity group scopes policies ∧
    dn = (groupIdentityOf groupIdentity group).distinguishedName ∧
    referencesToGroup uni (groupIdentityOf groupIdentity group) scopes policies = []

section Delete

open Prog

variable {β : Type} {ok : List (Exchanged DeleteAnswer) → DeleteCall → Prop}
  {post : List (Exchanged DeleteAnswer) → Except UiError β → Prop}
  {s : List (Exchanged DeleteAnswer)}

/-- The rule for `?` on one of the reads. -/
theorem meets_askExchange {α : Type} {p : Prog DeleteAnswer (Except ExchangeError α)}
    {f : α → ExceptT UiError (Prog DeleteAnswer) β}
    (h : Meets history ok (OnResult (fun s a => Meets history ok post s (f a).run)
      (fun s e => post s (.error (.exchange e)))) s p) :
    Meets history ok post s (askExchange p >>= f).run := by
  refine Meets.tryBind (Meets.bind (h.mono (fun s r hr => ?_)))
  cases r with
  | ok a | error e => exact hr

/-- The rule for a call that removes nothing. -/
theorem meets_read (c : DeleteCall) (hc : ∀ dn, c ≠ .removeDistributionGroup dn)
    {P : List (Exchanged DeleteAnswer) → Text → Prop}
    {post : List (Exchanged DeleteAnswer) → DeleteAnswer c → Prop} (h : ∀ r, post (s ++ [⟨c, r⟩]) r) :
    Meets history (fun asked c => ∀ dn, c = .removeDistributionGroup dn → P asked dn) post s
      (deleteCall c) :=
  Meets.remember (fun dn hdn => absurd hdn (hc dn)) h

variable (uni) in
/-- A run removes no group but one it has cleared. -/
theorem delete_removes_cleared (defaults : TenantDefaults) (appId groupIdentity : Text) :
    Meets history
      (fun asked c => ∀ dn, c = .removeDistributionGroup dn → Cleared uni groupIdentity asked dn)
      (fun _ _ => True) []
      (deleteExchangeScopeGroup uni defaults appId groupIdentity).run := by
  refine Meets.tryBind (meets_read .exchangeClientChecked (by simp) ?_)
  intro client
  cases client with
  | error e => trivial
  | ok client =>
    refine meets_askExchange (meets_read (.getDistributionGroup groupIdentity) (by simp) ?_)
    intro found
    cases found with
    | error e => trivial
    | ok found =>
      cases found with
      | none => trivial
      | some group =>
        show Meets _ _ _ _ (ite _ _ _ : ExceptT UiError (Prog DeleteAnswer) Unit).run
        split
        · trivial
        · refine meets_askExchange (meets_read (.listManagementScopes) (by simp) ?_)
          intro scopes
          cases scopes with
          | error e => trivial
          | ok scopes =>
            refine meets_askExchange (meets_read (.getApplicationAccessPolicies) (by simp) ?_)
            intro policies
            cases policies with
            | error e => trivial
            | ok policies =>
              show Meets _ _ _ _
                (ite _ _ _ : ExceptT UiError (Prog DeleteAnswer) Unit).run
              split
              · trivial
              · next hnone =>
                refine ⟨?_, fun _ _ _ => trivial⟩
                intro dn hdn
                obtain rfl := DeleteCall.removeDistributionGroup.inj hdn
                exact ⟨group, scopes, policies, rfl, rfl, not_not.1 hnone⟩

end Delete

/-! ## When the guard misses no scope -/

/-- A scope that names the group by the toolkit's own reading is reported, whatever else is listed,
    exactly when its filter holds a key that is no clause, or spells the group out; which it does if an
    operand that names it holds no apostrophe or is its distinguished name but for the case of ASCII
    letters. The delete removes nothing that a listed scope or policy is reported to reference. -/
theorem scope_is_reported_iff (uni : Unicode) (g : GroupIdentity) (s : EnumeratedScope)
    (filter : Text) (hfilter : s.recipientFilter = some filter) :
    ((NamesGroup uni g filter → ∀ scopes policies, s ∈ scopes →
        ∃ r ∈ referencesToGroup uni g scopes policies, r = s.reference ∨ r = s.possibleReference)
      ↔ ((∀ k ∈ Opath.memberOfGroupKeys (toAsciiLowercase filter),
            Opath.memberClauseAt uni filter k ≠ none) →
          (∃ c ∈ Opath.memberOfGroupClauses uni filter,
            Opath.sameDn uni c.dn g.distinguishedName = true) → SpellsOut uni g filter)) ∧
    (∀ lower, LowersEach uni lower → 'Σ' ∉ filter ∧ 'Σ' ∉ g.distinguishedName →
      ∀ c ∈ Opath.memberOfGroupClauses uni filter,
        Opath.sameDn uni c.dn g.distinguishedName = true →
        Text.trim c.dn ≠ [] ∧ Text.trim g.distinguishedName ≠ [] →
        ('\'' ∉ c.dn ∨ toAsciiLowercase g.distinguishedName = toAsciiLowercase (Text.trim c.dn)) →
        SpellsOut uni g filter) ∧
    ∀ (defaults : TenantDefaults) (appId groupIdentity : Text),
      Prog.Meets Prog.history
        (fun asked c => ∀ dn, c = .removeDistributionGroup dn → Cleared uni groupIdentity asked dn)
        (fun _ _ => True) []
        (deleteExchangeScopeGroup uni defaults appId groupIdentity).run := by
  refine ⟨?_, fun lower hlower hsigma c hc hsame hdn hoperand =>
    spellsOut_of_operand hlower hc hsame hsigma hdn hoperand, delete_removes_cleared uni⟩
  constructor
  · intro hreported hread hsame
    obtain ⟨r, hr, -⟩ := hreported (Or.inl hsame) [s] [] List.mem_cons_self
    by_contra hmissed
    have hnone : scopeReference uni g s = none :=
      (scopeReference_eq_none hfilter).2 ⟨hmissed, (complete_iff filter).2 hread⟩
    simp [referencesToGroup, hnone] at hr
  · intro hspells hnames scopes policies hs
    have hsome : scopeReference uni g s ≠ none := by
      intro hnone
      obtain ⟨hmissed, hcomplete⟩ := (scopeReference_eq_none hfilter).1 hnone
      have hread := (complete_iff filter).1 hcomplete
      rcases hnames with hsame | ⟨k, hk, hunread⟩
      · exact hmissed (hspells hread hsame)
      · exact hread k hk hunread
    obtain ⟨r, hr⟩ := Option.ne_none_iff_exists'.1 hsome
    refine ⟨r, ?_, scopeReference_names hr⟩
    exact List.mem_append_left _ (List.mem_filterMap.2 ⟨s, hs, hr⟩)

/-- The tables on the characters of Latin-1. -/
def latinUnicode : Unicode where
  isAlphanumeric c := c.isAlphanum || [0xAA, 0xB2, 0xB3, 0xB5, 0xB9, 0xBA, 0xBC, 0xBD,
    0xBE].contains c.toNat || (0xC0 ≤ c.toNat && c.toNat ≤ 0xFF && c.toNat != 0xD7 && c.toNat != 0xF7)
  toLowercase s := s.map (fun c =>
    if 0xC0 ≤ c.toNat && c.toNat ≤ 0xDE && c.toNat != 0xD7 then Char.ofNat (c.toNat + 32)
    else c.toLower)
  isAlphanumeric_ascii c h := by
    have hlow : ¬ 0xC0 ≤ c.toNat := by omega
    simp [hlow]
    intro hother
    omega

/-- A group whose name holds an umlaut and an apostrophe. -/
def umlautGroup : NamedGroup :=
  { distinguishedName := some "CN=Zürich O'Brien,DC=x".toList
    name := some "Zürich O'Brien".toList
    primarySmtpAddress := some "zurich@x.example".toList }

/-- A scope that names it in the casing Exchange echoed. -/
def umlautScope : EnumeratedScope :=
  { name := some "mail".toList
    recipientFilter := some "MemberOfGroup -eq 'CN=ZÜRICH O''BRIEN,DC=x'".toList
    identity := none }

/-- A scope of a group without an apostrophe, in another casing, is reported. -/
theorem scope_is_reported_umlaut :
    let g : GroupIdentity := ⟨"CN=Zürich,DC=x".toList, none, none⟩
    let s : EnumeratedScope := ⟨⟨some "mail".toList, some "MemberOfGroup -eq 'CN=ZÜRICH,DC=x'".toList⟩, none⟩
    ∃ r ∈ referencesToGroup latinUnicode g [s] [], r = s.reference ∨ r = s.possibleReference := by
  intro g s
  obtain ⟨hiff, hplain, -⟩ := scope_is_reported_iff latinUnicode g s _ rfl
  have hc : (⟨(0, 34), "CN=ZÜRICH,DC=x".toList⟩ : Opath.MemberClause) ∈
      Opath.memberOfGroupClauses latinUnicode "MemberOfGroup -eq 'CN=ZÜRICH,DC=x'".toList := by decide
  have hsame : Opath.sameDn latinUnicode "CN=ZÜRICH,DC=x".toList g.distinguishedName = true := by decide
  have hspells := hplain _ (fun _ _ => List.map_eq_flatMap ..) (by decide) _ hc hsame (by decide)
    (.inl (by decide))
  exact hiff.2 (fun _ _ => hspells) (.inl ⟨_, hc, hsame⟩) [s] [] List.mem_cons_self

/-- A tenant with that group and that scope, and the calls it was sent. -/
def umlautTenant (asked : List DeleteCall) (c : DeleteCall) :
    Option (DeleteAnswer c × List DeleteCall) :=
  some (match c with
    | .exchangeClientChecked => .ok ()
    | .getDistributionGroup _ => .ok (some umlautGroup)
    | .listManagementScopes => .ok [umlautScope]
    | .getApplicationAccessPolicies => .ok []
    | .removeDistributionGroup _ => .ok (), asked ++ [c])

/-- The toolkit reads the scope as the group's, and the delete finds no reference and removes it. -/
theorem escaped_name_is_missed :
    NamesGroup latinUnicode (groupIdentityOf "zurich@x.example".toList umlautGroup)
      "MemberOfGroup -eq 'CN=ZÜRICH O''BRIEN,DC=x'".toList ∧
    referencesToGroup latinUnicode (groupIdentityOf "zurich@x.example".toList umlautGroup)
      [umlautScope] [] = [] ∧
    (Prog.run umlautTenant (deleteExchangeScopeGroup latinUnicode ⟨none, none⟩ "app".toList
        "zurich@x.example".toList).run []).map (·.2)
      = some [.exchangeClientChecked, .getDistributionGroup "zurich@x.example".toList,
          .listManagementScopes, .getApplicationAccessPolicies,
          .removeDistributionGroup "CN=Zürich O'Brien,DC=x".toList] := by
  refine ⟨Or.inl ⟨⟨(0, 43), "CN=ZÜRICH O'BRIEN,DC=x".toList⟩, ?_, ?_⟩, ?_, ?_⟩
  · decide
  · decide
  · decide
  · decide

end Exchange
