import AzAppToolkit.Lib.Memo
import AzAppToolkit.Lib.Separators
import AzAppToolkit.Lib.Text

set_option autoImplicit false

/-! # Principals of a backup

`commands/restore/principals.rs`: an owner, an assignee or a group of the backup is resolved to its
object in the destination, and the answer is kept for the run under `principal_cache_key`.

Modelling choices:
* the directory does not change: a lookup is a function of what is looked up;
* the note a failed lookup leaves on the session is left out: the memo does not read it. -/

namespace Restore

/-! ## Data -/

structure PrincipalRef where
  sourceId : Text
  displayName : Option Text
  userPrincipalName : Option Text
  principalType : Option Text

inductive PrincipalKind where
  | user
  | group
  | either
  | other (type : Text)
deriving DecidableEq

def graphTypePrefix : Text := "#microsoft.graph.".toList

/-- Where a principal is looked up by name. -/
def principalKind (principal : PrincipalRef) : PrincipalKind :=
  match (principal.principalType.map Text.trim).filter (fun t => !t.isEmpty) with
  | none => .either
  | some raw =>
    let bare :=
      if graphTypePrefix.isPrefixOf raw then raw.drop graphTypePrefix.length else raw
    if toAsciiLowercase bare = "user".toList then .user
    else if toAsciiLowercase bare = "group".toList then .group
    else .other bare

inductive Unresolved where
  | notFound
  | ambiguous (count : Nat)
  | lookupFailed
  | unsupportedType (type : Text)
deriving DecidableEq

abbrev Resolution := Except Unresolved Text

structure DirectoryObject where
  id : Text
  displayName : Option Text

inductive LookupError where
  | failed

/-- The lookups of the destination. -/
structure PrincipalDirectory where
  findUserByUpn : Text → Except LookupError (Option Text)
  findUsersByDisplayName : Text → Except LookupError (List DirectoryObject)
  findGroupsByDisplayName : Text → Except LookupError (List DirectoryObject)

/-! ## Resolving -/

/-- The user principal name, if it is not empty. -/
def upnOf (principal : PrincipalRef) : Option Text :=
  principal.userPrincipalName.filter (fun s => !s.isEmpty)

/-- The display name, if it is not empty. -/
def nameOf (principal : PrincipalRef) : Option Text :=
  principal.displayName.filter (fun s => !s.isEmpty)

def kindText : PrincipalKind → Text
  | .user => "user".toList
  | .group => "group".toList
  | .either => "any".toList
  | .other type => type

def principalCacheKey (principal : PrincipalRef) : Option Text :=
  match upnOf principal with
  | some upn => some ("upn:".toList ++ toAsciiLowercase upn)
  | none =>
    (nameOf principal).map
      (fun name => "name:".toList ++ (kindText (principalKind principal) ++ ':' :: name))

def exactlyOne : List Text → Resolution
  | [id] => .ok id
  | [] => .error .notFound
  | ids => .error (.ambiguous ids.length)

/-- The hits whose display name equals the name without regard to case. -/
def exactNameMatches (u : Unicode) (hits : List DirectoryObject) (name : Text) : List Text :=
  (hits.filter (fun h => h.displayName.map u.toLowercase == some (u.toLowercase name))).map (·.id)

/-- The matches in a collection, if it is searched. -/
def searchNames (u : Unicode) (wanted : Bool)
    (find : Text → Except LookupError (List DirectoryObject)) (name : Text) :
    Except Unresolved (List Text) :=
  if wanted then
    match find name with
    | .ok hits => .ok (exactNameMatches u hits name)
    | .error _ => .error .lookupFailed
  else .ok []

/-- Look a name up in the collections of a kind, groups first. -/
def resolveName (u : Unicode) (d : PrincipalDirectory) (kind : PrincipalKind) (name : Text) :
    Resolution :=
  match kind with
  | .other type => .error (.unsupportedType type)
  | _ => do
      let groups ← searchNames u (kind != .user) d.findGroupsByDisplayName name
      let users ← searchNames u (kind != .group) d.findUsersByDisplayName name
      exactlyOne (groups ++ users)

def resolvePrincipalUncached (u : Unicode) (d : PrincipalDirectory) (principal : PrincipalRef) :
    Resolution :=
  match upnOf principal with
  | some upn =>
    match d.findUserByUpn upn with
    | .ok (some id) => .ok id
    | .ok none => .error .notFound
    | .error _ => .error .lookupFailed
  | none =>
    match nameOf principal with
    | none => .error .notFound
    | some name => resolveName u d (principalKind principal) name

/-- What was resolved in the run so far. -/
abbrev PrincipalMemo := Table Text Resolution

def resolvePrincipal (u : Unicode) (d : PrincipalDirectory) (principal : PrincipalRef)
    (cache : PrincipalMemo) : Resolution × PrincipalMemo :=
  match principalCacheKey principal with
  | none => (.error .notFound, cache)
  | some key =>
    match cache.lookup key with
    | some cached => (cached, cache)
    | none =>
      let resolved := resolvePrincipalUncached u d principal
      (resolved, cache.insert key resolved)

/-- Resolve one principal after the other. -/
def resolveAll (u : Unicode) (d : PrincipalDirectory) :
    List PrincipalRef → PrincipalMemo → List Resolution × PrincipalMemo
  | [], cache => ([], cache)
  | principal :: rest, cache =>
    let first := resolvePrincipal u d principal cache
    let others := resolveAll u d rest first.2
    (first.1 :: others.1, others.2)

/-! ## The memo -/

/-- Two named principals without a user principal name that are read as different kinds and share the
    text of kind and name. -/
structure Clash (p q : PrincipalRef) : Prop where
  unkeyed : upnOf p = none ∧ upnOf q = none
  kinds : principalKind p ≠ principalKind q
  texts : ∃ n m, nameOf p = some n ∧ nameOf q = some m ∧
    kindText (principalKind p) ++ ':' :: n = kindText (principalKind q) ++ ':' :: m

variable {d : PrincipalDirectory}

theorem uncached_of_no_key {u : Unicode} {p : PrincipalRef}
    (h : principalCacheKey p = none) : resolvePrincipalUncached u d p = .error .notFound := by
  unfold principalCacheKey at h
  unfold resolvePrincipalUncached
  cases hupn : upnOf p with
  | some upn =>
    rw [hupn] at h
    exact absurd h (by simp)
  | none =>
    rw [hupn] at h
    rw [Option.map_eq_none_iff.1 h]

/-- The memo of the run serves the uncached answers. -/
theorem resolvePrincipal_eq_serve (u : Unicode) (d : PrincipalDirectory) (p : PrincipalRef)
    (cache : PrincipalMemo) :
    resolvePrincipal u d p cache
      = Memo.serve principalCacheKey (resolvePrincipalUncached u d) p cache := by
  unfold resolvePrincipal Memo.serve
  cases hkey : principalCacheKey p with
  | none => rw [uncached_of_no_key hkey]
  | some key => cases hlookup : cache.lookup key <;> simp only [hlookup]

theorem resolveAll_eq_serveAll (u : Unicode) (d : PrincipalDirectory) (ps : List PrincipalRef)
    (cache : PrincipalMemo) :
    resolveAll u d ps cache
      = Memo.serveAll principalCacheKey (resolvePrincipalUncached u d) ps cache := by
  induction ps generalizing cache with
  | nil => rfl
  | cons p ps ih =>
    unfold resolveAll Memo.serveAll
    simp only [resolvePrincipal_eq_serve, ih]

/-! ### Keys -/

theorem principalCacheKey_upn {p : PrincipalRef} {upn : Text} (h : upnOf p = some upn) :
    principalCacheKey p = some ("upn:".toList ++ toAsciiLowercase upn) := by
  unfold principalCacheKey
  rw [h]

theorem principalCacheKey_name {p : PrincipalRef} {name : Text} (hupn : upnOf p = none)
    (hname : nameOf p = some name) :
    principalCacheKey p
      = some ("name:".toList ++ (kindText (principalKind p) ++ ':' :: name)) := by
  unfold principalCacheKey
  rw [hupn, hname]
  rfl

theorem uncached_name {u : Unicode} {p : PrincipalRef} {name : Text}
    (hupn : upnOf p = none) (hname : nameOf p = some name) :
    resolvePrincipalUncached u d p = resolveName u d (principalKind p) name := by
  unfold resolvePrincipalUncached
  rw [hupn, hname]

theorem colon_not_mem_kindText {kind : PrincipalKind} (h : ∀ type, kind ≠ .other type) :
    ':' ∉ kindText kind := by
  cases kind with
  | user | group | either => decide
  | other type => exact absurd rfl (h type)

/-- A kind that is looked up never ends in the verdict on a kind that is not. -/
theorem resolveName_ne_unsupported {u : Unicode} {kind : PrincipalKind}
    (h : ∀ type, kind ≠ .other type) (name type : Text) :
    resolveName u d kind name ≠ .error (.unsupportedType type) := by
  have hone : ∀ ids, exactlyOne ids ≠ .error (.unsupportedType type) := by
    intro ids
    rcases ids with _ | ⟨a, _ | ⟨b, rest⟩⟩ <;> simp [exactlyOne]
  have hsearch : ∀ wanted find, searchNames u wanted find name ≠ .error (.unsupportedType type) := by
    intro wanted find
    unfold searchNames
    cases wanted with
    | false => simp
    | true =>
      cases find name with
      | ok hits => simp
      | error e => simp
  have hlookups : ∀ k : PrincipalKind, (do
      let groups ← searchNames u (k != PrincipalKind.user) d.findGroupsByDisplayName name
      let users ← searchNames u (k != PrincipalKind.group) d.findUsersByDisplayName name
      exactlyOne (groups ++ users)) ≠ .error (.unsupportedType type) := by
    intro k
    cases hgroups : searchNames u (k != PrincipalKind.user) d.findGroupsByDisplayName name with
    | error e =>
      intro heq
      have he : e = .unsupportedType type := Except.error.inj heq
      exact hsearch _ _ (hgroups.trans (congrArg Except.error he))
    | ok groups =>
      cases husers : searchNames u (k != PrincipalKind.group) d.findUsersByDisplayName name with
      | error e =>
        intro heq
        have he : e = .unsupportedType type := Except.error.inj heq
        exact hsearch _ _ (husers.trans (congrArg Except.error he))
      | ok users => exact hone _
  cases kind with
  | user => exact hlookups .user
  | group => exact hlookups .group
  | either => exact hlookups .either
  | other type' => exact absurd rfl (h type')

/-- Different kinds under one text of kind and name do not resolve alike. -/
theorem resolveName_ne_of_clash {u : Unicode} {k k' : PrincipalKind}
    {n n' : Text} (hne : k ≠ k') (htext : kindText k ++ ':' :: n = kindText k' ++ ':' :: n') :
    resolveName u d k n ≠ resolveName u d k' n' := by
  by_cases hk : ∃ type, k = .other type
  · obtain ⟨type, rfl⟩ := hk
    by_cases hk' : ∃ type', k' = .other type'
    · obtain ⟨type', rfl⟩ := hk'
      intro heq
      apply hne
      obtain rfl : type = type' := by simpa [resolveName] using heq
      rfl
    · rw [not_exists] at hk'
      exact fun heq => resolveName_ne_unsupported hk' n' type heq.symm
  · rw [not_exists] at hk
    by_cases hk' : ∃ type', k' = .other type'
    · obtain ⟨type', rfl⟩ := hk'
      exact fun heq => resolveName_ne_unsupported hk n type' heq
    · rw [not_exists] at hk'
      obtain ⟨hkinds, -⟩ := Separators.append_sep_inj (colon_not_mem_kindText hk)
        (colon_not_mem_kindText hk') htext
      have hdistinct : ∀ k k' : PrincipalKind, (∀ type, k ≠ .other type) →
          (∀ type, k' ≠ .other type) → kindText k = kindText k' → k = k' := by
        intro k k' h h' heq
        cases k <;> cases k' <;>
          first
          | rfl
          | exact absurd rfl (h _)
          | exact absurd rfl (h' _)
          | exact absurd heq (by decide)
      exact absurd (hdistinct k k' hk hk' hkinds) hne

/-! ### Transparency -/

/-- A lookup by user principal name does not see its case. -/
def IgnoresUpnCase (d : PrincipalDirectory) : Prop :=
  ∀ a b, toAsciiLowercase a = toAsciiLowercase b → d.findUserByUpn a = d.findUserByUpn b

theorem coherent_iff_no_clash {u : Unicode} (hcase : IgnoresUpnCase d) (ps : List PrincipalRef) :
    Memo.Coherent principalCacheKey (resolvePrincipalUncached u d) ps ↔
      ∀ p ∈ ps, ∀ q ∈ ps, ¬ Clash p q := by
  constructor
  · rintro hcoherent p hp q hq ⟨⟨hpupn, hqupn⟩, hkinds, n, m, hn, hm, htext⟩
    have hsame := hcoherent p hp q hq _ (principalCacheKey_name hpupn hn)
      (by rw [principalCacheKey_name hqupn hm, htext])
    rw [uncached_name hpupn hn, uncached_name hqupn hm] at hsame
    exact resolveName_ne_of_clash hkinds htext hsame
  · intro hclear p hp q hq key hpkey hqkey
    have hbegins : ∀ a b : Text, "upn:".toList ++ a ≠ "name:".toList ++ b := by
      intro a b heq
      exact absurd (List.cons.inj heq).1 (by decide)
    cases hpupn : upnOf p with
    | some upn =>
      rw [principalCacheKey_upn hpupn] at hpkey
      cases hqupn : upnOf q with
      | some upn' =>
        rw [principalCacheKey_upn hqupn, ← hpkey] at hqkey
        have hlower := List.append_cancel_left (Option.some.inj hqkey)
        unfold resolvePrincipalUncached
        rw [hpupn, hqupn]
        simp only [hcase upn upn' hlower.symm]
      | none =>
        unfold principalCacheKey at hqkey
        rw [hqupn, ← hpkey] at hqkey
        obtain ⟨name, -, heq⟩ := Option.map_eq_some_iff.1 hqkey
        exact absurd heq.symm (hbegins _ _)
    | none =>
      obtain ⟨n, hn⟩ : ∃ n, nameOf p = some n := by
        unfold principalCacheKey at hpkey
        rw [hpupn] at hpkey
        obtain ⟨n, hn, -⟩ := Option.map_eq_some_iff.1 hpkey
        exact ⟨n, hn⟩
      rw [principalCacheKey_name hpupn hn] at hpkey
      cases hqupn : upnOf q with
      | some upn' =>
        rw [principalCacheKey_upn hqupn, ← hpkey] at hqkey
        exact absurd (Option.some.inj hqkey) (hbegins _ _)
      | none =>
        obtain ⟨m, hm⟩ : ∃ m, nameOf q = some m := by
          unfold principalCacheKey at hqkey
          rw [hqupn] at hqkey
          obtain ⟨m, hm, -⟩ := Option.map_eq_some_iff.1 hqkey
          exact ⟨m, hm⟩
        rw [principalCacheKey_name hqupn hm, ← hpkey] at hqkey
        have htext := List.append_cancel_left (Option.some.inj hqkey)
        have hkinds : principalKind p = principalKind q := by
          by_contra hne
          exact hclear p hp q hq ⟨⟨hpupn, hqupn⟩, hne, n, m, hn, hm, htext.symm⟩
        rw [hkinds] at htext
        obtain rfl := (List.cons.inj (List.append_cancel_left htext)).2
        rw [uncached_name hpupn hn, uncached_name hqupn hm, hkinds]

/-- Every principal of a run is resolved as if alone unless two of them clash. -/
theorem principal_memo_transparent (u : Unicode) (d : PrincipalDirectory) (hcase : IgnoresUpnCase d)
    (ps : List PrincipalRef) :
    (resolveAll u d ps ∅).1 = ps.map (resolvePrincipalUncached u d) ↔
      ∀ p ∈ ps, ∀ q ∈ ps, ¬ Clash p q := by
  rw [resolveAll_eq_serveAll, Memo.serveAll_empty_eq_map]
  exact coherent_iff_no_clash hcase ps

/-- A directory with one user, `Ops`. -/
def opsDirectory : PrincipalDirectory where
  findUserByUpn := fun _ => .ok none
  findUsersByDisplayName := fun _ => .ok [⟨"u1".toList, some "Ops".toList⟩]
  findGroupsByDisplayName := fun _ => .ok []

theorem isAlphanum_ascii (c : Char) (_ : c.toNat < 128) : c.isAlphanum = c.isAlphanum := rfl

/-- The Unicode tables of ASCII text. -/
def asciiTables : Unicode where
  isAlphanumeric := Char.isAlphanum
  toLowercase := toAsciiLowercase
  isAlphanumeric_ascii := isAlphanum_ascii

/-- A principal known by its name, with a type or without. -/
def named (name : String) (type : Option String) : PrincipalRef :=
  ⟨"s1".toList, some name.toList, none, type.map String.toList⟩

/-- The type `any` is the word for no type: after a principal without a type, one that cannot be looked
    up by name is bound to its namesake. -/
theorem principal_memo_not_transparent :
    ¬ ∀ (u : Unicode) (d : PrincipalDirectory), IgnoresUpnCase d → ∀ ps,
      (resolveAll u d ps ∅).1 = ps.map (resolvePrincipalUncached u d) := by
  intro h
  have hsame := h asciiTables opsDirectory (fun _ _ _ => rfl)
    [named "Ops" none, named "Ops" (some "any")]
  exact absurd hsame (by decide)

/-- A user and a group of one name are told apart. -/
theorem principal_memo_transparent_user_group :
    (resolveAll asciiTables opsDirectory [named "Ops" (some "User"), named "Ops" (some "Group")] ∅).1
      = [.ok "u1".toList, .error .notFound] := by
  rw [(principal_memo_transparent asciiTables opsDirectory (fun _ _ _ => rfl) _).2]
  · decide
  · have hkinds : principalKind (named "Ops" (some "User")) = .user ∧
        principalKind (named "Ops" (some "Group")) = .group := by decide
    intro p hp q hq hclash
    obtain ⟨n, m, -, -, htext⟩ := hclash.texts
    have hne := hclash.kinds
    simp only [List.mem_cons, List.not_mem_nil, or_false] at hp hq
    rcases hp with rfl | rfl <;> rcases hq with rfl | rfl
    · exact hne rfl
    · rw [hkinds.1, hkinds.2] at htext
      exact absurd (List.cons.inj htext).1 (by decide)
    · rw [hkinds.1, hkinds.2] at htext
      exact absurd (List.cons.inj htext).1 (by decide)
    · exact hne rfl

end Restore
