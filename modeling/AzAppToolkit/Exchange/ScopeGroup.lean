import AzAppToolkit.Exchange.Calls

set_option autoImplicit false

/-! # The scope and the group behind it

`commands/exchange/scope_group.rs` with the pure decisions it rests on (`aap.rs`, the consolidation
half of `targets.rs`) and `set_management_scope_filter` of `client/rbac.rs`: reading the filter an
existing scope has, comparing it with the one a run wants, repointing it, and copying the members of
the source groups into the toolkit-managed group.

A `HashSet` is the list of its elements. The member adds of a copy run several at a time and in any
order; they are written one after the other, in list order. -/

namespace Exchange

variable (uni : Unicode)

/-! ## Comparing filters -/

/-- Equality of two `HashSet`s. -/
def sameSet (a b : List Text) : Bool := a.all (fun x => b.contains x) && b.all (fun x => a.contains x)

/-- `current` confines access to exactly the groups `wanted` names. -/
def scopeFilterAgrees (current wanted : Text) : Bool :=
  match Opath.exactScopeDns uni current, Opath.exactScopeDns uni wanted with
  | some c, some w => sameSet c w
  | _, _ => false

/-- The filter confines access to the group `dn` and nothing else. -/
def filterNamesOnlyGroup (filter dn : Text) : Bool :=
  (Opath.exactScopeDns uni filter).any (fun dns => dns.all (fun d => d == Opath.foldDn uni dn))

def quoted (name : Text) : Text := "“".toList ++ name ++ "”".toList

/-- The decision half of `existing_scope_filter_checked`: a scope without a filter is refused. -/
def scopeFilterDecision (read : Option ExoManagementScope) (scopeName consequence : Text) :
    Except UiError (Option Text) :=
  match read with
  | none => .ok none
  | some s =>
    match s.recipientFilter with
    | some filter => .ok (some filter)
    | none => .error (.validation "scope_filter_unreadable".toList
        ("a management scope ".toList ++ quoted scopeName ++
          (" already exists for this app but has no recipient restriction filter, so it confines " ++
            "nothing — and Exchange keeps the existing scope rather than replacing it. ").toList ++
          consequence ++ (" Nothing was changed. Review the scope in Exchange, or use “Move to " ++
            "managed group” to consolidate onto the toolkit-managed group.").toList))

def existingScopeFilterChecked (scopeName consequence : Text) :
    AsyncResult UiError (Option Text) := do
  let read ← orUiError .exchange (call (.getManagementScope scopeName))
  ExceptT.mk (pure (scopeFilterDecision read scopeName consequence))

/-! ## Repointing a scope -/

def unreadFilterRefusal (name : Text) : ExchangeError :=
  .protocol ("refusing to set management scope '".toList ++ name ++
    ("' to a filter this client cannot fully read: it holds a MemberOfGroup token that is not a " ++
      "plain `-eq '…'` comparison, so the groups it would confine access to cannot be stated. " ++
      "Nothing was changed.").toList)

/-- Why a filter may not be set: what is written must be a group set the client can prove. -/
def setFilterRefusal (name filter : Text) : Opath.UnrewritableFilter → ExchangeError
  | .noGroupClauses =>
    if Opath.countMemberOfGroup filter > 0 then unreadFilterRefusal name
    else .protocol ("refusing to set management scope '".toList ++ name ++
      ("' to a filter that confines nothing (names no MemberOfGroup clause). Repointing a scope " ++
        "at an empty filter widens every role assignment using it to the whole organization."
        ).toList)
  | .unparsedClause => unreadFilterRefusal name
  | .unsupportedClause leftover => .protocol ("refusing to set management scope '".toList ++ name ++
      "' to a filter that combines group membership with other conditions (".toList ++ leftover ++
      ("): this client can only prove a pure MemberOfGroup OR-chain landed, so the reach it would " ++
        "give every role assignment using the scope cannot be stated. Nothing was changed.").toList)

/-- The scope as Exchange has it after `Set-ManagementScope`, which may return nothing. -/
def scopeAfterSet (name : Text) (updated : Option ExoManagementScope) :
    AsyncResult ExchangeError ExoManagementScope :=
  match updated with
  | some updated => pure updated
  | none => do
      match ← ExceptT.mk (call (.getManagementScope name)) with
      | some s => pure s
      | none => throw (.protocol ("management scope '".toList ++ name ++
          "' disappeared after Set-ManagementScope".toList))

/-- The proof that the filter landed: the folded group sets are the same. -/
def provedLanded (name : Text) (wanted : List Text) (landedScope : ExoManagementScope) :
    Except ExchangeError ExoManagementScope :=
  match landedScope.recipientFilter.bind (Opath.exactScopeDns uni) with
  | none => .error (.protocol ("management scope '".toList ++ name ++
      ("' has a recipient filter this client cannot read as a pure MemberOfGroup OR-chain, so it " ++
        "cannot prove the filter it just wrote took effect. The scope may or may not have been " ++
        "repointed; inspect it in Exchange before relying on it.").toList))
  | some landed =>
    if sameSet wanted landed then .ok landedScope
    else .error (.protocol ("management scope '".toList ++ name ++
      "' did not take the filter it was given: asked for ".toList ++
      (toString wanted.dedup.length).toList ++ " group(s), Exchange reports ".toList ++
      (toString landed.dedup.length).toList ++
      (". The scope was NOT repointed as requested; role assignments using it still reach the " ++
        "previous group set.").toList))

/-- Write the filter, and prove from what Exchange then has that it landed. -/
def setManagementScopeFilter (name recipientRestrictionFilter : Text) :
    AsyncResult ExchangeError ExoManagementScope :=
  match Opath.rewritableScopeDns uni recipientRestrictionFilter with
  | .error why => throw (setFilterRefusal name recipientRestrictionFilter why)
  | .ok dns => do
      let updated ← ExceptT.mk (call (.setManagementScope name recipientRestrictionFilter))
      let landedScope ← scopeAfterSet name updated
      ExceptT.mk (pure (provedLanded uni name (dns.map (Opath.foldDn uni)) landedScope))

/-- Never fatal: a repoint that cannot be made leaves the scope as it was. -/
def repointScopeIfStale (scopeName current wantedFilter : Text) : Async Unit :=
  match Opath.rewritableScopeDns uni current with
  | .error why => warn (.scopeLeft scopeName current why)
  | .ok currentDns =>
    if (Opath.exactScopeDns uni wantedFilter).any
        (fun w => sameSet w (currentDns.map (Opath.foldDn uni))) then pure ()
    else do
      match ← (setManagementScopeFilter uni scopeName wantedFilter).run with
      | .ok _ => warn (.scopeRepointed scopeName)
      | .error err => warn (.scopeNotRepointed scopeName err)

/-- The refusal when the run may not repoint. -/
def scopeFilterMismatch (scopeName : Text) : UiError :=
  .validation "scope_filter_mismatch".toList ("a management scope ".toList ++ quoted scopeName ++
    (" already exists for this app and either confines a different set of groups than this " ++
      "migration computed or has a filter that does more than name groups. Exchange keeps the " ++
      "existing scope rather than replacing it, and this run is not permitted to repoint it — " ++
      "either the group consolidation could not be verified, or an explicit scope name was " ++
      "supplied that may be shared with other applications. Assigning roles against it and then " ++
      "removing the org-wide grants would change what this app reaches in a way that was not " ++
      "asked for, so nothing was changed. Review the scope in Exchange, or use “Move to managed " ++
      "group” to consolidate onto the toolkit-managed group.").toList)

/-- The refusal when the repoint did not land. -/
def scopeRepointMismatch (scopeName : Text) : UiError :=
  .validation "scope_filter_mismatch".toList ("management scope ".toList ++ quoted scopeName ++
    (" does not confine access to exactly the groups this migration computed (its filter could " ++
      "not be rewritten, or the rewrite did not land), so the app's roles were NOT assigned and " ++
      "its org-wide grants were left in place. Nothing this app can reach has changed. Inspect " ++
      "the scope in Exchange.").toList)

/-- The filter Exchange has on the scope, repointed when permitted. -/
def reconcileScopeFilter (scopeName : Text) (existingFilter : Option Text) (wantedFilter : Text)
    (mayRepoint : Bool) : AsyncResult UiError Text :=
  match existingFilter with
  | none => pure wantedFilter
  | some current =>
    if scopeFilterAgrees uni current wantedFilter then pure current
    else if mayRepoint = false then throw (scopeFilterMismatch scopeName)
    else do
      repointScopeIfStale uni scopeName current wantedFilter
      let read ← orUiError .exchange (call (.getManagementScope scopeName))
      match read.bind (·.recipientFilter) with
      | some f =>
        if scopeFilterAgrees uni f wantedFilter then pure f
        else throw (scopeRepointMismatch scopeName)
      | none => throw (scopeRepointMismatch scopeName)

/-! ## Members -/

/-- A group member, as identified for the copy and its verification. -/
structure SourceMember where
  identity : Text
  key : Text

/-- `trim`, and `none` when nothing is left. -/
def nonBlank (s : Option Text) : Option Text := (s.map Text.trim).filter (fun t => t != [])

/-- Primary address first, GUID as the fallback. -/
def sourceMember (m : ExoGroupMember) : Option SourceMember :=
  ((nonBlank m.primarySmtpAddress).or (nonBlank m.guid)).map
    (fun identity => ⟨identity, toAsciiLowercase identity⟩)

/-- What one source group's enumeration returned. -/
structure SourceGroupRead where
  dn : Text
  members : Except ExchangeError (List ExoGroupMember)

/-- Keep the first member of each key. -/
def addMembers (members : List SourceMember) (found : List ExoGroupMember) : List SourceMember :=
  found.foldl (fun members m =>
    match sourceMember m with
    | some sm => if members.any (fun m' => m'.key == sm.key) then members else members ++ [sm]
    | none => members) members

/-- The body of the loop of `plan_source_membership`. -/
def planSourceGroup (acc : List SourceMember × List UnreadableGroup) (read : SourceGroupRead) :
    List SourceMember × List UnreadableGroup :=
  match read.members with
  | .ok [] => (acc.1, acc.2 ++ [.noReadableMembers read.dn])
  | .ok found =>
    let unidentifiable := (found.filter (fun m => (sourceMember m).isNone)).length
    (addMembers acc.1 found,
      if unidentifiable > 0 then acc.2 ++ [.unidentifiable read.dn unidentifiable] else acc.2)
  | .error err => (acc.1, acc.2 ++ [.notRead read.dn err])

/-- The members to copy, each once, or the groups that could not be read; an empty group counts as
    unreadable. -/
def planSourceMembership (reads : List SourceGroupRead) :
    Except (List UnreadableGroup) (List SourceMember) :=
  let planned := reads.foldl planSourceGroup ([], [])
  if planned.2 = [] then .ok planned.1 else .error planned.2

def unverifiedMembers (intended : List SourceMember) (presentKeys : List Text) : List Text :=
  (intended.filter (fun m => !presentKeys.contains m.key)).map (·.identity)

/-- The managed group's members the source does not have, by identity. -/
def extraMembers (intended : List SourceMember) (managed : List ExoGroupMember) : List Text :=
  let extra := (addMembers [] managed).filter (fun m => !intended.any (fun i => i.key == m.key))
  let unidentifiable := (managed.filter (fun m => (sourceMember m).isNone)).length
  extra.map (·.identity) ++
    if unidentifiable > 0 then
      [(toString unidentifiable).toList ++ " member(s) with no address or GUID".toList]
    else []

def memberKeys (members : List ExoGroupMember) : List Text :=
  (members.filterMap sourceMember).map (·.key)

/-! ## Consolidating -/

structure ConsolidationPlan where
  scopeDns : List Text
  repoint : Bool

/-- Whether a scope may be repointed at the managed group: refused on anything unproved. -/
def planConsolidation (currentFilter : Text) (managedDn : Option Text)
    (unreadableSourceGroups : List UnreadableGroup) (unverified : Nat) (extra : List Text) :
    Except Refusal ConsolidationPlan :=
  match Opath.rewritableScopeDns uni currentFilter with
  | .error why => .error (.filter why)
  | .ok sourceDns =>
    if unreadableSourceGroups ≠ [] then .error (.unreadableSourceGroups unreadableSourceGroups)
    else match managedDn with
      | none => .error .managedGroupUnresolved
      | some managedDn =>
        if unverified > 0 then .error (.unverifiedMembers unverified)
        else if extra ≠ [] then .error (.extraManagedMembers extra)
        else .ok ⟨[managedDn], !sourceDns.all (fun d => Opath.sameDn uni d managedDn)⟩

/-- What a consolidation did; `scopeDns` are the groups the scope should name. -/
structure ScopeGroupConsolidation where
  groupName : Text
  copied : List Text
  unverified : List Text
  scopeDns : List Text
  consolidated : Bool
  incomplete : Bool
  refusal : Option Refusal

/-- The scope stays where it is. -/
def ScopeGroupConsolidation.kept (groupName : Text) (sourceDns unverified : List Text) :
    ScopeGroupConsolidation :=
  { groupName, copied := [], unverified, scopeDns := sourceDns, consolidated := false,
    incomplete := false, refusal := none }

structure MemberCopy where
  landed : List Text
  failed : List (Text × ExchangeError)
  notAttempted : Nat
  /-- The session died during the copy. -/
  dead : Bool

/-- One add of the concurrent part of a copy: `none` when it was not started. -/
def addMember (groupName : Text) (m : SourceMember) :
    Async (SourceMember × Option (Except ExchangeError Unit)) := do
  if ← call .copyGate then pure (m, none)
  else do
    let result ← call (.addGroupMember groupName m.identity)
    pure (m, some result)

def addMissing (groupName : Text) (missing : List SourceMember) :
    Async (List (SourceMember × Option (Except ExchangeError Unit))) :=
  missing.foldlM (fun outcomes m => do
    let outcome ← addMember groupName m
    pure (outcomes ++ [outcome])) []

/-- What the adds gave, and which of them to try again. -/
def sortOutcome (acc : MemberCopy × List (SourceMember × ExchangeError))
    (outcome : SourceMember × Option (Except ExchangeError Unit)) :
    MemberCopy × List (SourceMember × ExchangeError) :=
  match outcome.2 with
  | none => ({ acc.1 with notAttempted := acc.1.notAttempted + 1 }, acc.2)
  | some (.ok ()) => ({ acc.1 with landed := acc.1.landed ++ [outcome.1.key] }, acc.2)
  | some (.error err) =>
    ({ acc.1 with dead := acc.1.dead || err.isReauthFatal }, acc.2 ++ [(outcome.1, err)])

/-- The second, serial attempt at an add that failed. -/
def retryAdd (groupName : Text) (copy : MemberCopy) (item : SourceMember × ExchangeError) :
    Async MemberCopy := do
  let cancelled ← call .isCancelled
  if cancelled || copy.dead then
    pure { copy with failed := copy.failed ++ [(item.1.identity, item.2)] }
  else do
    match ← call (.addGroupMember groupName item.1.identity) with
    | .ok () => pure { copy with landed := copy.landed ++ [item.1.key] }
    | .error err => pure { copy with failed := copy.failed ++ [(item.1.identity, err)],
                                     dead := copy.dead || err.isReauthFatal }

def copyMembers (groupName : Text) (members : List SourceMember) (alreadyIn : List Text) :
    Async MemberCopy := do
  let (present, missing) := members.partition (fun m => alreadyIn.contains m.key)
  let outcomes ← addMissing groupName missing
  let (copy, retry) := outcomes.foldl sortOutcome (⟨present.map (·.key), [], 0, false⟩, [])
  retry.foldlM (retryAdd groupName) copy

structure ConsolidateParams where
  groupName : Text
  sourceDns : List Text
  dryRun : Bool
  liveFilter : Option Text

section Consolidate

variable (params : ConsolidateParams)

/-- Keep the source, saying why. -/
def keepSource (why : KeptBecause) (unverified : List Text) : Async ScopeGroupConsolidation := do
  warn (.scopeKept params.groupName why)
  pure (.kept params.groupName params.sourceDns unverified)

/-- A refusal known from reads alone. -/
def refuse (why : Refusal) : Async ScopeGroupConsolidation := do
  let kept ← keepSource params (.refused why) []
  pure { kept with refusal := some why }

/-- Step 1: the membership of every source group, in order. -/
def readSources : Async (List SourceGroupRead) :=
  params.sourceDns.foldlM (fun reads dn => do
    let members ← call (.listGroupMembers dn)
    pure (reads ++ [⟨dn, members⟩])) []

/-- The live scope names the managed group alone. -/
def managedIsLive : Async Bool :=
  match params.liveFilter with
  | none => pure false
  | some filter => do
      match ← call (.getDistributionGroup params.groupName) with
      | .ok (some g) => pure (g.distinguishedName.any (fun dn => filterNamesOnlyGroup uni filter dn))
      | _ => pure false

/-- Step 1b: what the managed group holds, and whether that alone refuses the move. The keys are the
    members an add may skip. -/
def readManaged (members : List SourceMember) (live : Bool) :
    Async (Except Refusal (Option Refusal × List Text)) :=
  if live && params.dryRun then pure (.ok (none, []))
  else do
    match ← call (.listGroupMembers params.groupName) with
    | .ok existing =>
      let extras := if live then [] else extraMembers members existing
      if extras ≠ [] then
        if params.dryRun = false then pure (.error (.extraManagedMembers extras))
        else do
          warn (.wouldBeRefused (.extraManagedMembers extras))
          pure (.ok (some (.extraManagedMembers extras), memberKeys existing))
      else pure (.ok (none, memberKeys existing))
    | .error err =>
      if params.dryRun then do
        warn (.managedNotRead params.groupName err)
        pure (.ok (none, []))
      else pure (.ok (none, []))

/-- Steps 3 and 4: verify the copy against what the group really holds, then decide. -/
def verifyCopy (members : List SourceMember) (live : Bool) (managedDn : Option Text) :
    Async ScopeGroupConsolidation := do
  let skipExtras := live || (params.liveFilter.any (fun filter =>
    managedDn.any (fun dn => filterNamesOnlyGroup uni filter dn)))
  match ← call (.listGroupMembers params.groupName) with
  | .error err => keepSource params (.notReread err) (members.map (·.identity))
  | .ok list => do
      let present := memberKeys list
      let extras := if skipExtras then [] else extraMembers members list
      let unverified := unverifiedMembers members present
      let copied := (members.filter (fun m => present.contains m.key)).map (·.identity)
      match planConsolidation uni (Opath.memberOfGroupFilter params.sourceDns) managedDn []
          unverified.length extras with
      | .ok plan => pure { groupName := params.groupName, copied, unverified,
                           scopeDns := plan.scopeDns, consolidated := true, incomplete := false,
                           refusal := none }
      | .error why => do
          warn (.scopeKept params.groupName (match why with
            | .unverifiedMembers n => .unverified n members.length unverified
            | why => .refused why))
          pure { groupName := params.groupName, copied, unverified, scopeDns := params.sourceDns,
                 consolidated := false, incomplete := false, refusal := none }

/-- Cancel or a dead session stopped the copy. -/
def copyStopped (copy : MemberCopy) : Async Bool :=
  if copy.notAttempted > 0 then pure true
  else do
    let cancelled ← call .isCancelled
    pure (cancelled || copy.dead)

/-- What a stopped copy reports. -/
def stoppedCopy (members : List SourceMember) (copy : MemberCopy) :
    Async ScopeGroupConsolidation := do
  let notLanded := members.filter (fun m => !copy.landed.contains m.key)
  let kept ← keepSource params (.stopped copy.dead (members.length - copy.landed.dedup.length)
    members.length) (notLanded.map (·.identity))
  pure { kept with
    copied := (members.filter (fun m => copy.landed.contains m.key)).map (·.identity),
    incomplete := true }

/-- `sanitize_alias`. -/
def sanitizeAlias (name : Text) : Text :=
  (name.filter (fun c => c.isAlphanum || c == '.' || c == '_' || c == '-')).take 64

/-- Steps 2 to 4 of a real run: create the group, copy, verify. -/
def copyAndVerify (members : List SourceMember) (live : Bool) (alreadyIn : List Text) :
    Async ScopeGroupConsolidation := do
  if ← call .isCancelled then do
    let kept ← keepSource params .notStarted (members.map (·.identity))
    pure { kept with incomplete := true }
  else do
    match ← (ensureSecurityGroup params.groupName (sanitizeAlias params.groupName)).run with
    | .error err => keepSource params (.groupNotCreated err) (members.map (·.identity))
    | .ok g => do
        let copy ← copyMembers params.groupName members alreadyIn
        warnAll (copy.failed.map (fun f => .memberNotAdded f.1 params.groupName f.2))
        if ← copyStopped copy then stoppedCopy params members copy
        else verifyCopy uni params members live g.distinguishedName

/-- Copy the members of the source groups into the managed group, and decide which groups the scope
    should name. -/
def consolidateScopeGroup : Async ScopeGroupConsolidation := do
  let reads ← readSources params
  match planSourceMembership reads with
  | .error unreadable => refuse params (.unreadableSourceGroups unreadable)
  | .ok members => do
      let live ← managedIsLive uni params
      match ← readManaged params members live with
      | .error why => refuse params why
      | .ok (refusal, alreadyIn) =>
        if params.dryRun then
          pure { groupName := params.groupName, copied := members.map (·.identity),
                 unverified := [], scopeDns := params.sourceDns, consolidated := false,
                 incomplete := false, refusal }
        else copyAndVerify uni params members live alreadyIn

end Consolidate

end Exchange
