import AzAppToolkit.Lib.Slices
import AzAppToolkit.Exchange.OpathRoundTrip

set_option autoImplicit false

/-! # The recogniser, byte by byte

The recogniser of `targets.rs` once more, this time on the byte offsets the source computes with: each
slice and each indexed byte is partial, as it is in the source, and each `while` runs on fuel. An
answer is either a value or a fault: a panic, or a loop that has not come to its end. -/

namespace OpathBytes

open Slices

variable (uni : Unicode)

/-- What keeps a function from an answer. -/
inductive Fault where
  | panic
  | unfinished

abbrev Checked := Except Fault

/-- A slice or an index that panics where it is undefined. -/
def orPanic {α : Type} : Option α → Checked α
  | some a => .ok a
  | none => .error .panic

/-- `b'\''`. -/
def quoteByte : UInt8 := 39

/-- `b'"'`. -/
def doubleQuoteByte : UInt8 := 34

/-- `u8::is_ascii_whitespace`. -/
def isAsciiWhitespaceByte (b : UInt8) : Bool :=
  b.toNat == 32 || b.toNat == 9 || b.toNat == 10 || b.toNat == 12 || b.toNat == 13

/-- The loop of `read_opath_literal`. -/
def readOpathLiteralLoop (s : Text) :
    (fuel i : Nat) → (out : Text) → Checked (Option (Text × Nat))
  | 0, _, _ => .error .unfinished
  | fuel + 1, i, out =>
    if i < byteLength s then do
      let b ← orPanic (byteAt s i)
      if b = quoteByte then
        if byteAt s (i + 1) = some quoteByte then
          readOpathLiteralLoop s fuel (i + 2) (out ++ ['\''])
        else pure (some (out, i + 1))
      else do
        let rest ← orPanic (suffixAt s i)
        match rest with
        | [] => pure none
        | ch :: _ => readOpathLiteralLoop s fuel (i + ch.utf8Size) (out ++ [ch])
    else pure none

def readOpathLiteral (s : Text) (opening : Nat) : Checked (Option (Text × Nat)) :=
  readOpathLiteralLoop s (byteLength s + 1) (opening + 1) []

/-- The loop of `member_of_group_keys`. -/
def memberOfGroupKeysLoop (lower : Text) :
    (fuel i : Nat) → (inSingle inDouble : Bool) → (keys : List Nat) → Checked (List Nat)
  | 0, _, _, _, _ => .error .unfinished
  | fuel + 1, i, inSingle, inDouble, keys =>
    if i < byteLength lower then do
      let b ← orPanic (byteAt lower i)
      if b = quoteByte ∧ inDouble = false then
        if inSingle ∧ byteAt lower (i + 1) = some quoteByte then
          memberOfGroupKeysLoop lower fuel (i + 2) inSingle inDouble keys
        else memberOfGroupKeysLoop lower fuel (i + 1) (!inSingle) inDouble keys
      else if b = doubleQuoteByte ∧ inSingle = false then
        memberOfGroupKeysLoop lower fuel (i + 1) inSingle (!inDouble) keys
      else do
        -- the guard slices only outside quotes
        let isKey ←
          if inSingle = false ∧ inDouble = false then do
            let rest ← orPanic (suffixAt lower i)
            pure (Opath.memberOfGroupKey.isPrefixOf rest)
          else pure false
        if isKey then
          memberOfGroupKeysLoop lower fuel (i + byteLength Opath.memberOfGroupKey) inSingle
            inDouble (keys ++ [i])
        else do
          let rest ← orPanic (suffixAt lower i)
          memberOfGroupKeysLoop lower fuel (i + rest.head?.elim 1 Char.utf8Size) inSingle
            inDouble keys
    else pure keys

def memberOfGroupKeys (lower : Text) : Checked (List Nat) :=
  memberOfGroupKeysLoop lower (byteLength lower + 1) 0 false false []

def startsProperty (lower : Text) (start : Nat) : Checked Bool := do
  let before ← orPanic (prefixAt lower start)
  match before.getLast? with
  | none => pure true
  | some c => pure (!uni.isAlphanumeric c && c != '_')

/-- The `while bytes[i].is_ascii_whitespace()` loops. -/
def skipWhitespaceLoop (s : Text) : (fuel i : Nat) → Checked Nat
  | 0, _ => .error .unfinished
  | fuel + 1, i =>
    if i < byteLength s then do
      let b ← orPanic (byteAt s i)
      if isAsciiWhitespaceByte b then skipWhitespaceLoop s fuel (i + 1) else pure i
    else pure i

def skipWhitespace (s : Text) (i : Nat) : Checked Nat :=
  skipWhitespaceLoop s (byteLength s + 1) i

/-- The body of the loop of `member_of_group_clauses`, for the key at `start`. -/
def memberClauseAt (filter lower : Text) (start : Nat) : Checked (Option Opath.MemberClause) := do
  let starts ← startsProperty uni lower start
  if starts = false then pure none
  else do
    let i ← skipWhitespace filter (start + byteLength Opath.memberOfGroupKey)
    let rest ← orPanic (suffixAt lower i)
    if "-eq".toList.isPrefixOf rest = false then pure none
    else do
      let i ← skipWhitespace filter (i + byteLength "-eq".toList)
      if byteAt filter i ≠ some quoteByte then pure none
      else do
        match ← readOpathLiteral filter i with
        | none => pure none
        | some (dn, stop) => pure (if isBlank dn then none else some ⟨(start, stop), dn⟩)

/-- The clauses of the keys, in order. -/
def memberClausesAt (filter lower : Text) : List Nat → Checked (List Opath.MemberClause)
  | [] => pure []
  | start :: keys => do
      let clause ← memberClauseAt uni filter lower start
      let clauses ← memberClausesAt filter lower keys
      pure (clause.toList ++ clauses)

def memberOfGroupClauses (filter : Text) : Checked (List Opath.MemberClause) := do
  let lower := toAsciiLowercase filter
  let keys ← memberOfGroupKeys lower
  memberClausesAt uni filter lower keys

def countMemberOfGroup (filter : Text) : Checked Nat := do
  let keys ← memberOfGroupKeys (toAsciiLowercase filter)
  pure keys.length

def scopeGroupsInFilter (filter : Text) : Checked Opath.ScopeGroups := do
  let clauses ← memberOfGroupClauses uni filter
  let count ← countMemberOfGroup filter
  pure { dns := (clauses.map (·.dn)).toFinset, complete := clauses.length == count }

/-- What is left of the filter, from `cursor` on, once the clauses are cut out. -/
def residueFrom (filter : Text) : (cursor : Nat) → List Opath.MemberClause → Checked Text
  | cursor, [] => orPanic (suffixAt filter cursor)
  | cursor, c :: clauses => do
      let part ← orPanic (slice filter cursor c.span.1)
      let rest ← residueFrom filter c.span.2 clauses
      pure (part ++ rest)

def rewritableScopeDns (filter : Text) : Checked (Except Opath.UnrewritableFilter (List Text)) := do
  let clauses ← memberOfGroupClauses uni filter
  if clauses = [] then pure (.error .noGroupClauses)
  else do
    let count ← countMemberOfGroup filter
    if clauses.length ≠ count then pure (.error .unparsedClause)
    else do
      let residue ← residueFrom filter 0 clauses
      let leftover := Opath.leftoverOf residue
      if leftover ≠ [] then pure (.error (.unsupportedClause leftover))
      else pure (.ok (Text.dedup (Text.sort (clauses.map (·.dn)))))

def exactScopeDns (filter : Text) : Checked (Option (List Text)) := do
  match ← rewritableScopeDns uni filter with
  | .ok dns => pure (some (dns.map (Opath.foldDn uni)))
  | .error _ => pure none

def filterNamesOnlyGroup (filter dn : Text) : Checked Bool := do
  let dns ← exactScopeDns uni filter
  pure (dns.any (fun dns => dns.all (fun d => d == Opath.foldDn uni dn)))

end OpathBytes
