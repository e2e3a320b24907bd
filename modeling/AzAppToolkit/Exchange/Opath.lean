import AzAppToolkit.Lib.Text

set_option autoImplicit false

/-! # Reading a recipient filter

The recogniser for OPATH recipient filters of `azapptoolkit-exchange/src/targets.rs`: it finds the
`MemberOfGroup` keys outside quoted literals, reads a clause from each of them, compares the two
counts, and checks what is left once the clauses are cut out.

Modelling choices:
* an offset counts characters. The source's byte offsets always sit on character boundaries, so both
  name the same places;
* the scanner's index jumps (`i += 2`, `i += KEY.len()`) are a count of characters still to skip,
  so that it recurses on the text. -/

namespace Opath

variable (uni : Unicode)

/-- One `MemberOfGroup -eq '…'` comparison: where it stands and its decoded operand. -/
structure MemberClause where
  span : Nat × Nat
  dn : Text
deriving DecidableEq

/-- The loop of `read_opath_literal`, on the text after the opening quote: the decoded value and how
    many characters were read, the closing quote included. -/
def readLiteral : Text → Option (Text × Nat)
  | [] => none
  | '\'' :: '\'' :: rest => (readLiteral rest).map (fun r => ('\'' :: r.1, r.2 + 2))
  | '\'' :: _ => some ([], 1)
  | c :: rest => (readLiteral rest).map (fun r => (c :: r.1, r.2 + 1))

/-- `read_opath_literal`: the literal whose opening quote sits at `opening`, and the offset one past
    its closing quote. -/
def readOpathLiteral (s : Text) (opening : Nat) : Option (Text × Nat) :=
  (readLiteral (s.drop (opening + 1))).map (fun r => (r.1, opening + 1 + r.2))

def memberOfGroupKey : Text := "memberofgroup".toList

/-- The loop of `member_of_group_keys` at offset `i`, with `skip` characters still to pass over. -/
def memberOfGroupKeysFrom : (skip : Nat) → (inSingle inDouble : Bool) → (i : Nat) → Text → List Nat
  | _, _, _, _, [] => []
  | skip + 1, inSingle, inDouble, i, _ :: rest =>
    memberOfGroupKeysFrom skip inSingle inDouble (i + 1) rest
  | 0, inSingle, inDouble, i, c :: rest =>
    if c = '\'' ∧ inDouble = false then
      if inSingle ∧ rest.head? = some '\'' then
        memberOfGroupKeysFrom 1 inSingle inDouble (i + 1) rest
      else memberOfGroupKeysFrom 0 (!inSingle) inDouble (i + 1) rest
    else if c = '"' ∧ inSingle = false then
      memberOfGroupKeysFrom 0 inSingle (!inDouble) (i + 1) rest
    else if inSingle = false ∧ inDouble = false ∧ memberOfGroupKey.isPrefixOf (c :: rest) then
      i :: memberOfGroupKeysFrom (memberOfGroupKey.length - 1) inSingle inDouble (i + 1) rest
    else memberOfGroupKeysFrom 0 inSingle inDouble (i + 1) rest

def memberOfGroupKeys (lower : Text) : List Nat := memberOfGroupKeysFrom 0 false false 0 lower

def startsProperty (lower : Text) (start : Nat) : Bool :=
  match (lower.take start).getLast? with
  | none => true
  | some c => !uni.isAlphanumeric c && c != '_'

/-- The `while bytes[i].is_ascii_whitespace()` loops. -/
def skipWhitespace (s : Text) (i : Nat) : Nat := i + ((s.drop i).takeWhile isAsciiWhitespace).length

/-- The body of the loop of `member_of_group_clauses`, for the key at `start`. -/
def memberClauseAt (filter : Text) (start : Nat) : Option MemberClause :=
  let lower := toAsciiLowercase filter
  if startsProperty uni lower start = false then none
  else
    let i := skipWhitespace filter (start + memberOfGroupKey.length)
    if "-eq".toList.isPrefixOf (lower.drop i) = false then none
    else
      let i := skipWhitespace filter (i + 3)
      if filter[i]? ≠ some '\'' then none
      else
        match readOpathLiteral filter i with
        | none => none
        | some (dn, stop) => if isBlank dn then none else some ⟨(start, stop), dn⟩

def memberOfGroupClauses (filter : Text) : List MemberClause :=
  (memberOfGroupKeys (toAsciiLowercase filter)).filterMap (memberClauseAt uni filter)

def countMemberOfGroup (filter : Text) : Nat :=
  (memberOfGroupKeys (toAsciiLowercase filter)).length

/-- Why a stored recipient filter cannot be rewritten from a list of group DNs. -/
inductive UnrewritableFilter where
  | noGroupClauses
  | unparsedClause
  | unsupportedClause (leftover : Text)
deriving DecidableEq

/-- What is left of the filter, from `cursor` on, once the clauses are cut out. -/
def residueFrom (filter : Text) : (cursor : Nat) → List MemberClause → Text
  | cursor, [] => filter.drop cursor
  | cursor, c :: clauses =>
    (filter.drop cursor).take (c.span.1 - cursor) ++ residueFrom filter c.span.2 clauses

/-- `replace("-or", " ")`. -/
def replaceOr : Text → Text
  | [] => []
  | '-' :: 'o' :: 'r' :: rest => ' ' :: replaceOr rest
  | c :: rest => c :: replaceOr rest

def leftoverOf (residue : Text) : Text :=
  (replaceOr (toAsciiLowercase residue)).filter (fun c => !isWhitespace c && c != '(' && c != ')')

def rewritableScopeDns (filter : Text) : Except UnrewritableFilter (List Text) :=
  let clauses := memberOfGroupClauses uni filter
  if clauses = [] then .error .noGroupClauses
  else if clauses.length ≠ countMemberOfGroup filter then .error .unparsedClause
  else
    let leftover := leftoverOf (residueFrom filter 0 clauses)
    if leftover ≠ [] then .error (.unsupportedClause leftover)
    else .ok (Text.dedup (Text.sort (clauses.map (·.dn))))

def foldDn (dn : Text) : Text := uni.toLowercase dn

def sameDn (a b : Text) : Bool := foldDn uni a == foldDn uni b

/-- `exact_scope_dns`: the folded group set of a pure `MemberOfGroup` OR-chain. -/
def exactScopeDns (filter : Text) : Option (List Text) :=
  match rewritableScopeDns uni filter with
  | .ok dns => some (dns.map (foldDn uni))
  | .error _ => none

/-- OPATH's escape of a single-quoted string: a `'` becomes `''`. -/
def escapeOpath (input : Text) : Text :=
  input.flatMap (fun c => if c = '\'' then ['\'', '\''] else [c])

def memberOfGroupFilter (distinguishedNames : List Text) : Text :=
  " -or ".toList.intercalate
    (distinguishedNames.map (fun dn => "MemberOfGroup -eq '".toList ++ escapeOpath dn ++ ['\'']))

end Opath
