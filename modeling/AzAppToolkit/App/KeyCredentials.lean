import AzAppToolkit.Lib.Json
import AzAppToolkit.Sharepoint.Resolve

set_option autoImplicit false

/-! # Certificate credentials of an application

`add_key_credential` and `remove_key_credential` of `client/credentials.rs`: read the live array as raw
JSON, edit it, write all of it back. Nothing orders two calls, and a call writes back what it read: the
edits of calls that overlap are lost. -/

namespace KeyCredentials

open Prog
open Graph (GraphError)
open Resolver (requirePathSegment)

variable {N : Type}

/-! ## Data -/

structure NewKeyCredential where
  displayName : Option Text
  usage : Option Text
  kind : Option Text
  startDateTime : Option Text
  endDateTime : Option Text
  key : Text

/-- A field that is left out where it has no value. -/
def putSome (name : Text) (value : Option Text) (fields : List (Text × Json N)) :
    List (Text × Json N) :=
  match value with
  | none => fields
  | some v => Json.insert name (.string v) fields

def keyCredentialsName : Text := "keyCredentials".toList

def keyIdName : Text := "keyId".toList

/-- `serde_json::to_value`. -/
def NewKeyCredential.toValue (c : NewKeyCredential) : Json N :=
  .object (putSome "displayName".toList c.displayName (putSome "usage".toList c.usage
    (putSome "type".toList c.kind (putSome "startDateTime".toList c.startDateTime
      (putSome "endDateTime".toList c.endDateTime (putSome "key".toList (some c.key) []))))))

/-- The entry has this key id. -/
def hasKeyId (keyId : Text) (entry : Json N) : Bool :=
  (entry.get keyIdName).bind Json.asStr == some keyId

/-- The `keyCredentials` of an application; an absent list is empty. -/
def entriesIn (app : Json N) : List (Json N) :=
  ((app.get keyCredentialsName).bind Json.asArray).getD []

def bodyOf (entries : List (Json N)) : Json N := .object [(keyCredentialsName, .array entries)]

inductive Call (N : Type) where
  | readApplication (objectId : Text)
  | patchApplication (objectId : Text) (body : Json N)

abbrev Answer : Call N → Type
  | .readApplication _ => Except GraphError (Json N)
  | .patchApplication _ _ => Except GraphError Unit

abbrev Async (N α : Type) := @Prog (Call N) Answer α

def objectIdName : Text := "object id".toList

/-! ## The calls -/

def liveKeyCredentials (objectId : Text) : Async N (Except GraphError (List (Json N))) := do
  match requirePathSegment objectIdName objectId with
  | .error err => return .error err
  | .ok () => return (← call (Call.readApplication objectId)).map entriesIn

/-- Write the edited array, if the edit is one. -/
def writeBack (objectId : Text) : Except GraphError (List (Json N)) → Async N (Except GraphError Unit)
  | .error err => pure (.error err)
  | .ok entries => call (Call.patchApplication objectId (bodyOf entries))

/-- Read the live array, modify it, write it back. -/
def fetchModifyPatch (objectId : Text) (modify : List (Json N) → Except GraphError (List (Json N))) :
    Async N (Except GraphError Unit) := do
  match requirePathSegment objectIdName objectId with
  | .error err => return .error err
  | .ok () =>
    match ← liveKeyCredentials objectId with
    | .error err => return .error err
    | .ok live => writeBack objectId (modify live)

def addKeyCredential (objectId : Text) (newCred : NewKeyCredential) :
    Async N (Except GraphError Unit) :=
  fetchModifyPatch objectId (fun live => .ok (live ++ [newCred.toValue]))

/-- A key id that is not there is an error. -/
def dropKeyId (keyId : Text) (live : List (Json N)) : Except GraphError (List (Json N)) :=
  let entries := live.filter (fun entry => !hasKeyId keyId entry)
  if entries.length = live.length then
    .error (.notFound ("certificate credential ".toList ++ keyId ++
      " is not on the application".toList))
  else .ok entries

def removeKeyCredential (objectId keyId : Text) : Async N (Except GraphError Unit) :=
  fetchModifyPatch objectId (dropKeyId keyId)

/-- What one call asks for. -/
inductive Edit where
  | add (newCred : NewKeyCredential)
  | remove (keyId : Text)

def Edit.run (objectId : Text) : Edit → Async N (Except GraphError Unit)
  | .add newCred => addKeyCredential objectId newCred
  | .remove keyId => removeKeyCredential objectId keyId

def Edit.modify : Edit → List (Json N) → Except GraphError (List (Json N))
  | .add newCred => fun live => .ok (live ++ [newCred.toValue])
  | .remove keyId => dropKeyId keyId

theorem Edit.run_eq (objectId : Text) (edit : Edit) :
    (edit.run objectId : Async N (Except GraphError Unit)) = fetchModifyPatch objectId edit.modify := by
  cases edit <;> rfl

/-! ## The directory -/

/-- Each call is one step; a patch replaces the array or fails without effect. -/
def world : World (Answer (N := N)) (List (Json N))
  | s, .readApplication _, r, s' => s' = s ∧ ∀ app, r = .ok app → entriesIn app = s
  | s, .patchApplication _ body, r, s' =>
    match r with
    | .ok () => s' = entriesIn body
    | .error _ => s' = s

abbrev Event (N : Type) := Pool.Event (Answer (N := N)) (Except GraphError Unit)

abbrev Threads (N : Type) := List (Async N (Except GraphError Unit))

/-- The calls of one application, in any interleaving. -/
abbrev EditRun (objectId : Text) (edits : List Edit) (initial : List (Json N)) (tr : List (Event N))
    (pool : Pool (Answer (N := N)) (Except GraphError Unit) (List (Json N))) : Prop :=
  Run (Pool.Step (fun _ => False) world) ⟨initial, edits.map (Edit.run objectId)⟩ tr pool

/-- A call that returned Ok. -/
def returnedOk : Async N (Except GraphError Unit) → Bool
  | .done (.ok ()) => true
  | _ => false

/-- The edits whose calls returned Ok. -/
def settled : List Edit → List Bool → List Edit
  | edit :: edits, ok :: rest => if ok then edit :: settled edits rest else settled edits rest
  | _, _ => []

def Edit.addition : Edit → Option (Json N)
  | .add newCred => some newCred.toValue
  | .remove _ => none

def Edit.removes (entry : Json N) : Edit → Bool
  | .add _ => false
  | .remove keyId => hasKeyId keyId entry

/-- The initial entries in order, without those a successful removal named, and one entry for each
    successful add. -/
def Kept (initial : List (Json N)) (done : List Edit) (entries : List (Json N)) : Prop :=
  ∃ added, entries = initial.filter (fun entry => !done.any (Edit.removes entry)) ++ added ∧
    added.Perm (done.filterMap Edit.addition)

/-- A write that took effect. -/
def Applied (e : Event N) : Prop :=
  ∃ i objectId body, e = .call i ⟨.patchApplication objectId body, .ok ()⟩

/-- Between the read of a call and its own successful write no other write succeeded. -/
def Apart (tr : List (Event N)) : Prop :=
  ∀ i before between after objectId app body,
    tr = before ++ .call i ⟨.readApplication objectId, .ok app⟩ ::
      (between ++ .call i ⟨.patchApplication objectId body, .ok ()⟩ :: after) →
    ∀ e ∈ between, ¬ Applied e

/-- A removal that did not read its key id returned an error and wrote nothing. -/
def Refuses (objectId : Text) (edits : List Edit) (tr : List (Event N)) (threads : Threads N) : Prop :=
  ∀ (i : Nat) keyId app, edits[i]? = some (.remove keyId) →
    .call i ⟨.readApplication objectId, .ok app⟩ ∈ tr → (∀ e ∈ entriesIn app, hasKeyId keyId e = false) →
    threads[i]? = some (.done (.error (.notFound ("certificate credential ".toList ++ keyId ++
      " is not on the application".toList)))) ∧
    ∀ body r, .call i ⟨.patchApplication objectId body, r⟩ ∉ tr

/-! ## Settled edits -/

theorem set_same {flags : List Bool} {i : Nat} {b : Bool} (h : flags[i]? = some b) :
    flags.set i b = flags := by
  obtain ⟨hi, rfl⟩ := List.getElem?_eq_some_iff.1 h
  exact List.set_getElem_self hi

theorem settled_set_done {edits : List Edit} {flags : List Bool} {i : Nat} {edit : Edit}
    (hedit : edits[i]? = some edit) (h : flags[i]? = some false) :
    (settled edits (flags.set i true)).Perm (edit :: settled edits flags) := by
  induction edits generalizing flags i with
  | nil => exact absurd hedit (by simp)
  | cons first edits ih =>
    cases flags with
    | nil => exact absurd h (by simp)
    | cons flag flags =>
      cases i with
      | zero =>
        obtain rfl : first = edit := by simpa using hedit
        obtain rfl : flag = false := by simpa using h
        exact .refl _
      | succ i =>
        have hrest := ih (by simpa using hedit) (by simpa using h)
        cases flag with
        | false => exact hrest
        | true => exact (hrest.cons first).trans (.swap edit first _)

/-! ## One write -/

theorem entriesIn_bodyOf (entries : List (Json N)) : entriesIn (bodyOf entries) = entries := rfl

theorem lookup_putSome {name key : Text} {value : Option Text} {fields : List (Text × Json N)}
    (hne : name ≠ key) : Json.lookup key (putSome name value fields) = Json.lookup key fields := by
  unfold putSome
  cases value with
  | none => rfl
  | some v => rw [Json.lookup_insert, if_neg hne]

/-- A new entry has no key id yet. -/
theorem hasKeyId_toValue (c : NewKeyCredential) (keyId : Text) :
    hasKeyId keyId (c.toValue : Json N) = false := by
  have hnone : (c.toValue : Json N).get keyIdName = none := by
    show Json.lookup keyIdName (putSome _ _ _) = none
    rw [lookup_putSome (by decide), lookup_putSome (by decide), lookup_putSome (by decide),
      lookup_putSome (by decide), lookup_putSome (by decide), lookup_putSome (by decide)]
    rfl
  unfold hasKeyId
  rw [hnone]
  rfl

theorem dropKeyId_cases (keyId : Text) (live : List (Json N)) :
    (∃ err, dropKeyId keyId live = .error err) ∨
      dropKeyId keyId live = .ok (live.filter (fun entry => !hasKeyId keyId entry)) := by
  unfold dropKeyId
  dsimp only
  split
  · exact .inl ⟨_, rfl⟩
  · exact .inr rfl

theorem dropKeyId_absent {keyId : Text} {live : List (Json N)} (h : ∀ e ∈ live, hasKeyId keyId e = false) :
    dropKeyId keyId live = .error (.notFound ("certificate credential ".toList ++ keyId ++
      " is not on the application".toList)) := by
  have hall : live.filter (fun entry => !hasKeyId keyId entry) = live :=
    List.filter_eq_self.2 fun e he => by rw [h e he]; rfl
  unfold dropKeyId
  dsimp only
  rw [if_pos (by rw [hall])]

theorem Kept.congr {initial entries : List (Json N)} {done done' : List Edit} (hperm : done'.Perm done)
    (h : Kept initial done entries) : Kept initial done' entries := by
  obtain ⟨added, rfl, hadded⟩ := h
  refine ⟨added, ?_, hadded.trans (hperm.symm.filterMap _)⟩
  congr 2
  funext entry
  rw [hperm.any_eq]

/-- An edit of the kept entries is kept with it. -/
theorem Kept.modify {initial entries next : List (Json N)} {done : List Edit} {edit : Edit}
    (h : Kept initial done entries) (hnext : edit.modify entries = .ok next) :
    Kept initial (edit :: done) next := by
  obtain ⟨added, rfl, hadded⟩ := h
  cases edit with
  | add newCred =>
    obtain rfl := Except.ok.inj hnext
    refine ⟨added ++ [newCred.toValue], by simp [Edit.removes], ?_⟩
    exact (List.perm_append_singleton _ _).trans (hadded.cons _)
  | remove keyId =>
    have hnext : dropKeyId keyId _ = .ok next := hnext
    rcases dropKeyId_cases keyId
      (initial.filter (fun entry => !done.any (Edit.removes entry)) ++ added) with ⟨err, herr⟩ | hok
    · rw [herr] at hnext
      exact absurd hnext (by simp)
    · rw [hok] at hnext
      obtain rfl := Except.ok.inj hnext
      have hnew : added.filter (fun entry => !hasKeyId keyId entry) = added := by
        apply List.filter_eq_self.2
        intro entry hentry
        obtain ⟨e, -, he⟩ := List.mem_filterMap.1 (hadded.mem_iff.1 hentry)
        cases e with
        | add newCred =>
          obtain rfl := Option.some.inj he
          rw [hasKeyId_toValue]
          rfl
        | remove _ => exact absurd he (by simp [Edit.addition])
      refine ⟨added, ?_, hadded⟩
      rw [List.filter_append, hnew, List.filter_filter]
      congr 2
      funext entry
      simp [Edit.removes]

/-! ## Where a call stands -/

section Phases

variable (objectId : Text) (modify : List (Json N) → Except GraphError (List (Json N)))

/-- What a call does with the answer to its read. -/
def afterRead : Except GraphError (Json N) → Async N (Except GraphError Unit)
  | .error err => .done (.error err)
  | .ok app => writeBack objectId (modify (entriesIn app))

theorem fetchModifyPatch_eq : (∃ err, fetchModifyPatch objectId modify = .done (.error err)) ∨
    fetchModifyPatch objectId modify
      = .ask (.readApplication objectId) (afterRead objectId modify) := by
  unfold fetchModifyPatch liveKeyCredentials
  cases requirePathSegment objectIdName objectId with
  | error err => exact .inl ⟨err, rfl⟩
  | ok u =>
    refine .inr (congrArg (Prog.ask _) (funext fun r => ?_))
    cases r with
    | error err => rfl
    | ok app => rfl

/-- Before its read, before its write, or done: `s` is the array as it stands. -/
def Phase (tr : List (Event N)) (s : List (Json N)) (i : Nat)
    (p : Async N (Except GraphError Unit)) : Prop :=
  (p = fetchModifyPatch objectId modify ∧ ∀ x, .call i x ∉ tr) ∨
  (∃ before between app next, p = call (Call.patchApplication objectId (bodyOf next)) ∧
    tr = before ++ .call i ⟨.readApplication objectId, .ok app⟩ :: between ∧
    (∀ x, .call i x ∉ before ∧ .call i x ∉ between) ∧ modify (entriesIn app) = .ok next ∧
    ((∀ e ∈ between, ¬ Applied e) → entriesIn app = s)) ∨
  ∃ r, p = .done r ∧ ∀ app err, .call i ⟨.readApplication objectId, .ok app⟩ ∈ tr →
    modify (entriesIn app) = .error err →
    r = .error err ∧ ∀ body r', .call i ⟨.patchApplication objectId body, r'⟩ ∉ tr

variable {objectId} {modify} {tr : List (Event N)} {s s' : List (Json N)} {i : Nat}
  {p : Async N (Except GraphError Unit)}

/-- A call of another thread leaves this one where it stands. -/
theorem Phase.other (h : Phase objectId modify tr s i p) {e : Event N}
    (hother : ∀ x, e ≠ .call i x) (hsame : ¬ Applied e → s' = s) :
    Phase objectId modify (tr ++ [e]) s' i p := by
  have hnot : ∀ {l : List (Event N)} {x}, .call i x ∉ l → .call i x ∉ l ++ [e] := by
    intro l x hx hmem
    rcases List.mem_append.1 hmem with hmem | hmem
    · exact hx hmem
    · exact hother x (List.mem_singleton.1 hmem).symm
  rcases h with ⟨rfl, hquiet⟩ | ⟨before, between, app, next, rfl, rfl, hown, hnext, hread⟩ | ⟨r, rfl, hend⟩
  · exact .inl ⟨rfl, fun x => hnot (hquiet x)⟩
  · refine .inr (.inl ⟨before, between ++ [e], app, next, rfl, by simp,
      fun x => ⟨(hown x).1, hnot (hown x).2⟩, hnext, fun hquiet => ?_⟩)
    rw [hsame (hquiet e (by simp))]
    exact hread fun e' he' => hquiet e' (List.mem_append_left _ he')
  · refine .inr (.inr ⟨r, rfl, fun app err hmem herr => ?_⟩)
    have hmem : .call i ⟨.readApplication objectId, .ok app⟩ ∈ tr := by
      by_contra hno
      exact hnot hno hmem
    obtain ⟨hr, hpatch⟩ := hend app err hmem herr
    exact ⟨hr, fun body r' => hnot (hpatch body r')⟩

/-- A step of the call itself. What it was before the step, and what a write that succeeds does. -/
theorem Phase.own {c : Call N} {next : Answer c → Async N (Except GraphError Unit)} {r : Answer c}
    (h : Phase objectId modify tr s i (.ask c next)) (hw : world s c r s') :
    Phase objectId modify (tr ++ [.call i ⟨c, r⟩]) s' i (next r) ∧
      ((¬ Applied (.call i ⟨c, r⟩ : Event N) ∧ returnedOk (next r) = false ∧ s' = s) ∨
        returnedOk (next r) = true ∧
          (Apart (tr ++ [.call i ⟨c, r⟩]) → modify s = .ok s')) := by
  rcases h with ⟨hp, hquiet⟩ | ⟨before, between, app, entries, hp, htr, hown, hnext, hread⟩ | ⟨r', hp, -⟩
  · -- the read
    rcases fetchModifyPatch_eq objectId modify with ⟨err, hdone⟩ | hask
    · rw [hdone] at hp
      exact absurd hp (by simp)
    · rw [hask] at hp
      cases hp
      obtain ⟨rfl, htruth⟩ := hw
      have hunapplied : ∀ x, ¬ Applied (.call i ⟨.readApplication objectId, x⟩ : Event N) := by
        rintro x ⟨j, id, body, heq⟩
        cases heq
      cases r with
      | error err =>
        refine ⟨.inr (.inr ⟨.error err, rfl, fun app e hmem _ => ?_⟩), .inl ⟨hunapplied _, rfl, rfl⟩⟩
        rcases List.mem_append.1 hmem with hmem | hmem
        · exact absurd hmem (hquiet _)
        · cases List.mem_singleton.1 hmem
      | ok app =>
        have honly : ∀ app', (.call i ⟨.readApplication objectId, .ok app'⟩ : Event N) ∈
            tr ++ [.call i ⟨.readApplication objectId, .ok app⟩] → app' = app := by
          intro app' hmem
          rcases List.mem_append.1 hmem with hmem | hmem
          · exact absurd hmem (hquiet _)
          · cases List.mem_singleton.1 hmem
            rfl
        have hafter : afterRead objectId modify (.ok app) =
            writeBack objectId (modify (entriesIn app)) := rfl
        rw [hafter]
        cases hmodify : modify (entriesIn app) with
        | error err =>
          refine ⟨.inr (.inr ⟨.error err, rfl, fun app' e hmem herr => ?_⟩),
            .inl ⟨hunapplied _, rfl, rfl⟩⟩
          obtain rfl := honly app' hmem
          rw [hmodify] at herr
          refine ⟨by rw [Except.error.inj herr], fun body r' hpatch => ?_⟩
          rcases List.mem_append.1 hpatch with hpatch | hpatch
          · exact hquiet _ hpatch
          · cases List.mem_singleton.1 hpatch
        | ok entries =>
          refine ⟨.inr (.inl ⟨tr, [], app, entries, rfl, rfl, fun x => ⟨hquiet x, by simp⟩,
            hmodify, fun _ => htruth app rfl⟩), .inl ⟨hunapplied _, rfl, rfl⟩⟩
  · -- the write
    cases hp
    have hend : Phase objectId modify (tr ++ [.call i ⟨.patchApplication objectId (bodyOf entries), r⟩])
        s' i (.done r) := by
      refine .inr (.inr ⟨r, rfl, fun app' err hmem herr => ?_⟩)
      have happ : app' = app := by
        rw [htr] at hmem
        simp only [List.mem_append, List.mem_cons] at hmem
        rcases hmem with (hmem | hmem | hmem) | hmem | hmem
        · exact absurd hmem (hown _).1
        · cases hmem
          rfl
        · exact absurd hmem (hown _).2
        · cases hmem
        · exact absurd hmem List.not_mem_nil
      rw [happ, hnext] at herr
      exact absurd herr (by simp)
    refine ⟨hend, ?_⟩
    cases r with
    | error err =>
      refine .inl ⟨?_, rfl, hw⟩
      rintro ⟨j, id, body, heq⟩
      cases heq
    | ok u =>
      refine .inr ⟨rfl, fun hapart => ?_⟩
      have hfresh := hread (hapart i before between [] objectId app (bodyOf entries) (by simp [htr]))
      have hs' : s' = entriesIn (bodyOf entries) := hw
      rw [hs', entriesIn_bodyOf, ← hfresh, hnext]
  · cases hp

end Phases

/-! ## Runs -/

theorem Apart.of_snoc {tr : List (Event N)} {e : Event N} (h : Apart (tr ++ [e])) : Apart tr := by
  intro i before between after objectId app body htr
  exact h i before between (after ++ [e]) objectId app body (by simp [htr])

section Runs

variable {objectId : Text} {edits : List Edit} {initial : List (Json N)} {tr : List (Event N)}
  {pool : Pool (Answer (N := N)) (Except GraphError Unit) (List (Json N))}

/-- Each call stands somewhere, and as long as the writes are apart the array holds what is settled. -/
def Standing (objectId : Text) (edits : List Edit) (initial : List (Json N)) (tr : List (Event N))
    (pool : Pool (Answer (N := N)) (Except GraphError Unit) (List (Json N))) : Prop :=
  pool.threads.length = edits.length ∧
  (∀ (i : Nat) edit p, edits[i]? = some edit → pool.threads[i]? = some p →
    Phase objectId edit.modify tr pool.shared i p) ∧
  (Apart tr → Kept initial (settled edits (pool.threads.map returnedOk)) pool.shared)

theorem settled_start (objectId : Text) (edits : List Edit) :
    settled edits ((edits.map (Edit.run objectId : Edit → Async N _)).map returnedOk) = [] := by
  induction edits with
  | nil => rfl
  | cons edit edits ih =>
    have hno : returnedOk (edit.run objectId : Async N _) = false := by
      rw [Edit.run_eq]
      rcases fetchModifyPatch_eq (N := N) objectId edit.modify with ⟨err, hdone⟩ | hask
      · rw [hdone]
        rfl
      · rw [hask]
        rfl
    simp only [List.map_cons, settled, hno, Bool.false_eq_true, if_false]
    exact ih

theorem standing_start : Standing objectId edits initial [] ⟨initial, edits.map (Edit.run objectId)⟩ := by
  refine ⟨by simp, fun i edit p hedit hp => .inl ⟨?_, by simp⟩, fun _ => ?_⟩
  · rw [List.getElem?_map, hedit, Option.map_some] at hp
    rw [← Option.some.inj hp, Edit.run_eq]
  · rw [settled_start]
    exact ⟨[], by simp, .refl _⟩

theorem Standing.step {pool' : Pool (Answer (N := N)) (Except GraphError Unit) (List (Json N))}
    {e : Event N} (h : Standing objectId edits initial tr pool)
    (hstep : Pool.Step (fun _ => False) world pool e pool') :
    Standing objectId edits initial (tr ++ [e]) pool' := by
  obtain ⟨hlength, hphases, hkept⟩ := h
  cases hstep with
  | start hp => exact hp.elim
  | @call s s' ts k c next r hthread hw =>
    have hk : k < ts.length := (List.getElem?_eq_some_iff.1 hthread).1
    obtain ⟨edit, hedit⟩ : ∃ edit, edits[k]? = some edit :=
      ⟨_, List.getElem?_eq_getElem (hlength ▸ hk)⟩
    obtain ⟨hown, hwrite⟩ := (hphases k edit _ hedit hthread).own hw
    have hflag : (ts.map returnedOk)[k]? = some false := by
      rw [List.getElem?_map, hthread]
      rfl
    refine ⟨by rw [List.length_set]; exact hlength, fun i edit' p hedit' hp => ?_, fun hapart => ?_⟩
    · by_cases hik : i = k
      · subst hik
        obtain rfl := Option.some.inj (hedit.symm.trans hedit')
        rw [List.getElem?_set_self hk] at hp
        exact Option.some.inj hp ▸ hown
      · rw [List.getElem?_set_ne (Ne.symm hik)] at hp
        refine (hphases i edit' p hedit' hp).other (fun x heq => ?_) fun hunapplied => ?_
        · cases heq
          exact hik rfl
        · rcases hwrite with ⟨-, -, hsame⟩ | ⟨hok, -⟩
          · exact hsame
          · -- only a write that succeeded makes a call return Ok
            cases c with
            | readApplication id => exact hw.1
            | patchApplication id body =>
              cases r with
              | error err => exact hw
              | ok u => exact absurd ⟨k, id, body, rfl⟩ hunapplied
    · have hbefore := hkept hapart.of_snoc
      rw [List.map_set]
      rcases hwrite with ⟨-, hno, rfl⟩ | ⟨hok, hnext⟩
      · rw [hno, set_same hflag]
        exact hbefore
      · rw [hok]
        exact (hbefore.modify (hnext hapart)).congr (settled_set_done hedit hflag)

theorem standing_of_run (hrun : EditRun objectId edits initial tr pool) :
    Standing objectId edits initial tr pool :=
  hrun.invariant (Standing objectId edits initial) standing_start
    fun _ _ _ _ _ h hstep => h.step hstep

/-- In every run whose writes are apart every state reached holds what is settled; in every run a
    removal that did not read its key id is refused. -/
theorem edits_kept (hrun : EditRun objectId edits initial tr pool) :
    (Apart tr → Kept initial (settled edits (pool.threads.map returnedOk)) pool.shared) ∧
      Refuses objectId edits tr pool.threads := by
  obtain ⟨hlength, hphases, hkept⟩ := standing_of_run hrun
  refine ⟨hkept, fun i keyId app hedit hread habsent => ?_⟩
  have hi : i < pool.threads.length := hlength ▸ (List.getElem?_eq_some_iff.1 hedit).1
  have hthread := List.getElem?_eq_getElem hi
  have hrefused := dropKeyId_absent habsent
  rcases hphases i _ _ hedit hthread with ⟨-, hquiet⟩ | ⟨before, between, app', next, -, rfl, hown,
    hnext, -⟩ | ⟨r, hdone, hend⟩
  · exact absurd hread (hquiet _)
  · have happ : app = app' := by
      simp only [List.mem_append, List.mem_cons] at hread
      rcases hread with hread | hread | hread
      · exact absurd hread (hown _).1
      · cases hread
        rfl
      · exact absurd hread (hown _).2
    have hnext : dropKeyId keyId (entriesIn app') = .ok next := hnext
    rw [← happ, hrefused] at hnext
    exact absurd hnext (by simp)
  · obtain ⟨rfl, hpatch⟩ := hend app _ hread hrefused
    exact ⟨by rw [hthread, hdone], hpatch⟩

end Runs

/-! ## Two calls, apart and overlapping -/

def oneEntry (keyId : Text) : Json Unit := .object [(keyIdName, .string keyId)]

def uploaded : NewKeyCredential :=
  ⟨some ['n'], some "Verify".toList, some "AsymmetricX509Cert".toList, none, none, ['k']⟩

/-- Every read is answered and every write takes effect. -/
def serve (_ : Nat) (s : List (Json Unit)) : (c : Call Unit) → Option (Answer c × List (Json Unit))
  | .readApplication _ => some (.ok (bodyOf s), s)
  | .patchApplication _ body => some (.ok (), entriesIn body)

theorem world_of_serve (i : Nat) (s : List (Json Unit)) (c : Call Unit) (r : Answer c)
    (s' : List (Json Unit)) (h : serve i s c = some (r, s')) : world s c r s' := by
  cases c with
  | readApplication id =>
    obtain ⟨rfl, rfl⟩ := Prod.mk.inj (Option.some.inj h)
    refine ⟨rfl, fun app happ => ?_⟩
    rw [← Except.ok.inj happ, entriesIn_bodyOf]
  | patchApplication id body =>
    obtain ⟨rfl, rfl⟩ := Prod.mk.inj (Option.some.inj h)
    rfl

theorem editRun_of_play {objectId : Text} {edits : List Edit} {initial : List (Json Unit)}
    {schedule : List Nat}
    {pool : Pool (Answer (N := Unit)) (Except GraphError Unit) (List (Json Unit))}
    (h : Pool.play serve schedule ⟨initial, edits.map (Edit.run objectId)⟩ = some pool) :
    ∃ tr, EditRun objectId edits initial tr pool := by
  obtain ⟨tr, hrun⟩ := Pool.run_of_play (fun _ => False) world (fun _ _ => True)
    (fun i s c r s' hserve => ⟨world_of_serve i s c r s' hserve, fun _ => trivial⟩) h
  exact ⟨tr, hrun.mono fun _ _ _ hstep => hstep.1⟩

def aAndB : List (Json Unit) := [oneEntry ['a'], oneEntry ['b']]

/-- A removal, and behind it an upload. -/
def oneByOne : List (Event Unit) :=
  [.call 0 ⟨.readApplication ['o'], .ok (bodyOf aAndB)⟩,
    .call 0 ⟨.patchApplication ['o'] (bodyOf [oneEntry ['b']]), .ok ()⟩,
    .call 1 ⟨.readApplication ['o'], .ok (bodyOf [oneEntry ['b']])⟩,
    .call 1 ⟨.patchApplication ['o'] (bodyOf [oneEntry ['b'], uploaded.toValue]), .ok ()⟩]

theorem apart_oneByOne : Apart oneByOne := by
  intro i before between after objectId app body htr e he happlied
  obtain ⟨j, id, body', rfl⟩ := happlied
  have hlength := congrArg List.length htr
  rcases before with _ | ⟨e₁, _ | ⟨e₂, before⟩⟩ <;>
    rcases between with _ | ⟨m₁, _ | ⟨m₂, _ | ⟨m₃, between⟩⟩⟩ <;> simp [oneByOne] at htr he hlength
  all_goals grind

theorem edits_kept_one_by_one : ∃ pool,
    EditRun ['o'] [.remove ['a'], .add uploaded] aAndB oneByOne pool ∧
      Kept aAndB [.remove ['a'], .add uploaded] pool.shared := by
  have hread : ∀ s : List (Json Unit), world s (.readApplication ['o']) (.ok (bodyOf s)) s :=
    fun s => ⟨rfl, fun app happ => by rw [← Except.ok.inj happ, entriesIn_bodyOf]⟩
  have hwrite : ∀ s s' : List (Json Unit), world s (.patchApplication ['o'] (bodyOf s')) (.ok ()) s' :=
    fun _ s' => (entriesIn_bodyOf s').symm
  have h₀ : EditRun ['o'] [.remove ['a'], .add uploaded] aAndB [] _ := .nil
  have h₁ := h₀.snoc (.callTo (i := 0) (.readApplication ['o']) _ _ rfl (hread aAndB) rfl)
  have h₂ := h₁.snoc (.callTo (i := 0) _ _ _ rfl (hwrite aAndB [oneEntry ['b']]) rfl)
  have h₃ := h₂.snoc (.callTo (i := 1) (.readApplication ['o']) _ _ rfl (hread [oneEntry ['b']]) rfl)
  have h₄ := h₃.snoc (.callTo (i := 1) _ _ _ rfl (hwrite _ [oneEntry ['b'], uploaded.toValue]) rfl)
  exact ⟨_, h₄, (edits_kept h₄).1 apart_oneByOne⟩

/-- An upload that read the array before a removal wrote it brings the removed certificate back. -/
theorem removed_comes_back :
    ¬ ∀ (objectId : Text) (edits : List Edit) (initial : List (Json Unit)) (tr : List (Event Unit))
      (pool : Pool (Answer (N := Unit)) (Except GraphError Unit) (List (Json Unit))),
      (initial.map (fun e => (e.get keyIdName).bind Json.asStr)).Nodup →
      EditRun objectId edits initial tr pool → (∀ p ∈ pool.threads, ∃ r, p = .done r) →
      Kept initial (settled edits (pool.threads.map returnedOk)) pool.shared ∧
        Refuses objectId edits tr pool.threads := by
  intro h
  have hplay : ∃ pool, Pool.play serve [0, 1, 1, 0] ⟨[oneEntry ['a']],
      [.add uploaded, .remove ['a']].map (Edit.run ['o'])⟩ = some pool ∧
      pool.shared.length = 2 ∧ pool.threads = [.done (.ok ()), .done (.ok ())] := ⟨_, rfl, rfl, rfl⟩
  obtain ⟨pool, hplay, hlength, hthreads⟩ := hplay
  obtain ⟨tr, hrun⟩ := editRun_of_play hplay
  obtain ⟨⟨added, hshared, hadded⟩, -⟩ := h ['o'] _ _ tr pool (by decide) hrun
    (by rw [hthreads]; intro p hp; simp at hp; exact ⟨_, hp⟩)
  have hone := hadded.length_eq
  have hsettled : settled [.add uploaded, .remove ['a']] (pool.threads.map returnedOk)
      = [.add uploaded, .remove ['a']] := by
    rw [hthreads]
    rfl
  have hkept : [oneEntry ['a']].filter (fun entry =>
    !List.any [.add uploaded, .remove ['a']] (Edit.removes entry)) = [] := rfl
  rw [hsettled] at hshared hone
  rw [hshared, hkept, List.nil_append, hone] at hlength
  exact absurd hlength (by decide)

end KeyCredentials
