import AzAppToolkit.Auth.RoundTrip
import AzAppToolkit.Lib.Probing

set_option autoImplicit false

/-! # What a delete leaves behind

`delete_chunks` does not know how many entries a token has: it deletes from chunk 0 on and stops at
four missing entries in a row. A delete that returns has cleared the account exactly when no entry lay
behind such a gap; `NarrowGaps` is that condition on the keyring before it.

Saves and deletes come one after the other, under the chunk-set lock, and any call of theirs may
fail. -/

namespace Auth

open Prog

/-! ## The other deletes -/

/-- `onDeleted` is what the caller's closure, run under the lock, returns. -/
def Keyring.deleteRefreshTokenThen {T : Type} (fuel : Nat) (account : Account) (onDeleted : T) :
    Entries (Option (Except KeyringError T)) :=
  withStore (do
    let deleted ← deleteChunks fuel account
    pure (deleted.map (Except.map (fun _ => onDeleted))))

/-- `stillCurrent` is what the caller's check, made under the lock, found. -/
def deleteRefreshTokenIf (fuel : Nat) (account : Account) (stillCurrent : Bool) :
    Entries (Option (Except KeyringError Bool)) :=
  withStore (if !stillCurrent then pure (some (.ok false))
    else do
      let deleted ← deleteChunks fuel account
      pure (deleted.map (Except.map (fun _ => true))))

inductive KeyringOp where
  | save (account : Account) (token : RefreshToken) (stillCurrent : Bool)
  | delete (account : Account)
  | deleteThen (account : Account)
  | deleteIf (account : Account) (stillCurrent : Bool)
  | deleteIfCurrent (account : Account) (rejected : Text)

inductive OpResult where
  | saved (stored : Bool)
  | deleted
  | deletedIf (cleared : Bool)
  | purged (outcome : PurgeOutcome)

namespace KeyringOp

def account : KeyringOp → Account
  | save account _ _ | delete account | deleteThen account | deleteIf account _
  | deleteIfCurrent account _ => account

def program (fuel : Nat) : KeyringOp → Entries (Option (Except KeyringError OpResult))
  | save account token stillCurrent =>
    Option.map (Except.map OpResult.saved) <$> saveRefreshTokenIf fuel account token stillCurrent
  | delete account =>
    Option.map (Except.map (fun _ => OpResult.deleted)) <$> deleteRefreshToken fuel account
  | deleteThen account => Keyring.deleteRefreshTokenThen fuel account OpResult.deleted
  | deleteIf account stillCurrent =>
    Option.map (Except.map OpResult.deletedIf) <$> deleteRefreshTokenIf fuel account stillCurrent
  | deleteIfCurrent account rejected =>
    Option.map (Except.map OpResult.purged) <$> deleteRefreshTokenIfCurrent fuel account rejected

end KeyringOp

/-- The result says that the account's entries were deleted. -/
def OpResult.ReportsDeletion : OpResult → Prop
  | saved _ => False
  | deleted => True
  | deletedIf cleared => cleared = true
  | purged outcome => outcome ≠ .superseded

/-- One operation after the other; whichever of its calls fail, it ends with a result. -/
def OpStep (s : Store) (e : KeyringOp × Except KeyringError OpResult) (s' : Store) : Prop :=
  ∃ fuel, Exec entryWorld s (e.1.program fuel) s' (some e.2)

/-! ## Entries of an account -/

/-- Chunk `idx` of the account is in the keyring. -/
def Store.Holding (s : Store) (account : Account) (idx : Nat) : Prop :=
  ∃ value, s.entries.lookup (account.label idx) = some value

/-- The keyring has no entry of the account. -/
def Store.Cleared (s : Store) (account : Account) : Prop := ∀ idx, ¬ s.Holding account idx

/-- No entry of the account lies behind a gap that ends a delete. -/
def Store.NoWideGap (s : Store) (account : Account) : Prop :=
  NarrowGaps (s.Holding account) gapTolerance

theorem not_holding {s : Store} {account : Account} {idx : Nat} :
    ¬ s.Holding account idx ↔ s.entries.lookup (account.label idx) = none := by
  unfold Store.Holding
  rw [not_exists, Option.eq_none_iff_forall_ne_some]

/-! ## A delete -/

/-- The delete has come to `st.1`: everything before it is gone, and the rest is as it was. -/
structure Deleting (s : Store) (account : Account) (t : Store) (st : Nat × Nat) : Prop where
  probed : Probed (s.Holding account) gapTolerance st.1 st.2
  gone : ∀ j < st.1, ¬ t.Holding account j
  rest : ∀ j, st.1 ≤ j → t.entries.lookup (account.label j) = s.entries.lookup (account.label j)

section Delete

variable {s t : Store} {account : Account} {idx gap : Nat}

theorem Deleting.holding_iff (h : Deleting s account t (idx, gap)) {j : Nat} (hj : idx ≤ j) :
    t.Holding account j ↔ s.Holding account j := by
  unfold Store.Holding
  rw [h.rest j hj]

theorem Deleting.hit (h : Deleting s account t (idx, gap)) (hholds : t.Holding account idx) :
    Deleting s account { t with entries := t.entries.erase (account.label idx) } (idx + 1, 0) := by
  refine ⟨h.probed.hit ((h.holding_iff (le_refl idx)).1 hholds), fun j hj => ?_, fun j hj => ?_⟩
  · rw [not_holding, AList.lookup_erase_eq]
    split
    · rfl
    · next hne =>
      have hlt : j < idx := lt_of_le_of_ne (Nat.lt_succ_iff.1 hj) (fun heq => hne (by rw [heq]))
      exact not_holding.1 (h.gone j hlt)
  · rw [AList.lookup_erase_eq, if_neg]
    · exact h.rest j (Nat.le_of_succ_le hj)
    · intro heq
      have hidx := (Account.label_inj heq).2
      exact absurd hj (by dsimp only; omega)

theorem Deleting.miss (h : Deleting s account t (idx, gap)) (hmissing : ¬ t.Holding account idx)
    (hgap : gap + 1 < gapTolerance) : Deleting s account t (idx + 1, gap + 1) := by
  have hfree : ¬ s.Holding account idx := fun hs => hmissing ((h.holding_iff (le_refl idx)).2 hs)
  refine ⟨h.probed.miss hfree hgap, fun j hj => ?_, fun j hj => h.rest j (Nat.le_of_succ_le hj)⟩
  rcases Nat.lt_succ_iff_lt_or_eq.1 hj with hlt | rfl
  · exact h.gone j hlt
  · exact hmissing

/-- A delete that stops has found all entries if none of them lay behind a wide gap. -/
theorem Deleting.stop (h : Deleting s account t (idx, gap)) (hmissing : ¬ t.Holding account idx)
    (hgap : gapTolerance ≤ gap + 1) : t.Cleared account ↔ s.NoWideGap account := by
  have hfree : ¬ s.Holding account idx := fun hs => hmissing ((h.holding_iff (le_refl idx)).2 hs)
  have hleft : t.Cleared account ↔ ∀ j, s.Holding account j → j < idx := by
    constructor
    · intro hcleared j hj
      by_contra hge
      exact hcleared j ((h.holding_iff (not_lt.1 hge)).2 hj)
    · intro hbefore j hj
      by_cases hlt : j < idx
      · exact h.gone j hlt hj
      · exact hlt (hbefore j ((h.holding_iff (not_lt.1 hlt)).1 hj))
  exact hleft.trans (h.probed.stop_iff hfree hgap)

/-- Any call may be made: only what comes of it is of interest. -/
def anyEntryCall (_ : Store) (_ : EntryCall) : Prop := True

/-- What a delete returns tells of the entries there were before it. -/
def DeleteEnd (s : Store) (account : Account) (t : Store) (r : Except KeyringError Unit) : Prop :=
  r = .ok () → (t.Cleared account ↔ s.NoWideGap account)

theorem meets_deleteRound {st : Nat × Nat} (h : Deleting s account t st) :
    Meets entryWorld anyEntryCall
      (fun t r => Sum.elim (Deleting s account t) (DeleteEnd s account t) r) t
      (deleteRound account st) := by
  obtain ⟨idx, gap⟩ := st
  refine Meets.bind (Meets.call trivial (fun answer t' hanswer => ?_))
  rcases answer with (_ | e) | u
  · obtain ⟨hmissing, rfl⟩ := hanswer
    have hgone : ¬ t'.Holding account idx := not_holding.2 hmissing
    dsimp only
    split
    · next hgap => exact fun _ => h.stop hgone hgap
    · next hgap => exact h.miss hgone (not_le.1 hgap)
  · intro hok
    exact absurd hok (by simp)
  · obtain ⟨hsome, rfl⟩ := hanswer
    exact h.hit (Option.isSome_iff_exists.1 hsome)

theorem meets_deleteChunks (fuel : Nat) (s : Store) (account : Account) :
    Meets entryWorld anyEntryCall (OnEnd (DeleteEnd s account)) s (deleteChunks fuel account) := by
  refine Meets.loop (Deleting s account) (fun t st h => meets_deleteRound h) fuel ⟨?_, ?_, ?_⟩
  · exact Probed.start (by decide)
  · intro j hj
    exact absurd hj (Nat.not_lt_zero j)
  · exact fun _ _ => rfl

end Delete

/-! ## Every operation -/

section Operations

variable {s : Store} {account : Account} {α β : Type}

/-- Opening the store changes nothing. -/
theorem meets_withStore {post : Store → Option (Except KeyringError α) → Prop}
    {p : Entries (Option (Except KeyringError α))}
    (herror : ∀ e, post s (some (.error (.keyringUnavailable e))))
    (hp : Meets entryWorld anyEntryCall post s p) :
    Meets entryWorld anyEntryCall post s (withStore p) := by
  refine Meets.bind (Meets.call trivial (fun answer t hanswer => ?_))
  obtain rfl : t = s := hanswer
  cases answer with
  | error e => exact herror e
  | ok u => exact hp

/-- A load changes nothing. -/
theorem meets_loadChunks (fuel : Nat) (account : Account) :
    Meets entryWorld anyEntryCall (fun t _ => t = s) s (loadChunks fuel account) := by
  have hround : ∀ t (st : LoadState), t = s → Meets entryWorld anyEntryCall
      (fun t r => Sum.elim (fun _ => t = s) (fun _ => t = s) r) t (loadRound account st) := by
    rintro t st rfl
    unfold loadRound
    split
    · exact rfl
    · refine Meets.bind (Meets.call trivial (fun answer t' hanswer => ?_))
      rcases answer with (_ | e) | value
      · exact hanswer.2
      · exact hanswer
      · exact hanswer.2
  have hloop : ∀ (fuel : Nat) (st : LoadState),
      Meets entryWorld anyEntryCall (fun t _ => t = s) s (loop (loadRound account) fuel st) := by
    intro fuel
    induction fuel with
    | zero => exact fun _ => rfl
    | succ fuel ih =>
      intro st
      refine Meets.bind ((hround s st rfl).mono (fun t r hr => ?_))
      cases r with
      | inl st =>
        obtain rfl : t = s := hr
        exact ih st
      | inr result => exact hr
  exact hloop fuel .start

/-- The result of an operation tells of the entries there were before it. -/
def OpEnd (s : Store) (account : Account) (t : Store) : Option (Except KeyringError OpResult) → Prop
  | some (.ok result) =>
    result.ReportsDeletion → (t.Cleared account ↔ s.NoWideGap account)
  | _ => True

/-- A delete, and what is made of its result. -/
theorem meets_deleteThen (fuel : Nat) (s : Store) (account : Account) (f : Unit → α) (g : α → OpResult) :
    Meets entryWorld anyEntryCall
      (fun t r => OpEnd s account t (Option.map (Except.map g) r)) s
      (deleteChunks fuel account >>= fun deleted => pure (deleted.map (Except.map f))) := by
  refine Meets.bind ((meets_deleteChunks fuel s account).mono (fun t r hr => ?_))
  rcases r with _ | (e | u)
  · trivial
  · trivial
  · exact fun _ => hr (.ok u) rfl rfl

theorem meets_map {post : Store → Option (Except KeyringError OpResult) → Prop} (g : α → OpResult)
    {p : Entries (Option (Except KeyringError α))}
    (h : Meets entryWorld anyEntryCall (fun t r => post t (Option.map (Except.map g) r)) s p) :
    Meets entryWorld anyEntryCall post s (Option.map (Except.map g) <$> p) :=
  Meets.bind h

/-- What holds of every result holds of every program. -/
theorem meets_any {post : Store → β → Prop} (hpost : ∀ t r, post t r) (p : Entries β) (s : Store) :
    Meets entryWorld anyEntryCall post s p := by
  induction p generalizing s with
  | done r => exact hpost s r
  | ask c next ih => exact ⟨trivial, fun r t _ => ih r t⟩

theorem meets_program (fuel : Nat) (s : Store) (op : KeyringOp) :
    Meets entryWorld anyEntryCall (OpEnd s op.account) s (op.program fuel) := by
  cases op with
  | save account token stillCurrent =>
    refine meets_map _ (meets_any (fun t r => ?_) _ s)
    rcases r with _ | (e | stored)
    · trivial
    · trivial
    · exact fun hreports => hreports.elim
  | delete account =>
    refine meets_map _ (meets_withStore (fun _ => trivial) ?_)
    refine (meets_deleteChunks fuel s account).mono (fun t r hr => ?_)
    rcases r with _ | (e | u)
    · trivial
    · trivial
    · exact fun _ => hr (.ok u) rfl rfl
  | deleteThen account =>
    refine meets_withStore (fun _ => trivial) ?_
    refine (meets_deleteThen fuel s account (fun _ => OpResult.deleted) id).mono (fun t r hr => ?_)
    rcases r with _ | (e | result)
    · trivial
    · trivial
    · exact hr
  | deleteIf account stillCurrent =>
    refine meets_map _ (meets_withStore (fun _ => trivial) ?_)
    cases stillCurrent with
    | false => exact fun hreports => absurd hreports (by simp [OpResult.ReportsDeletion])
    | true => exact meets_deleteThen fuel s account (fun _ => true) OpResult.deletedIf
  | deleteIfCurrent account rejected =>
    refine meets_map _ (meets_withStore (fun _ => trivial) ?_)
    refine Meets.bind ((meets_loadChunks fuel account).mono (fun t loaded hload => ?_))
    obtain rfl : t = s := hload
    rcases loaded with _ | (e | (_ | current))
    · trivial
    · trivial
    · exact meets_deleteThen fuel t account (fun _ => .alreadyGone) OpResult.purged
    · dsimp only
      split
      · exact fun hreports => absurd rfl hreports
      · exact meets_deleteThen fuel t account (fun _ => .deleted) OpResult.purged

end Operations

/-- After any saves and deletes, whichever of their calls failed: a delete that reports success has left
    nothing of the account behind if and only if, before it, no entry of the account lay behind four
    missing ones. -/
theorem delete_leaves_nothing_iff (tr : List (KeyringOp × Except KeyringError OpResult)) (s : Store)
    (_hrun : Run OpStep emptyStore tr s) (op : KeyringOp) (result : OpResult) (s' : Store)
    (hstep : OpStep s (op, .ok result) s') (hreports : result.ReportsDeletion) :
    s'.Cleared op.account ↔ s.NoWideGap op.account := by
  obtain ⟨fuel, hexec⟩ := hstep
  exact (meets_program fuel s op).sound hexec hreports

/-! ## A delete that was refused -/

section Erase

variable {t : Store} {account : Account} {idx j : Nat}

theorem lookup_erase_label (hne : j ≠ idx) :
    (t.entries.erase (account.label idx)).lookup (account.label j) = t.entries.lookup (account.label j) :=
  (AList.lookup_erase_eq _ _ _).trans (if_neg fun heq => hne (Account.label_inj heq).2)

theorem holding_erase (hne : j ≠ idx) :
    Store.Holding { t with entries := t.entries.erase (account.label idx) } account j ↔
      t.Holding account j := by
  unfold Store.Holding
  rw [lookup_erase_label hne]

theorem deletes_held (h : t.Holding account idx) :
    entryWorld t (.deleteCredential (account.label idx)) (.ok ())
      { t with entries := t.entries.erase (account.label idx) } :=
  ⟨Option.isSome_iff_exists.2 h, rfl⟩

end Erase

/-- A delete that the keyring refuses at chunk `k` leaves the chunks from there on. -/
theorem exec_refused {t : Store} {account : Account} (fuel idx : Nat)
    (hholds : ∀ j, idx ≤ j → j ≤ idx + fuel → t.Holding account j) :
    ∃ t', Exec entryWorld t (loop (deleteRound account) (fuel + 1) (idx, 0)) t'
        (some (.error (.keyring []))) ∧
      ∀ j, t'.entries.lookup (account.label j) =
        if idx ≤ j ∧ j < idx + fuel then none else t.entries.lookup (account.label j) := by
  induction fuel generalizing t idx with
  | zero =>
    refine ⟨t, ?_, fun j => ?_⟩
    · have hfail : entryWorld t (.deleteCredential (account.label idx))
          (.error (.failed [])) t := .inl rfl
      exact .ask hfail (.done t _)
    · rw [if_neg (by omega)]
  | succ fuel ih =>
    obtain ⟨t', hexec, hlookup⟩ := ih (t := { t with entries := t.entries.erase (account.label idx) })
      (idx + 1) (fun j hj hle => (holding_erase (by omega)).2 (hholds j (by omega) (by omega)))
    refine ⟨t', .ask (deletes_held (hholds idx (le_refl _) (by omega))) hexec, fun j => ?_⟩
    · rw [hlookup j]
      by_cases heq : j = idx
      · rw [if_neg (by omega), if_pos (by omega), heq]
        exact (AList.lookup_erase_eq _ _ _).trans (if_pos rfl)
      · rw [lookup_erase_label heq]
        by_cases hmid : idx + 1 ≤ j ∧ j < idx + 1 + fuel
        · rw [if_pos hmid, if_pos (by omega)]
        · rw [if_neg hmid, if_neg (by omega)]

/-- A delete that finds four entries in a row missing is done. -/
theorem exec_gap {t : Store} {account : Account} {idx : Nat}
    (h : ∀ j, idx ≤ j → j < idx + 4 → ¬ t.Holding account j) :
    Exec entryWorld t (loop (deleteRound account) 4 (idx, 0)) t (some (.ok ())) := by
  have hmissing : ∀ j, idx ≤ j → j < idx + 4 → entryWorld t (.deleteCredential (account.label j))
      (.error .noEntry) t := fun j hle hlt => ⟨not_holding.1 (h j hle hlt), rfl⟩
  exact .ask (hmissing idx (by omega) (by omega)) (.ask (hmissing (idx + 1) (by omega) (by omega))
    (.ask (hmissing (idx + 2) (by omega) (by omega)) (.ask (hmissing (idx + 3) (by omega) (by omega))
      (.done t _))))

/-- A delete that has come to the first of the entries that are left, with no gap between them. -/
theorem exec_swept {t : Store} {account : Account} (n idx gap : Nat)
    (hholds : ∀ j, idx ≤ j → (t.Holding account j ↔ j ≤ idx + n)) :
    ∃ t', Exec entryWorld t (loop (deleteRound account) (n + 5) (idx, gap)) t' (some (.ok ())) := by
  induction n generalizing t idx gap with
  | zero =>
    refine ⟨_, .ask (deletes_held ((hholds idx (le_refl _)).2 (by omega))) (exec_gap fun j hle _ => ?_)⟩
    rw [holding_erase (by omega), hholds j (by omega)]
    omega
  | succ n ih =>
    obtain ⟨t', hrest⟩ := ih (t := { t with entries := t.entries.erase (account.label idx) })
      (idx + 1) 0 (fun j hj => by rw [holding_erase (by omega), hholds j (by omega)]; omega)
    exact ⟨t', .ask (deletes_held ((hholds idx (le_refl _)).2 (by omega))) hrest⟩

/-- A result is mapped where the program ends. -/
theorem exec_map {α β : Type} {s s' : Store} {p : Entries α} {a : α} (f : α → β)
    (h : Exec entryWorld s p s' a) : Exec entryWorld s (f <$> p) s' (f a) := by
  induction h with
  | done s a => exact .done s (f a)
  | ask hstep _ ih => exact .ask hstep ih

/-- An operation's result is its program's. -/
theorem opStep_of_exec {s s' : Store} {op : KeyringOp} {r : Except KeyringError OpResult} {α : Type}
    {g : α → OpResult} {a : Except KeyringError α} (fuel : Nat) {p : Entries (Option (Except KeyringError α))}
    (hop : op.program fuel = Option.map (Except.map g) <$> p)
    (hexec : Exec entryWorld s p s' (some a)) (hr : a.map g = r) : OpStep s (op, r) s' := by
  refine ⟨fuel, ?_⟩
  rw [hop, ← hr]
  exact exec_map (Option.map (Except.map g)) hexec

/-- A token of five chunks is saved to an empty keyring. -/
theorem opStep_saved : ∃ s,
    OpStep emptyStore (.save sampleAccount longToken true, .ok (.saved true)) s ∧
      ∀ j, s.Holding sampleAccount j ↔ j < (splitIntoChunks longToken.text).length := by
  obtain ⟨s, fuel, hexec, -, -, hstored⟩ := saved_longToken
  exact ⟨s, opStep_of_exec fuel rfl hexec rfl, hstored⟩

/-- The first delete is refused at chunk 4; the second reports success and leaves that chunk. -/
theorem retried_delete_leaves_fragment :
    ¬ ∀ tr s, Run OpStep emptyStore tr s → ∀ op result s', OpStep s (op, .ok result) s' →
      result.ReportsDeletion → s'.Cleared op.account := by
  intro hclaim
  obtain ⟨s₁, hsaved, hholds⟩ := opStep_saved
  have hstored : ∀ j, 0 ≤ j → j ≤ 0 + 4 → s₁.Holding sampleAccount j :=
    fun j _ hj => (hholds j).2 (lt_of_lt_of_le (by omega) longToken_chunks)
  obtain ⟨s₂, hrefused, hleft⟩ := exec_refused 4 0 hstored
  have hopen : ∀ s, entryWorld s .ensureKeyringStore (.ok ()) s := fun _ => rfl
  have hfailed : OpStep s₁ (.delete sampleAccount, .error (.keyring [])) s₂ :=
    opStep_of_exec 5 rfl (.ask (hopen s₁) hrefused) rfl
  have hgap : ∀ j < 4, ¬ s₂.Holding sampleAccount j := by
    intro j hj
    rw [not_holding, hleft j, if_pos (by omega)]
  have hretried : OpStep s₂ (.delete sampleAccount, .ok .deleted) s₂ :=
    opStep_of_exec 4 rfl (.ask (hopen s₂) (exec_gap (fun j _ hj => hgap j (by omega)))) rfl
  have hreached : Run OpStep emptyStore
      ([] ++ [(.save sampleAccount longToken true, .ok (.saved true))] ++
        [(.delete sampleAccount, .error (.keyring []))]) s₂ := .snoc (.snoc .nil hsaved) hfailed
  have hcleared := hclaim _ s₂ hreached (.delete sampleAccount) .deleted s₂ hretried trivial
  obtain ⟨value, hvalue⟩ := hstored 4 (Nat.zero_le _) (le_refl _)
  have hfragment : s₂.Holding sampleAccount 4 := by
    refine ⟨value, ?_⟩
    rw [hleft 4, if_neg (by omega)]
    exact hvalue
  exact hcleared 4 hfragment

/-- A token of five chunks is saved, a delete of it is refused at chunk 2, and the next one reports success:
    it has left nothing behind. -/
theorem delete_leaves_nothing_iff_retried : ∃ tr s s', Run OpStep emptyStore tr s ∧
    (.delete sampleAccount, .error (.keyring [])) ∈ tr ∧ s.Holding sampleAccount 4 ∧
    OpStep s (.delete sampleAccount, .ok .deleted) s' ∧ s'.Cleared sampleAccount := by
  obtain ⟨s₁, hsaved, hholds⟩ := opStep_saved
  have hlong := longToken_chunks
  generalize (splitIntoChunks longToken.text).length = n at hholds hlong
  obtain ⟨s₂, hrefused, hleft⟩ := @exec_refused s₁ sampleAccount 2 0
    (fun j _ hj => (hholds j).2 (by omega))
  have hopen : ∀ s, entryWorld s .ensureKeyringStore (.ok ()) s := fun _ => rfl
  have hfailed : OpStep s₁ (.delete sampleAccount, .error (.keyring [])) s₂ :=
    opStep_of_exec 3 rfl (.ask (hopen s₁) hrefused) rfl
  have hrest : ∀ j, s₂.Holding sampleAccount j ↔ 2 ≤ j ∧ j < n := by
    intro j
    rw [← hholds j, Store.Holding, Store.Holding, hleft j]
    by_cases hj : j < 2
    · simp [hj]
    · simp [hj, not_lt.1 hj]
  -- the two missing chunks are no wide gap
  have hmissing : ∀ j < 2, entryWorld s₂ (.deleteCredential (sampleAccount.label j))
      (.error .noEntry) s₂ := fun j hj => ⟨not_holding.1 (fun h => by have := (hrest j).1 h; omega), rfl⟩
  obtain ⟨s₃, hswept⟩ := @exec_swept s₂ sampleAccount
    (n - 3) 2 2 (fun j hj => by rw [hrest j]; omega)
  have hretried : OpStep s₂ (.delete sampleAccount, .ok .deleted) s₃ :=
    opStep_of_exec (n - 3 + 5 + 1 + 1) rfl (.ask (hopen s₂)
      (.ask (hmissing 0 (by decide)) (.ask (hmissing 1 (by decide)) hswept))) rfl
  refine ⟨_, s₂, s₃, .snoc (.snoc .nil hsaved) hfailed,
    List.mem_append_right _ List.mem_cons_self, (hrest 4).2 (by omega), hretried,
    (delete_leaves_nothing_iff _ s₂ (.snoc (.snoc .nil hsaved) hfailed) (.delete sampleAccount)
      .deleted s₃ hretried trivial).2 ?_⟩
  intro j hj hle
  have hgap : gapTolerance = 4 := rfl
  obtain ⟨hlo, hhi⟩ := (hrest j).1 hj
  exact ⟨j - 1, by omega, by omega, (hrest (j - 1)).2 (by omega)⟩

end Auth
