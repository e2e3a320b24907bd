import AzAppToolkit.Auth.KeyringProofs

set_option autoImplicit false

/-! # A saved token loads again

With nobody else at the keyring and no call failing, a load after a save returns the token. -/

namespace Auth

open Prog

instance (g : Text) : Decidable (IsChunkGen g) :=
  inferInstanceAs (Decidable (g.length = chunkGenLen ∧
    ∀ c ∈ g, c.isAlphanum = true ∨ c = '-' ∨ c = '_'))

/-- A keyring that serves one user and never fails; the generation it draws has to be new. -/
def honest (chunkGen : Text) (s : Store) : (c : EntryCall) → Option (EntryAnswer c × Store)
  | .ensureKeyringStore => some (.ok (), s)
  | .newChunkGen account token =>
    if IsChunkGen chunkGen ∧ chunkGen ∉ s.saves.map Save.chunkGen then
      some (chunkGen, { s with saves := s.saves ++ [⟨account, token, chunkGen⟩] })
    else none
  | .setPassword label value => some (.ok (), { s with entries := s.entries.insert label value })
  | .getPassword label =>
    match s.entries.lookup label with
    | some value => some (.ok value, s)
    | none => some (.error .noEntry, s)
  | .deleteCredential label =>
    match s.entries.lookup label with
    | some _ => some (.ok (), { s with entries := s.entries.erase label })
    | none => some (.error .noEntry, s)

theorem entryWorld_of_honest {chunkGen : Text} {s s' : Store} {c : EntryCall} {r : EntryAnswer c}
    (h : honest chunkGen s c = some (r, s')) : entryWorld s c r s' := by
  cases c with
  | ensureKeyringStore =>
    obtain ⟨rfl, rfl⟩ := Prod.mk.inj (Option.some.inj h)
    rfl
  | newChunkGen account token =>
    unfold honest at h
    dsimp only at h
    split at h
    · next hfresh =>
      obtain ⟨rfl, rfl⟩ := Prod.mk.inj (Option.some.inj h)
      exact ⟨hfresh.1, hfresh.2, rfl⟩
    · exact absurd h (by simp)
  | setPassword label value =>
    obtain ⟨rfl, rfl⟩ := Prod.mk.inj (Option.some.inj h)
    rfl
  | getPassword label =>
    unfold honest at h
    dsimp only at h
    split at h
    · next value hlookup =>
      obtain ⟨rfl, rfl⟩ := Prod.mk.inj (Option.some.inj h)
      exact ⟨hlookup, rfl⟩
    · next hlookup =>
      obtain ⟨rfl, rfl⟩ := Prod.mk.inj (Option.some.inj h)
      exact ⟨hlookup, rfl⟩
  | deleteCredential label =>
    unfold honest at h
    dsimp only at h
    split at h
    · next value hlookup =>
      obtain ⟨rfl, rfl⟩ := Prod.mk.inj (Option.some.inj h)
      exact ⟨by rw [hlookup]; rfl, rfl⟩
    · next hlookup =>
      obtain ⟨rfl, rfl⟩ := Prod.mk.inj (Option.some.inj h)
      exact ⟨hlookup, rfl⟩

/-- Save the token, then load it. -/
def saveThenLoad (fuel : Nat) (account : Account) (token : RefreshToken) :
    Entries (Option (Except KeyringError Bool) × Option (Except KeyringError (Option Text))) := do
  let saved ← saveRefreshTokenIf fuel account token true
  let loaded ← loadRefreshToken fuel account
  pure (saved, loaded)

/-- What one user does keeps the keyring as this code writes it. -/
theorem written_of_exec {α : Type} {post : List Save → α → Prop} {s s' : Store} {p : Entries α} {a : α}
    (hexec : Exec entryWorld s p s' a) (hs : s.Written) (hp : Behaves post s.saves p) : s'.Written := by
  induction hexec with
  | done s a => exact hs
  | ask hstep _ ih =>
    obtain ⟨hs', hrely⟩ := written_step hs hp.1 hstep
    exact ih hs' (hp.2 _ _ hrely)

theorem behaves_saveThenLoad {saves : List Save} (fuel : Nat) (account : Account)
    (token : RefreshToken) : Behaves anyResult saves (saveThenLoad fuel account token) := by
  refine Meets.bind ((behaves_saveRefreshTokenIf fuel account token true).mono (fun saves r _ => ?_))
  exact Meets.bind ((behaves_loadRefreshToken fuel account).mono (fun _ _ _ => trivial))

/-! ## Writing -/

section Alone

variable (chunkGen : Text) (account : Account)

/-- The entries after the chunks from `idx` on were written: each at its label, the others as before. -/
structure WroteFrom (account : Account) (total : Nat) (chunkGen : Text) (idx : Nat) (rest : List Text)
    (entries entries' : Table Text Text) : Prop where
  chunk : ∀ j chunk, rest[j]? = some chunk →
    entries'.lookup (account.label (idx + j)) = some (encodeChunk (idx + j) total chunkGen chunk)
  other : ∀ label, (∀ j, j < rest.length → label ≠ account.label (idx + j)) →
    entries'.lookup label = entries.lookup label

theorem run_writeFrom (total : Nat) (g : Text) (idx : Nat) (rest : List Text)
    (overwroteChunkZero : Bool) (s : Store) : ∃ entries' overwrote,
      run (honest chunkGen) (writeFrom account total g idx rest overwroteChunkZero) s =
        some ((.ok (), overwrote), { s with entries := entries' }) ∧
      WroteFrom account total g idx rest s.entries entries' := by
  induction rest generalizing idx overwroteChunkZero s with
  | nil =>
    refine ⟨s.entries, overwroteChunkZero, rfl, fun j chunk hj => ?_, fun _ _ => rfl⟩
    exact absurd hj (by simp)
  | cons chunk rest ih =>
    obtain ⟨entries', overwrote, hrun, hchunk, hother⟩ := ih (idx + 1) (overwroteChunkZero || idx == 0)
      { s with entries := s.entries.insert (account.label idx) (encodeChunk idx total g chunk) }
    refine ⟨entries', overwrote, ?_, ?_, ?_⟩
    · unfold writeFrom setPassword
      rw [run_bind, run_call]
      exact hrun
    · intro j chunk' hj
      cases j with
      | zero =>
        obtain rfl : chunk = chunk' := by simpa using hj
        rw [Nat.add_zero, hother, AList.lookup_insert_eq, if_pos rfl]
        intro j _ heq
        have := (Account.label_inj heq).2
        omega
      | succ j =>
        have hstep := hchunk j chunk' (by simpa using hj)
        rwa [Nat.add_assoc, Nat.add_comm 1 j] at hstep
    · intro label hlabel
      rw [hother, AList.lookup_insert_eq, if_neg]
      · simpa using hlabel 0 (by simp)
      · intro j hj
        have hne := hlabel (j + 1) (by simpa using hj)
        rwa [Nat.add_comm j 1, ← Nat.add_assoc] at hne

/-! ## Sweeping -/

theorem length_keys_erase {entries : Table Text Text} {label value : Text}
    (h : entries.lookup label = some value) :
    (entries.erase label).keys.length < entries.keys.length := by
  have hmem : label ∈ entries.keys :=
    AList.mem_keys.1 ((AList.mem_iff_lookup entries label).2 ⟨value, h⟩)
  rw [AList.keys_erase, @List.length_erase_of_mem _ instBEqOfDecidableEq _ _ _ hmem]
  have := List.length_pos_of_mem hmem
  omega

/-- The sweep ends: it removes an entry in every round but the last. -/
theorem run_sweep (fuel idx : Nat) (s : Store) (hfuel : s.entries.keys.length < fuel) :
    ∃ entries', run (honest chunkGen) (loop (sweepRound account) fuel idx) s =
        some (some (), { s with entries := entries' }) ∧
      ∀ label, (∀ j, idx ≤ j → label ≠ account.label j) →
        entries'.lookup label = s.entries.lookup label := by
  induction fuel generalizing idx s with
  | zero => exact absurd hfuel (by omega)
  | succ fuel ih =>
    unfold loop sweepRound deleteCredential
    cases hlookup : s.entries.lookup (account.label idx) with
    | none =>
      refine ⟨s.entries, ?_, fun _ _ => rfl⟩
      have hserve : honest chunkGen s (.deleteCredential (account.label idx)) =
          some (.error .noEntry, s) := by simp [honest, hlookup]
      rw [run_bind, run_bind, run_call, hserve]
      rfl
    | some value =>
      have hserve : honest chunkGen s (.deleteCredential (account.label idx)) =
          some (.ok (), { s with entries := s.entries.erase (account.label idx) }) := by
        simp [honest, hlookup]
      have hless := length_keys_erase hlookup
      obtain ⟨entries', hrun, hother⟩ := ih (idx + 1)
        { s with entries := s.entries.erase (account.label idx) } (by dsimp only; omega)
      refine ⟨entries', ?_, fun label hlabel => ?_⟩
      · rw [run_bind, run_bind, run_call, hserve]
        exact hrun
      · rw [hother label (fun j hj => hlabel j (by omega)), AList.lookup_erase_eq,
          if_neg (hlabel idx (Nat.le_refl idx))]

/-! ## Loading -/

/-- The set of the save is in the store. -/
def Holds (save : Save) (entries : Table Text Text) : Prop :=
  ∀ idx chunk, save.chunks[idx]? = some chunk → entries.lookup (save.account.label idx) =
    some (encodeChunk idx save.chunks.length save.chunkGen chunk)

/-- A load that follows the save goes on to its end. -/
theorem run_loadRound {save : Save} {s : Store} (hgen : IsChunkGen save.chunkGen)
    (h : Holds save s.entries) (fuel : Nat) (st : LoadState) (hidx : st.idx ≠ 0)
    (hle : st.idx ≤ save.chunks.length) (hmatch : st.genMismatch = false) (hst : st.Follows save)
    (hfuel : save.chunks.length - st.idx < fuel) :
    run (honest chunkGen) (loop (loadRound save.account) fuel st) s =
      some (some (.ok (some save.token.text)), s) := by
  induction fuel generalizing st with
  | zero => exact absurd hfuel (by omega)
  | succ fuel ih =>
    obtain ⟨hdeclared, hexpected, hcombined⟩ := hst
    unfold loop loadRound
    by_cases hend : st.idx = save.chunks.length
    · have hcomplete : st.complete = true := by
        unfold LoadState.complete
        rw [hexpected, hdeclared, hend]
        simp
      have hfinish : st.finish = some save.token.text := by
        unfold LoadState.finish
        rw [if_neg hidx, hmatch, hdeclared]
        simp only [Bool.false_eq_true, if_false]
        rw [if_pos hend.symm, hcombined, hend, List.take_length]
        exact congrArg some (flatten_splitIntoChunks save.token.text)
      rw [if_pos hcomplete, hfinish]
      rfl
    · have hcomplete : st.complete = false := by
        unfold LoadState.complete
        rw [hdeclared, Option.some_beq_some, beq_eq_false_iff_ne.2 (Ne.symm hend), Bool.and_false]
      have hlt : st.idx < save.chunks.length := by omega
      have hchunk : save.chunks[st.idx]? = some (save.chunks.get ⟨st.idx, hlt⟩) :=
        List.getElem?_eq_getElem hlt
      have hserve : honest chunkGen s (.getPassword (save.account.label st.idx)) =
          some (.ok (encodeChunk st.idx save.chunks.length save.chunkGen
            (save.chunks.get ⟨st.idx, hlt⟩)), s) := by
        simp only [honest, h st.idx _ hchunk]
      rw [if_neg (by rw [hcomplete]; simp)]
      unfold getPassword
      rw [run_bind, run_bind, run_call, hserve]
      refine ih _ ?_ ?_ ?_ ?_ ?_
      all_goals rw [read_later hidx hexpected hgen, if_pos rfl]
      · simp
      · exact hlt
      · exact hmatch
      · refine ⟨hdeclared, hexpected, ?_⟩
        show st.combined ++ _ = (save.chunks.take (st.idx + 1)).flatten
        rw [flatten_take_succ hchunk, hcombined]
      · show save.chunks.length - (st.idx + 1) < fuel
        omega

theorem run_loadChunks {save : Save} {s : Store} (hgen : IsChunkGen save.chunkGen)
    (h : Holds save s.entries) (fuel : Nat) (hfuel : save.chunks.length < fuel) :
    run (honest chunkGen) (loadChunks fuel save.account) s =
      some (some (.ok (some save.token.text)), s) := by
  have hpos : 0 < save.chunks.length := splitIntoChunks_pos save.token.text
  have hchunk : save.chunks[0]? = some (save.chunks.get ⟨0, hpos⟩) := List.getElem?_eq_getElem hpos
  have hserve : honest chunkGen s (.getPassword (save.account.label 0)) =
      some (.ok (encodeChunk 0 save.chunks.length save.chunkGen (save.chunks.get ⟨0, hpos⟩)), s) := by
    simp only [honest, h 0 _ hchunk]
  cases fuel with
  | zero => exact absurd hfuel (by omega)
  | succ fuel =>
    unfold loadChunks loop loadRound
    rw [if_neg (show ¬ LoadState.start.complete = true by decide)]
    unfold getPassword
    rw [run_bind, run_bind]
    show ((run (honest chunkGen) (call (EntryCall.getPassword (save.account.label 0))) s).bind _).bind _ = _
    rw [run_call, hserve]
    refine run_loadRound chunkGen hgen h fuel _ ?_ ?_ ?_ ?_ ?_
    all_goals rw [read_first save.count_lt hgen]
    · simp
    · exact hpos
    · refine ⟨rfl, rfl, ?_⟩
      show _ = (save.chunks.take (0 + 1)).flatten
      rw [flatten_take_succ hchunk, List.take_zero, List.flatten_nil, List.nil_append]
    · show save.chunks.length - 1 < fuel
      omega

/-- Enough rounds for the sweep, and the token is saved. -/
theorem run_saveRefreshTokenIf {s : Store} (token : RefreshToken) (hgen : IsChunkGen chunkGen)
    (hfresh : chunkGen ∉ s.saves.map Save.chunkGen) :
    ∃ enough, ∀ fuel, enough ≤ fuel → ∃ entries',
      run (honest chunkGen) (saveRefreshTokenIf fuel account token true) s =
        some (some (.ok true), ⟨entries', s.saves ++ [⟨account, token, chunkGen⟩]⟩) ∧
      Holds ⟨account, token, chunkGen⟩ entries' := by
  let save : Save := ⟨account, token, chunkGen⟩
  let s₁ : Store := { s with saves := s.saves ++ [save] }
  obtain ⟨entries₁, overwrote, hwrite, hchunk, -⟩ := run_writeFrom chunkGen account
    save.chunks.length chunkGen 0 save.chunks false s₁
  refine ⟨entries₁.keys.length + 1, fun fuel hfuel => ?_⟩
  obtain ⟨entries₂, hsweep, hkept⟩ := run_sweep chunkGen account fuel save.chunks.length
    { s₁ with entries := entries₁ } (by dsimp only; omega)
  have hholds : Holds save entries₂ := by
    intro idx chunk hidx
    rw [hkept]
    · have hat := hchunk idx chunk hidx
      rw [Nat.zero_add] at hat
      exact hat
    · intro j hj heq
      have hlt := (List.getElem?_eq_some_iff.1 hidx).1
      have := (Account.label_inj heq).2
      omega
  have hdraw : honest chunkGen s (.newChunkGen account token) = some (chunkGen, s₁) := by
    simp only [honest]
    rw [if_pos ⟨hgen, hfresh⟩]
  have hwritten : run (honest chunkGen) (writeChunks fuel account token) s =
      some (some (.ok (), overwrote), { s₁ with entries := entries₂ }) := by
    unfold writeChunks newChunkGen
    rw [run_bind, run_call, hdraw]
    show run (honest chunkGen) (writeFrom account save.chunks.length chunkGen 0 save.chunks false >>= _)
      s₁ = _
    rw [run_bind, hwrite]
    show run (honest chunkGen) (loop (sweepRound account) fuel save.chunks.length >>= _)
      { s₁ with entries := entries₁ } = _
    rw [run_bind, hsweep]
    rfl
  refine ⟨entries₂, ?_, hholds⟩
  unfold saveRefreshTokenIf withStore ensureKeyringStore
  rw [run_bind, run_call]
  show run (honest chunkGen) (writeChunks fuel account token >>= _) s = _
  rw [run_bind, hwritten]
  rfl

/-- Enough rounds for the loops, and the token is there again. -/
theorem run_saveThenLoad {s : Store} (token : RefreshToken) (hgen : IsChunkGen chunkGen)
    (hfresh : chunkGen ∉ s.saves.map Save.chunkGen) :
    ∃ enough, ∀ fuel, enough ≤ fuel → ∃ s', run (honest chunkGen) (saveThenLoad fuel account token) s =
      some ((some (.ok true), some (.ok (some token.text))), s') := by
  let save : Save := ⟨account, token, chunkGen⟩
  obtain ⟨enough, hsave⟩ := run_saveRefreshTokenIf chunkGen account token hgen hfresh
  refine ⟨max enough (save.chunks.length + 1), fun fuel hfuel => ?_⟩
  obtain ⟨entries', hsaved, hholds⟩ := hsave fuel (by omega)
  have hcount : save.chunks.length < fuel := by omega
  have hload := run_loadChunks chunkGen (s := ⟨entries', s.saves ++ [save]⟩) hgen hholds fuel hcount
  refine ⟨⟨entries', s.saves ++ [save]⟩, ?_⟩
  unfold saveThenLoad
  rw [run_bind, hsaved]
  show run (honest chunkGen) (loadRefreshToken fuel account >>= _) ⟨entries', s.saves ++ [save]⟩ = _
  unfold loadRefreshToken withStore ensureKeyringStore
  rw [run_bind, run_bind, run_call]
  show (run (honest chunkGen) (loadChunks fuel account) ⟨entries', s.saves ++ [save]⟩).bind _ = _
  rw [hload]
  rfl

end Alone

/-! ## The stored token -/

/-- What a load gives: nothing, an error or the token of one save. -/
def LoadedWhole (saves : List Save) (account : Account) (r : Except KeyringError (Option Text)) : Prop :=
  r = .ok none ∨ (∃ e, r = .error e) ∨ ∃ text, r = .ok (some text) ∧ TokenOf saves account text

theorem loadedWhole_of_goodLoad {saves : List Save} {account : Account}
    {r : Except KeyringError (Option Text)} (h : GoodLoad account saves r) :
    LoadedWhole saves account r := by
  rcases r with e | (_ | text)
  · exact Or.inr (Or.inl ⟨e, rfl⟩)
  · exact Or.inl rfl
  · exact Or.inr (Or.inr ⟨text, rfl, h text rfl⟩)

/-- The entries fit the smallest store. -/
def Store.Fits (s : Store) : Prop :=
  ∀ label value, s.entries.lookup label = some value → utf16Bytes value ≤ maxChunkUtf16Bytes

theorem Store.Written.fits {s : Store} (h : s.Written) : s.Fits :=
  fun label value hlookup => (h.entries label value hlookup).fits h.saves

/-- A stored refresh token is never a splice: whatever users of the keyring run at once and whichever
    calls fail, a load returns the token of one save that has begun. Alone and without failures, a
    load after a save returns its token. -/
theorem stored_token_is_whole (s : Store) (hs : s.Written) :
    (∀ tr pool, KeyringRun s tr pool → pool.shared.Fits ∧
      ∀ account r, .done (.loaded account (some r)) ∈ pool.threads →
        LoadedWhole pool.shared.saves account r) ∧
    ∀ account token chunkGen, IsChunkGen chunkGen → chunkGen ∉ s.saves.map Save.chunkGen →
      ∃ enough, ∀ fuel, enough ≤ fuel → ∃ s',
        run (honest chunkGen) (saveThenLoad fuel account token) s =
          some ((some (.ok true), some (.ok (some token.text))), s') ∧ s'.Fits := by
  refine ⟨fun tr pool hrun => ?_, fun account token chunkGen hgen hfresh => ?_⟩
  · obtain ⟨hwritten, hresults⟩ := keyringRun_good hs hrun
    refine ⟨hwritten.fits, fun account r hdone => loadedWhole_of_goodLoad ?_⟩
    exact hresults _ hdone r rfl
  · obtain ⟨enough, henough⟩ := run_saveThenLoad chunkGen account token hgen hfresh
    refine ⟨enough, fun fuel hfuel => ?_⟩
    obtain ⟨s', hrun⟩ := henough fuel hfuel
    have hserve : ∀ s c r s', honest chunkGen s c = some (r, s') → entryWorld s c r s' :=
      fun _ _ _ _ h => entryWorld_of_honest h
    have hexec := exec_of_run hserve hrun
    exact ⟨s', hrun, (written_of_exec hexec hs (behaves_saveThenLoad fuel account token)).fits⟩

def emptyStore : Store := ⟨∅, []⟩

theorem emptyStore_written : emptyStore.Written := by
  refine ⟨⟨fun save hsave => ?_, List.nodup_nil⟩, fun label value hlookup => ?_⟩
  · exact absurd hsave (by simp [emptyStore])
  · exact absurd hlookup (by simp [emptyStore])

def sampleAccount : Account := ⟨['t'], ['o'], by decide, by decide⟩

/-- A token is no longer than its chunks. -/
theorem utf16Bytes_le_chunks (token : Text) :
    utf16Bytes token ≤ (splitIntoChunks token).length * maxPayloadUtf16Bytes := by
  have hsum : ∀ chunks : List Text, (∀ c ∈ chunks, utf16Bytes c ≤ maxPayloadUtf16Bytes) →
      utf16Bytes chunks.flatten ≤ chunks.length * maxPayloadUtf16Bytes := by
    intro chunks hfits
    induction chunks with
    | nil => exact Nat.zero_le _
    | cons c rest ih =>
      have hc := hfits c List.mem_cons_self
      have hrest := ih (fun d hd => hfits d (List.mem_cons_of_mem c hd))
      rw [List.flatten_cons, utf16Bytes_append, List.length_cons, Nat.succ_mul]
      omega
  have hall := hsum (splitIntoChunks token) (fun c hc => splitIntoChunks_fits hc)
  rwa [flatten_splitIntoChunks] at hall

/-- A token of five chunks. -/
def longToken : RefreshToken := ⟨List.replicate 3920 'r', by
  rw [List.map_replicate, List.sum_replicate]
  decide⟩

theorem longToken_chunks : 5 ≤ (splitIntoChunks longToken.text).length := by
  have hle := utf16Bytes_le_chunks longToken.text
  have hascii : ∀ c ∈ longToken.text, c.toNat < 128 := by
    intro c hc
    rw [List.eq_of_mem_replicate hc]
    decide
  have hlength : longToken.text.length = 3920 := List.length_replicate
  rw [utf16Bytes_ascii hascii, hlength] at hle
  have hmax : maxPayloadUtf16Bytes = 1958 := rfl
  rw [hmax] at hle
  omega

/-- A token of two chunks. -/
def shortToken : RefreshToken := ⟨List.replicate 1000 't', by
  rw [List.map_replicate, List.sum_replicate]
  decide⟩

theorem isChunkGen_sample : IsChunkGen (List.replicate 16 'A') := by
  refine ⟨by decide, fun c hc => ?_⟩
  rw [List.eq_of_mem_replicate hc]
  decide

/-- The keyring once `longToken` was saved: its chunks are there and no other entry of the account. -/
theorem saved_longToken : ∃ s fuel,
    Exec entryWorld emptyStore (saveRefreshTokenIf fuel sampleAccount longToken true) s
      (some (.ok true)) ∧ s.Written ∧ s.saves = [⟨sampleAccount, longToken, List.replicate 16 'A'⟩] ∧
      ∀ j, (∃ value, s.entries.lookup (sampleAccount.label j) = some value) ↔
        j < (splitIntoChunks longToken.text).length := by
  obtain ⟨enough, hsave⟩ := run_saveRefreshTokenIf (s := emptyStore) (List.replicate 16 'A')
    sampleAccount longToken isChunkGen_sample (by simp [emptyStore])
  obtain ⟨entries, hrun, hholds⟩ := hsave enough (le_refl _)
  have hserve : ∀ s c r s', honest (List.replicate 16 'A') s c = some (r, s') →
      entryWorld s c r s' := fun _ _ _ _ h => entryWorld_of_honest h
  have hexec := exec_of_run hserve hrun
  have hwritten := written_of_exec hexec emptyStore_written
    (behaves_saveRefreshTokenIf enough sampleAccount longToken true)
  refine ⟨_, enough, hexec, hwritten, rfl, fun j => ⟨?_, fun hj => ?_⟩⟩
  · rintro ⟨value, hvalue⟩
    -- whatever is in the keyring is a chunk of that one save
    obtain ⟨save, hsaved, idx, chunk, hchunk, hlabel, -⟩ := hwritten.entries _ _ hvalue
    obtain rfl : save = ⟨sampleAccount, longToken, List.replicate 16 'A'⟩ :=
      by simpa [emptyStore] using hsaved
    rw [(Account.label_inj hlabel).2]
    exact (List.getElem?_eq_some_iff.1 hchunk).1
  · exact ⟨_, hholds j _ (List.getElem?_eq_getElem hj)⟩

/-- A token of two chunks saved over one of five. -/
theorem stored_token_is_whole_over_longer : ∃ s, s.Written ∧
    (∃ value, s.entries.lookup (sampleAccount.label 4) = some value) ∧
    ∃ enough, ∀ fuel, enough ≤ fuel → ∃ s',
      run (honest (List.replicate 16 'B')) (saveThenLoad fuel sampleAccount shortToken) s =
        some ((some (.ok true), some (.ok (some shortToken.text))), s') ∧ s'.Fits := by
  obtain ⟨s, fuel, -, hwritten, hsaves, hstored⟩ := saved_longToken
  refine ⟨s, hwritten, (hstored 4).2 longToken_chunks, (stored_token_is_whole s hwritten).2
    sampleAccount shortToken _ ⟨by decide, fun c hc => ?_⟩ (by simp [hsaves, List.replicate])⟩
  rw [List.eq_of_mem_replicate hc]
  decide

end Auth
