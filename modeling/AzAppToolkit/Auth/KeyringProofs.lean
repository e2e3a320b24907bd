import AzAppToolkit.Auth.Keyring

set_option autoImplicit false

/-! # No stored token is a splice

Whatever the users of the keyring do at once, and whichever of their calls fail, every entry is a chunk
of one save, at its own label. The generation ties the chunks a load accepts to one save, so what it
returns is the token of that save. -/

namespace Auth

open Prog

/-! ## What all users keep -/

/-- The entry is a chunk of one of the saves. -/
def IsChunkOf (saves : List Save) (label value : Text) : Prop :=
  ∃ save ∈ saves, ∃ idx chunk, save.chunks[idx]? = some chunk ∧ label = save.account.label idx ∧
    value = encodeChunk idx save.chunks.length save.chunkGen chunk

/-- The generations are well formed, and no two saves share one. -/
structure FreshSaves (saves : List Save) : Prop where
  gens : ∀ save ∈ saves, IsChunkGen save.chunkGen
  distinct : (saves.map Save.chunkGen).Nodup

theorem FreshSaves.eq_of_chunkGen {saves : List Save} (h : FreshSaves saves) {save save' : Save}
    (hsave : save ∈ saves) (hsave' : save' ∈ saves) (heq : save.chunkGen = save'.chunkGen) :
    save = save' :=
  List.inj_on_of_nodup_map h.distinct hsave hsave' heq

/-- A keyring that holds nothing but chunks this code wrote: empty, a whole set or a torn one. -/
structure Store.Written (s : Store) : Prop where
  saves : FreshSaves s.saves
  entries : ∀ label value, s.entries.lookup label = some value → IsChunkOf s.saves label value

variable {saves saves' : List Save}

theorem IsChunkOf.mono {label value : Text}
    (h : IsChunkOf saves label value) (hle : saves <+: saves') : IsChunkOf saves' label value := by
  obtain ⟨save, hsave, hrest⟩ := h
  exact ⟨save, hle.subset hsave, hrest⟩

theorem IsChunkOf.fits {saves : List Save} {label value : Text} (h : IsChunkOf saves label value)
    (hfresh : FreshSaves saves) : utf16Bytes value ≤ maxChunkUtf16Bytes := by
  obtain ⟨save, hsave, idx, chunk, hchunk, -, rfl⟩ := h
  exact encodeChunk_fits save.token.count_lt (hfresh.gens save hsave)
    (splitIntoChunks_fits (List.mem_of_getElem? hchunk))

theorem Save.count_lt (save : Save) : save.chunks.length < 2 ^ 64 := save.token.count_lt

/-! ## What a user may rely on

The saves only grow, and an entry that is read is a chunk of one of them. -/

/-- The world as one user sees it: only the saves are known, and others begin more of them. -/
def relyWorld : World EntryAnswer (List Save)
  | saves, .newChunkGen account token, chunkGen, saves' =>
    saves <+: saves' ∧ FreshSaves saves' ∧ ⟨account, token, chunkGen⟩ ∈ saves'
  | saves, .getPassword label, .ok value, saves' =>
    saves <+: saves' ∧ FreshSaves saves' ∧ IsChunkOf saves' label value
  | saves, _, _, saves' => saves <+: saves' ∧ FreshSaves saves'

/-- What a user owes the others: it stores chunks of its saves only. -/
def StoresChunks (saves : List Save) : EntryCall → Prop
  | .setPassword label value => IsChunkOf saves label value
  | _ => True

theorem relyWorld_grows {c : EntryCall} {r : EntryAnswer c}
    (h : relyWorld saves c r saves') : saves <+: saves' ∧ FreshSaves saves' := by
  cases c with
  | ensureKeyringStore => exact h
  | newChunkGen account token => exact ⟨h.1, h.2.1⟩
  | setPassword label value => exact h
  | getPassword label =>
    cases r with
    | ok value => exact ⟨h.1, h.2.1⟩
    | error e => exact h
  | deleteCredential label => exact h

theorem relyWorld_mono {saves saves' saves'' : List Save} {c : EntryCall} {r : EntryAnswer c}
    (hle : saves <+: saves') (h : relyWorld saves' c r saves'') : relyWorld saves c r saves'' := by
  cases c with
  | ensureKeyringStore | newChunkGen account token | setPassword label value => exact ⟨hle.trans h.1, h.2⟩
  | getPassword label =>
    cases r with
    | ok value => exact ⟨hle.trans h.1, h.2⟩
    | error e => exact ⟨hle.trans h.1, h.2⟩
  | deleteCredential label => exact ⟨hle.trans h.1, h.2⟩

theorem StoresChunks.mono {c : EntryCall} (hle : saves <+: saves')
    (h : StoresChunks saves c) : StoresChunks saves' c := by
  cases c with
  | setPassword label value => exact IsChunkOf.mono h hle
  | ensureKeyringStore | newChunkGen _ _ | getPassword _ | deleteCredential _ => trivial

/-! ## The programs -/

section Programs

variable {post : List Save → KeyringResult → Prop} {saves : List Save}

/-- The world and the duties of a user. -/
abbrev Behaves {α : Type} (post : List Save → α → Prop) (saves : List Save) (p : Entries α) : Prop :=
  Meets relyWorld StoresChunks post saves p

/-- Nothing is asked of the result. -/
abbrev anyResult {α : Type} (_ : List Save) (_ : α) : Prop := True

theorem behaves_ensureKeyringStore : Behaves anyResult saves ensureKeyringStore :=
  Meets.call trivial (fun _ _ _ => trivial)

theorem behaves_deleteCredential (label : Text) : Behaves anyResult saves (deleteCredential label) :=
  Meets.call trivial (fun _ _ _ => trivial)

theorem behaves_withStore {α : Type} {post : List Save → Option (Except KeyringError α) → Prop}
    {p : Entries (Option (Except KeyringError α))}
    (herror : ∀ saves e, post saves (some (.error e))) (h : ∀ saves, Behaves post saves p) :
    Behaves post saves (withStore p) := by
  refine Meets.bind (behaves_ensureKeyringStore.mono (fun saves r _ => ?_))
  cases r with
  | error e => exact herror saves _
  | ok u => exact h saves

theorem behaves_loop {α β : Type} {body : β → Entries (β ⊕ α)}
    (h : ∀ saves b, Behaves anyResult saves (body b)) (fuel : Nat) (b : β) :
    Behaves anyResult saves (loop body fuel b) := by
  have hround : ∀ saves b, anyResult saves b →
      Behaves (fun saves r => Sum.elim (anyResult saves) (anyResult saves) r) saves (body b) := by
    intro saves b _
    exact (h saves b).mono (fun _ r _ => by cases r <;> trivial)
  exact (Meets.loop anyResult hround fuel trivial).mono (fun _ _ _ => trivial)

theorem behaves_deleteChunks (fuel : Nat) (account : Account) :
    Behaves anyResult saves (deleteChunks fuel account) := by
  refine behaves_loop (fun saves st => ?_) fuel _
  refine Meets.bind ((behaves_deleteCredential _).mono (fun saves r _ => ?_))
  rcases r with (_ | e) | u
  · dsimp only
    split <;> trivial
  · trivial
  · trivial

/-- A write stores the chunks of its save, in order. -/
theorem behaves_writeFrom {save : Save} (hmem : save ∈ saves) (idx : Nat) (rest : List Text)
    (hrest : save.chunks.drop idx = rest) (overwroteChunkZero : Bool) :
    Behaves anyResult saves
      (writeFrom save.account save.chunks.length save.chunkGen idx rest overwroteChunkZero) := by
  induction rest generalizing saves idx overwroteChunkZero with
  | nil => trivial
  | cons chunk rest ih =>
    have hchunk : save.chunks[idx]? = some chunk := by
      rw [← List.head?_drop, hrest, List.head?_cons]
    refine Meets.bind (Meets.call ⟨save, hmem, idx, chunk, hchunk, rfl, rfl⟩ ?_)
    intro r saves' hstep
    cases r with
    | error e => trivial
    | ok u =>
      refine ih ((relyWorld_grows hstep).1.subset hmem) (idx + 1) ?_ _
      rw [← List.drop_drop, hrest, List.drop_one, List.tail_cons]

theorem behaves_writeChunks (fuel : Nat) (account : Account) (token : RefreshToken) :
    Behaves anyResult saves (writeChunks fuel account token) := by
  refine Meets.bind (Meets.call trivial (fun chunkGen saves' hstep => ?_))
  have hmem : (⟨account, token, chunkGen⟩ : Save) ∈ saves' := hstep.2.2
  refine Meets.bind ((behaves_writeFrom hmem 0 _ rfl false).mono (fun saves r _ => ?_))
  obtain ⟨result, overwroteChunkZero⟩ := r
  cases result with
  | error e => trivial
  | ok u =>
    have hsweep : ∀ saves idx, Behaves anyResult saves (sweepRound account idx) := by
      intro saves idx
      refine Meets.bind ((behaves_deleteCredential _).mono (fun saves r _ => ?_))
      cases r with
      | error e => trivial
      | ok u => trivial
    exact Meets.bind ((behaves_loop hsweep fuel _).mono (fun _ _ _ => trivial))

theorem behaves_settleWrite (fuel : Nat) (account : Account) (overwroteChunkZero : Bool)
    (result : Except KeyringError Unit) :
    Behaves anyResult saves (settleWrite fuel account overwroteChunkZero result) := by
  unfold settleWrite
  split
  · trivial
  · split
    · exact Meets.bind ((behaves_deleteChunks fuel account).mono (fun _ _ _ => trivial))
    · trivial

theorem behaves_saveRefreshTokenIf (fuel : Nat) (account : Account) (token : RefreshToken)
    (stillCurrent : Bool) :
    Behaves anyResult saves (saveRefreshTokenIf fuel account token stillCurrent) := by
  refine behaves_withStore (fun _ _ => trivial) (fun saves => ?_)
  split
  · trivial
  · refine Meets.bind ((behaves_writeChunks fuel account token).mono (fun saves r _ => ?_))
    rcases r with _ | ⟨result, overwroteChunkZero⟩
    · trivial
    · exact behaves_settleWrite fuel account overwroteChunkZero result

/-! ### Loading -/

/-- The text is the token of one save of the account. -/
def TokenOf (saves : List Save) (account : Account) (text : Text) : Prop :=
  ∃ save ∈ saves, save.account = account ∧ save.token.text = text

/-- What a load of the account may return. -/
def GoodLoad (account : Account) (saves : List Save) (r : Except KeyringError (Option Text)) : Prop :=
  ∀ text, r = .ok (some text) → TokenOf saves account text

variable {account : Account}

theorem TokenOf.mono {text : Text}
    (h : TokenOf saves account text) (hle : saves <+: saves') : TokenOf saves' account text := by
  obtain ⟨save, hsave, hrest⟩ := h
  exact ⟨save, hle.subset hsave, hrest⟩

/-- The load has read the first chunks of one save, and nothing else. -/
def LoadState.Follows (st : LoadState) (save : Save) : Prop :=
  st.declared = some save.chunks.length ∧ st.expectedGen = some save.chunkGen ∧
    st.combined = (save.chunks.take st.idx).flatten

/-- The load has not begun, has seen a torn set, or follows one save of the account. -/
def Reading (account : Account) (saves : List Save) (st : LoadState) : Prop :=
  st = .start ∨ (st.idx ≠ 0 ∧
    (st.genMismatch = true ∨ ∃ save ∈ saves, save.account = account ∧ st.Follows save))

theorem flatten_take_succ {l : List Text} {idx : Nat} {chunk : Text} (h : l[idx]? = some chunk) :
    (l.take (idx + 1)).flatten = (l.take idx).flatten ++ chunk := by
  rw [List.take_add_one, h]
  simp

theorem read_first {total : Nat} {chunkGen chunk : Text} (htotal : total < 2 ^ 64)
    (hgen : IsChunkGen chunkGen) : LoadState.start.read (encodeChunk 0 total chunkGen chunk) =
      ⟨chunk, 1, some total, some chunkGen, false⟩ := by
  unfold LoadState.read LoadState.readFirst
  rw [if_pos (show LoadState.start.idx = 0 from rfl), decode_encodeChunk_zero htotal hgen]
  rfl

theorem read_later {st : LoadState} {total : Nat} {expected chunkGen chunk : Text} (hidx : st.idx ≠ 0)
    (hexpected : st.expectedGen = some expected) (hgen : IsChunkGen chunkGen) :
    st.read (encodeChunk st.idx total chunkGen chunk) =
      if chunkGen = expected then { st with combined := st.combined ++ chunk, idx := st.idx + 1 }
      else { st with genMismatch := true, idx := st.idx + 1 } := by
  unfold LoadState.read LoadState.readLater
  rw [if_neg hidx, hexpected, breakOn_encodeChunk hidx hgen]
  dsimp only
  split <;> simp

/-- A mismatch is never taken back. -/
theorem read_mismatch {st : LoadState} (hidx : st.idx ≠ 0) (h : st.genMismatch = true) (part : Text) :
    (st.read part).genMismatch = true := by
  unfold LoadState.read LoadState.readLater
  rw [if_neg hidx]
  dsimp only
  split
  · split
    · split
      · exact h
      · rfl
    · rfl
  · exact h

/-- The first chunk names the save the load will follow. -/
theorem reading_first {part : Text} (hfresh : FreshSaves saves)
    (h : IsChunkOf saves (account.label 0) part) : Reading account saves (LoadState.start.read part) := by
  obtain ⟨save, hsave, idx, chunk, hchunk, hlabel, rfl⟩ := h
  obtain ⟨haccount, rfl⟩ := Account.label_inj hlabel
  rw [read_first save.count_lt (hfresh.gens save hsave)]
  refine Or.inr ⟨by simp, Or.inr ⟨save, hsave, haccount.symm, rfl, rfl, ?_⟩⟩
  show chunk = (save.chunks.take (0 + 1)).flatten
  rw [flatten_take_succ hchunk, List.take_zero, List.flatten_nil, List.nil_append]

/-- A later chunk is of the save the load follows, or is told apart by its generation. -/
theorem reading_later {st : LoadState} {part : Text} (hfresh : FreshSaves saves)
    (hidx : st.idx ≠ 0) (hst : Reading account saves st)
    (h : IsChunkOf saves (account.label st.idx) part) : Reading account saves (st.read part) := by
  obtain ⟨save', hsave', idx, chunk, hchunk, hlabel, rfl⟩ := h
  obtain ⟨-, rfl⟩ := Account.label_inj hlabel
  rcases hst with rfl | ⟨-, hmismatch | ⟨save, hsave, haccount, hdeclared, hgen, hcombined⟩⟩
  · exact absurd rfl hidx
  · exact Or.inr ⟨by simp [LoadState.read], Or.inl (read_mismatch hidx hmismatch _)⟩
  · rw [read_later hidx hgen (hfresh.gens save' hsave')]
    split
    · next heq =>
      obtain rfl := hfresh.eq_of_chunkGen hsave' hsave heq
      refine Or.inr ⟨by simp, Or.inr ⟨save', hsave, haccount, hdeclared, hgen, ?_⟩⟩
      show st.combined ++ chunk = (save'.chunks.take (st.idx + 1)).flatten
      rw [hcombined, flatten_take_succ hchunk]
    · exact Or.inr ⟨by simp, Or.inl rfl⟩

/-- A load that ends returns the token it followed. -/
theorem goodLoad_finish {st : LoadState} (hst : Reading account saves st) :
    GoodLoad account saves (.ok st.finish) := by
  intro text htext
  have hfinish : st.finish = some text := Except.ok.inj htext
  unfold LoadState.finish at hfinish
  rcases hst with rfl | ⟨hidx, hmismatch | ⟨save, hsave, haccount, hdeclared, hgen, hcombined⟩⟩
  · exact absurd hfinish (by simp [LoadState.start])
  · rw [if_neg hidx, if_pos hmismatch] at hfinish
    exact absurd hfinish (by simp)
  · rw [if_neg hidx, hdeclared] at hfinish
    split at hfinish
    · exact absurd hfinish (by simp)
    · dsimp only at hfinish
      split at hfinish
      · next hlen =>
        refine ⟨save, hsave, haccount, ?_⟩
        rw [← Option.some.inj hfinish, hcombined, ← hlen, List.take_length]
        exact (flatten_splitIntoChunks save.token.text).symm
      · exact absurd hfinish (by simp)

theorem Reading.mono {saves' : List Save} {st : LoadState}
    (h : Reading account saves st) (hle : saves <+: saves') : Reading account saves' st := by
  rcases h with rfl | ⟨hidx, hmismatch | ⟨save, hsave, hrest⟩⟩
  · exact Or.inl rfl
  · exact Or.inr ⟨hidx, Or.inl hmismatch⟩
  · exact Or.inr ⟨hidx, Or.inr ⟨save, hle.subset hsave, hrest⟩⟩

theorem behaves_loadChunks (fuel : Nat) (account : Account) :
    Behaves (OnEnd (GoodLoad account)) saves (loadChunks fuel account) := by
  refine Meets.loop (Reading account) (fun saves st hst => ?_) fuel (Or.inl rfl)
  unfold loadRound
  split
  · exact goodLoad_finish hst
  · refine Meets.bind (Meets.call trivial (fun r saves' hstep => ?_))
    obtain ⟨hle, hfresh⟩ := relyWorld_grows hstep
    have hst' := hst.mono hle
    rcases r with (_ | e) | part
    · exact goodLoad_finish hst'
    · intro text htext
      exact absurd htext (by simp)
    · have hpart : IsChunkOf saves' (account.label st.idx) part := hstep.2.2
      by_cases hidx : st.idx = 0
      · rcases hst' with rfl | ⟨hne, -⟩
        · exact reading_first hfresh hpart
        · exact absurd hidx hne
      · exact reading_later hfresh hidx hst' hpart

theorem behaves_loadRefreshToken (fuel : Nat) (account : Account) :
    Behaves (OnEnd (GoodLoad account)) saves (loadRefreshToken fuel account) := by
  refine behaves_withStore (fun saves e r hr text htext => ?_)
    (fun saves => behaves_loadChunks fuel account)
  obtain rfl := Option.some.inj hr
  exact absurd htext (by simp)

/-! ### Purging -/

theorem behaves_purge (fuel : Nat) (account : Account) (outcome : PurgeOutcome) :
    Behaves anyResult saves (purge fuel account outcome) :=
  Meets.bind ((behaves_deleteChunks fuel account).mono (fun _ _ _ => trivial))

theorem behaves_deleteRefreshTokenIfCurrent (fuel : Nat) (account : Account) (rejected : Text) :
    Behaves anyResult saves (deleteRefreshTokenIfCurrent fuel account rejected) := by
  refine behaves_withStore (fun _ _ => trivial) (fun saves => ?_)
  refine Meets.bind ((behaves_loadChunks fuel account).mono (fun saves r _ => ?_))
  rcases r with _ | (e | (_ | current))
  · trivial
  · trivial
  · exact behaves_purge fuel account .alreadyGone
  · dsimp only
    split
    · trivial
    · exact behaves_purge fuel account .deleted

end Programs

/-! ## All users together -/

/-- What a user may return. -/
def GoodResult (saves : List Save) : KeyringResult → Prop
  | .loaded account result => OnEnd (GoodLoad account) saves result
  | _ => True

theorem GoodResult.mono {result : KeyringResult} (hle : saves <+: saves')
    (h : GoodResult saves result) : GoodResult saves' result := by
  cases result with
  | loaded account result => exact fun r hr text htext => (h r hr text htext).mono hle
  | saved _ | deleted _ | purged _ => trivial

theorem behaves_of_keyringUser {saves : List Save} {p : Entries KeyringResult} (h : KeyringUser p) :
    Behaves GoodResult saves p := by
  cases h with
  | save fuel account token stillCurrent =>
    exact Meets.bind ((behaves_saveRefreshTokenIf fuel account token stillCurrent).mono
      (fun _ _ _ => trivial))
  | load fuel account =>
    exact Meets.bind ((behaves_loadRefreshToken fuel account).mono (fun _ _ hr => hr))
  | delete fuel account =>
    exact Meets.bind ((behaves_withStore (fun _ _ => trivial)
      (fun saves => behaves_deleteChunks fuel account)).mono (fun _ _ _ => trivial))
  | purge fuel account rejected =>
    exact Meets.bind ((behaves_deleteRefreshTokenIfCurrent fuel account rejected).mono
      (fun _ _ _ => trivial))

theorem lookup_insert_chunk {s : Store} (hs : s.Written) {label value : Text}
    (h : IsChunkOf s.saves label value) :
    Store.Written { s with entries := s.entries.insert label value } := by
  refine ⟨hs.saves, fun label' value' hlookup => ?_⟩
  rw [AList.lookup_insert_eq] at hlookup
  split at hlookup
  · next heq =>
    rw [heq, ← Option.some.inj hlookup]
    exact h
  · exact hs.entries label' value' hlookup

theorem written_erase {s : Store} (hs : s.Written) (label : Text) :
    Store.Written { s with entries := s.entries.erase label } := by
  refine ⟨hs.saves, fun label' value hlookup => ?_⟩
  rw [AList.lookup_erase_eq] at hlookup
  split at hlookup
  · exact absurd hlookup (by simp)
  · exact hs.entries label' value hlookup

/-- A call that stores nothing but chunks keeps the store so, and is answered as its user relies on. -/
theorem written_step {s s' : Store} {c : EntryCall} {r : EntryAnswer c} (hs : s.Written)
    (hok : StoresChunks s.saves c) (h : entryWorld s c r s') :
    s'.Written ∧ relyWorld s.saves c r s'.saves := by
  have hself : s.saves <+: s.saves := List.prefix_rfl
  cases c with
  | ensureKeyringStore =>
    obtain rfl : s' = s := h
    exact ⟨hs, hself, hs.saves⟩
  | newChunkGen account token =>
    obtain ⟨hgen, hnew, rfl⟩ := h
    have hfresh : FreshSaves (s.saves ++ [⟨account, token, r⟩]) := by
      refine ⟨fun save hsave => ?_, ?_⟩
      · rcases List.mem_append.1 hsave with hsave | hsave
        · exact hs.saves.gens save hsave
        · rw [List.mem_singleton.1 hsave]
          exact hgen
      · rw [List.map_append, List.nodup_append]
        refine ⟨hs.saves.distinct, List.nodup_singleton _, fun a ha b hb heq => hnew ?_⟩
        rw [List.map_cons, List.map_nil, List.mem_singleton] at hb
        have hr : a = r := heq.trans hb
        exact hr ▸ ha
    have hle : s.saves <+: s.saves ++ [⟨account, token, r⟩] := List.prefix_append _ _
    exact ⟨⟨hfresh, fun label value hlookup => (hs.entries label value hlookup).mono hle⟩, hle, hfresh,
      by simp⟩
  | setPassword label value =>
    cases r with
    | ok u =>
      obtain rfl := h
      exact ⟨lookup_insert_chunk hs hok, hself, hs.saves⟩
    | error e =>
      rcases h with rfl | rfl
      · exact ⟨hs, hself, hs.saves⟩
      · exact ⟨lookup_insert_chunk hs hok, hself, hs.saves⟩
  | getPassword label =>
    rcases r with (_ | e) | value
    · obtain ⟨-, rfl⟩ := h
      exact ⟨hs, hself, hs.saves⟩
    · obtain rfl : s' = s := h
      exact ⟨hs, hself, hs.saves⟩
    · obtain ⟨hlookup, rfl⟩ := h
      exact ⟨hs, hself, hs.saves, hs.entries label value hlookup⟩
  | deleteCredential label =>
    rcases r with (_ | e) | u
    · obtain ⟨-, rfl⟩ := h
      exact ⟨hs, hself, hs.saves⟩
    · rcases h with rfl | rfl
      · exact ⟨hs, hself, hs.saves⟩
      · exact ⟨written_erase hs label, hself, hs.saves⟩
    · obtain ⟨-, rfl⟩ := h
      exact ⟨written_erase hs label, hself, hs.saves⟩

/-- What others do does not break what a user meets. -/
theorem behaves_mono {p : Entries KeyringResult}
    (h : Behaves GoodResult saves p) (hle : saves <+: saves') : Behaves GoodResult saves' p := by
  cases p with
  | done result => exact GoodResult.mono hle h
  | ask c next =>
    exact ⟨StoresChunks.mono hle h.1, fun r saves'' hstep => h.2 r saves'' (relyWorld_mono hle hstep)⟩

/-- Any number of users, from a keyring this code wrote. -/
abbrev KeyringRun (s : Store) (tr : List (Pool.Event EntryAnswer KeyringResult))
    (pool : Pool EntryAnswer KeyringResult Store) : Prop :=
  Run (Pool.Step KeyringUser entryWorld) ⟨s, []⟩ tr pool

/-- Whatever they do, the keyring holds chunks only and every thread returns what it may. -/
theorem keyringRun_good {s : Store} {tr : List (Pool.Event EntryAnswer KeyringResult)}
    {pool : Pool EntryAnswer KeyringResult Store} (hs : s.Written) (hrun : KeyringRun s tr pool) :
    pool.shared.Written ∧ ∀ result, .done result ∈ pool.threads →
      GoodResult pool.shared.saves result := by
  have hstart : (⟨s, []⟩ : Pool EntryAnswer KeyringResult Store).shared.Written := hs
  have hall := Pool.guarantee (w := entryWorld) Store.Written
    (fun s p => Behaves GoodResult s.saves p)
    (fun s p hp _ => behaves_of_keyringUser hp)
    (fun s c next r s' hstep hs hcaller =>
      have hgood := written_step hs hcaller.1 hstep
      ⟨hgood.1, hcaller.2 r s'.saves hgood.2⟩)
    (fun s c next r s' p hstep hs hcaller hp =>
      behaves_mono hp (relyWorld_grows (written_step hs hcaller.1 hstep).2).1)
    hstart (by simp) hrun
  exact ⟨hall.1, fun result hmem => hall.2 _ hmem⟩

end Auth
