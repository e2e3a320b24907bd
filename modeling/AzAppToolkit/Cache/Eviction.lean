import AzAppToolkit.Cache.BucketProofs

set_option autoImplicit false

/-! # The eviction policy

What the put path's eviction is for: drop every entry older than the TTL, then drop the unpinned entries
used least recently until at most `cap` of them remain. `mostRecent` states the second part of the policy
without its loop, and `evictLru` is shown to be it; `evictIfNeeded`, which sweeps on the strength of a
bound, is then compared with the whole policy. -/

namespace Bucket

/-! ## The policy -/

def Entry.unexpired (e : Entry) (now : Instant) (ttl : Duration) : Bool :=
  decide (e.inserted.elapsed now ≤ ttl)

/-- How many unpinned entries were used after the tick. -/
def usedAfter (entries : Table String Entry) (tick : Nat) : Nat :=
  entries.countRows (fun e => !e.pinned && decide (tick < e.lastAccess))

/-- The pinned entries, and the `cap` unpinned ones used last. -/
def mostRecent (entries : Table String Entry) (cap : Nat) : Table String Entry :=
  entries.retain (fun _ e => e.pinned || decide (usedAfter entries e.lastAccess < cap))

def dropExpired (entries : Table String Entry) (now : Instant) (ttl : Duration) : Table String Entry :=
  entries.retain (fun _ e => Entry.unexpired e now ttl)

/-- Drop what is older than the TTL, then the least recently used down to the cap. -/
def evictionPolicy (entries : Table String Entry) (now : Instant) (ttl : Duration) (cap : Nat) :
    Table String Entry :=
  mostRecent (dropExpired entries now ttl) cap

variable {entries : Table String Entry}

theorem lookup_mostRecent {cap : Nat} {k : String} {e : Entry} :
    (mostRecent entries cap).lookup k = some e ↔
      entries.lookup k = some e ∧ (e.pinned = true ∨ usedAfter entries e.lastAccess < cap) := by
  simp [mostRecent, AList.lookup_retain, Option.filter_eq_some_iff]

theorem lookup_dropExpired {now : Instant} {ttl : Duration} {k : String} {e : Entry} :
    (dropExpired entries now ttl).lookup k = some e ↔
      entries.lookup k = some e ∧ Entry.unexpired e now ttl = true := by
  simp [dropExpired, AList.lookup_retain, Option.filter_eq_some_iff]

/-! ## Counting entries -/

/-- Rows of one table that are rows of another count no more there. -/
theorem countRows_le_of_lookup {t t' : Table String Entry} {p q : Entry → Bool}
    (h : ∀ k e, t.lookup k = some e → p e = true → t'.lookup k = some e ∧ q e = true) :
    t.countRows p ≤ t'.countRows q := by
  simp only [AList.countRows, List.countP_eq_length_filter]
  have hnodup : (t.entries.filter (fun r => p r.2)).Nodup :=
    (List.NodupKeys.nodup t.nodupKeys).filter _
  apply List.Subperm.length_le
  apply List.subperm_of_subset hnodup
  intro r hr
  obtain ⟨k, e⟩ := r
  obtain ⟨hmem, hp⟩ := List.mem_filter.1 hr
  obtain ⟨hlookup, hq⟩ := h k e ((AList.mem_entries_iff t k e).1 hmem) hp
  exact List.mem_filter.2 ⟨(AList.mem_entries_iff t' k e).2 hlookup, hq⟩

def unpinnedCount (entries : Table String Entry) : Nat := entries.countRows (fun e => !e.pinned)

/-- The entry itself was not used after its last use. -/
theorem usedAfter_lt_unpinnedCount {k : String} {e : Entry}
    (hk : entries.lookup k = some e) (hp : e.pinned = false) :
    usedAfter entries e.lastAccess < unpinnedCount entries := by
  have hself := AList.countRows_erase entries (fun e => !e.pinned) k e hk
  simp only [hp, Bool.not_false, if_true] at hself
  have hrest : usedAfter entries e.lastAccess ≤ (entries.erase k).countRows (fun e => !e.pinned) := by
    apply countRows_le_of_lookup
    intro k' e' hk' hused
    simp only [Bool.and_eq_true, Bool.not_eq_true', decide_eq_true_eq] at hused
    have hne : k' ≠ k := by
      intro heq
      subst heq
      rw [hk] at hk'
      obtain rfl := Option.some.inj hk'
      exact absurd hused.2 (lt_irrefl _)
    rw [AList.lookup_erase_eq, if_neg hne]
    exact ⟨hk', by simp [hused.1]⟩
  unfold unpinnedCount
  omega

variable {b : Bucket}

theorem unpinnedLen_eq (h : b.pinned = b.entries.countRows (·.pinned)) :
    b.unpinnedLen = unpinnedCount b.entries := by
  have hsplit : b.entries.countRows (·.pinned) + unpinnedCount b.entries = b.entries.entries.length := by
    unfold unpinnedCount AList.countRows
    have hlen := List.length_eq_countP_add_countP (l := b.entries.entries) (fun r => r.2.pinned)
    simpa using hlen.symm
  simp only [unpinnedLen, h]
  omega

/-! ## The loop makes room -/

/-- Enough turns get to the cap. -/
theorem evictLruLoop_ceiling (maxSize : Nat) (turns : Nat) :
    ∀ (b : Bucket) (skipped : List (Nat × String)), LoopInv b skipped →
      b.lru.entries.length ≤ turns →
      (evictLruLoop maxSize turns b skipped).1.unpinnedLen ≤ maxSize := by
  -- without rows left, every entry is one that was set aside
  have hempty : ∀ (b : Bucket) (skipped : List (Nat × String)), LoopInv b skipped →
      b.lru.entries = [] → b.unpinnedLen ≤ maxSize := by
    intro b skipped h hnil
    rw [unpinnedLen_eq h.pinned_eq]
    have hnone : unpinnedCount b.entries ≤ (∅ : Table String Entry).countRows (fun _ => true) := by
      apply countRows_le_of_lookup
      intro k e hk hp
      rcases (h.rows e.lastAccess k).2 ⟨e, hk, rfl⟩ with hrow | hskipped
      · have hmem := (AList.mem_entries_iff b.lru e.lastAccess k).2 hrow
        simp [hnil] at hmem
      · obtain ⟨e', he', hpinned⟩ := h.skipped_pinned _ _ hskipped
        rw [hk] at he'
        obtain rfl := Option.some.inj he'
        simp [hpinned] at hp
    simp at hnone
    omega
  induction turns with
  | zero =>
    intro b skipped h hlen
    exact hempty b skipped h (List.length_eq_zero_iff.1 (Nat.le_zero.1 hlen))
  | succ turns ih =>
    intro b skipped h hlen
    rw [evictLruLoop]
    split
    · split
      · next hpop => exact hempty b skipped h (AList.popFirst_eq_none _ hpop)
      · next tick key lru hpop =>
        obtain ⟨hrow, rfl, -⟩ := AList.popFirst_eq_some _ _ _ _ hpop
        obtain ⟨e, he, hla⟩ := h.row hrow
        have hrest : (b.lru.erase tick).entries.length ≤ turns := by
          have := AList.length_erase b.lru tick key hrow
          omega
        simp only [he, hla, ne_eq, not_true_eq_false, if_false]
        split
        · next hp => exact ih _ _ (h.skip hrow he hp) hrest
        · next hp => exact ih _ _ (h.drop hrow he (by simpa using hp)) hrest
    · next hunder => simpa using hunder

theorem unpinnedLen_evictLru_le (h : Consistent b) (maxSize : Nat) :
    (b.evictLru maxSize).unpinnedLen ≤ maxSize :=
  evictLruLoop_ceiling maxSize _ b [] h.loopInv (Nat.le_refl _)

/-- What the loop leaves is the policy's choice. -/
theorem get_evictLru (h : Consistent b) (maxSize : Nat) (k : String) (e : Entry) :
    (b.evictLru maxSize).get k = some e ↔ (mostRecent b.entries maxSize).lookup k = some e := by
  have post := evictLru_post h maxSize
  have hceiling := unpinnedLen_evictLru_le h maxSize
  rw [unpinnedLen_eq (h.evictLru maxSize).pinned_eq] at hceiling
  have hfloor : maxSize < unpinnedCount b.entries → maxSize ≤ unpinnedCount (b.evictLru maxSize).entries := by
    intro hover
    rw [← unpinnedLen_eq (h.evictLru maxSize).pinned_eq]
    apply post.floor
    rw [unpinnedLen_eq h.pinned_eq]
    exact Nat.le_of_lt hover
  rw [lookup_mostRecent]
  constructor
  · intro hk
    refine ⟨get_of_get_evictLru h hk, ?_⟩
    cases hp : e.pinned with
    | true => exact Or.inl rfl
    | false =>
      right
      -- whatever was used after a survivor survives
      have hused : usedAfter b.entries e.lastAccess ≤
          usedAfter (b.evictLru maxSize).entries e.lastAccess := by
        apply countRows_le_of_lookup
        intro k' e' hk' hafter
        refine ⟨?_, hafter⟩
        simp only [Bool.and_eq_true, Bool.not_eq_true', decide_eq_true_eq] at hafter
        cases hgone : (b.evictLru maxSize).entries.lookup k' with
        | none =>
          obtain ⟨-, -, hold⟩ := post.victim k' e' hk' hgone
          have := hold k e hk hp
          omega
        | some e'' =>
          have hsame : b.entries.lookup k' = some e'' := get_of_get_evictLru h hgone
          rw [hk'] at hsame
          exact hsame.symm
      have hself := usedAfter_lt_unpinnedCount hk hp
      omega
  · intro hk
    obtain ⟨hk, hrecent⟩ := hk
    cases hgone : (b.evictLru maxSize).get k with
    | some e' =>
      have hsame := get_of_get_evictLru h hgone
      rw [Bucket.get, hk] at hsame
      exact hsame.symm
    | none =>
      obtain ⟨hp, hover, hold⟩ := post.victim k e hk hgone
      rw [unpinnedLen_eq h.pinned_eq] at hover
      have hall : unpinnedCount (b.evictLru maxSize).entries ≤ usedAfter b.entries e.lastAccess := by
        apply countRows_le_of_lookup
        intro k' e' hk' hp'
        refine ⟨get_of_get_evictLru h hk', ?_⟩
        simp only [Bool.not_eq_true'] at hp'
        simp [hp', hold k' e' hk' hp']
      have := hfloor hover
      rcases hrecent with hpinned | hfew
      · simp [hp] at hpinned
      · omega

/-! ## The put path -/

/-- Whether the put path sweeps. -/
def sweepDue (b : Bucket) (clock : Clock) (ttl : Duration) (maxSize : Nat) : Bool :=
  let exactAllowed := decide (maxSize < b.unpinnedLen) && b.lastSweep.all
    (fun t => decide (atCapSweepInterval ttl < t.elapsed clock.lastSweep))
  b.oldestInsert.any
    (fun o => decide ((if exactAllowed then ttl else sweepAfter ttl) < o.elapsed clock.oldest))

/-- The entries after the sweep that the put path makes, if it makes one. -/
def sweptEntries (b : Bucket) (clock : Clock) (ttl : Duration) (maxSize : Nat) : Table String Entry :=
  if b.sweepDue clock ttl maxSize then
    b.entries.retain (fun key e => decide (e.inserted.elapsed (clock.visit key) ≤ ttl))
  else b.entries

theorem evictIfNeeded_eq (b : Bucket) (clock : Clock) (ttl : Duration) (maxSize : Nat) :
    b.evictIfNeeded clock ttl maxSize =
      if !b.sweepDue clock ttl maxSize && !decide (maxSize < b.unpinnedLen) then b
      else evictLru (if b.sweepDue clock ttl maxSize then b.evictExpired clock ttl else b) maxSize := by
  unfold evictIfNeeded sweepDue
  dsimp only
  cases b.lastSweep with
  | none | some t => cases b.oldestInsert <;> rfl

theorem mostRecent_of_unpinnedCount_le {cap : Nat}
    (h : unpinnedCount entries ≤ cap) (k : String) (e : Entry) :
    (mostRecent entries cap).lookup k = some e ↔ entries.lookup k = some e := by
  rw [lookup_mostRecent]
  constructor
  · intro hk
    exact hk.1
  · intro hk
    refine ⟨hk, ?_⟩
    cases hp : e.pinned with
    | true => exact Or.inl rfl
    | false =>
      have := usedAfter_lt_unpinnedCount hk hp
      right
      omega

/-- The put path leaves the policy's choice among the entries the sweep kept. -/
theorem get_evictIfNeeded (h : Consistent b) (clock : Clock) (ttl : Duration)
    (maxSize : Nat) (k : String) (e : Entry) :
    (b.evictIfNeeded clock ttl maxSize).get k = some e ↔
      (mostRecent (b.sweptEntries clock ttl maxSize) maxSize).lookup k = some e := by
  rw [evictIfNeeded_eq, sweptEntries]
  split
  · next hidle =>
    simp only [Bool.and_eq_true, Bool.not_eq_true', decide_eq_false_iff_not, Nat.not_lt] at hidle
    rw [hidle.1, if_neg Bool.false_ne_true, mostRecent_of_unpinnedCount_le]
    · rfl
    · rw [← unpinnedLen_eq h.pinned_eq]
      exact hidle.2
  · split
    · exact get_evictLru (h.evictExpired clock ttl) maxSize k e
    · exact get_evictLru h maxSize k e

theorem unpinnedLen_evictIfNeeded_le (h : Consistent b) (clock : Clock) (ttl : Duration)
    (maxSize : Nat) : (b.evictIfNeeded clock ttl maxSize).unpinnedLen ≤ maxSize := by
  rw [evictIfNeeded_eq]
  split
  · next hidle =>
    simp only [Bool.and_eq_true, Bool.not_eq_true', decide_eq_false_iff_not, Nat.not_lt] at hidle
    exact hidle.2
  · split
    · exact unpinnedLen_evictLru_le (h.evictExpired clock ttl) maxSize
    · exact unpinnedLen_evictLru_le h maxSize

/-- An entry that the clock does not find expired is kept by the sweep. -/
theorem lookup_sweptEntries {clock : Clock} {ttl : Duration} {maxSize : Nat} {k : String}
    {e : Entry} (hk : b.get k = some e) (hlive : e.inserted.elapsed (clock.visit k) ≤ ttl) :
    (b.sweptEntries clock ttl maxSize).lookup k = some e := by
  unfold sweptEntries
  split
  · rw [AList.lookup_retain, Option.filter_eq_some_iff]
    exact ⟨hk, by simpa using hlive⟩
  · exact hk

theorem of_lookup_sweptEntries {clock : Clock} {ttl : Duration} {maxSize : Nat} {k : String}
    {e : Entry} (hk : (b.sweptEntries clock ttl maxSize).lookup k = some e) : b.get k = some e := by
  unfold sweptEntries at hk
  split at hk
  · rw [AList.lookup_retain, Option.filter_eq_some_iff] at hk
    exact hk.1
  · exact hk

/-- While the clock stands still the sweep drops what is expired, or nothing. -/
theorem sweptEntries_still (b : Bucket) (now : Instant) (ttl : Duration) (maxSize : Nat) :
    b.sweptEntries (.still now) ttl maxSize = b.entries ∨
      b.sweptEntries (.still now) ttl maxSize = dropExpired b.entries now ttl := by
  unfold sweptEntries
  split
  · exact Or.inr rfl
  · exact Or.inl rfl

theorem dropExpired_eq_self {now : Instant} {ttl : Duration}
    (h : ∀ k e, entries.lookup k = some e → Entry.unexpired e now ttl = true) :
    dropExpired entries now ttl = entries := by
  apply AList.ext
  apply List.filter_eq_self.2
  intro r hr
  exact h r.1 r.2 ((AList.mem_entries_iff entries r.1 r.2).1 hr)

/-- Over the cap, with no sweep made lately, the put path sweeps whatever is expired. -/
theorem sweptEntries_over_cap {t now : Instant} (h : OldestOk t b) (ttl : Duration)
    {maxSize : Nat} (hover : maxSize < b.unpinnedLen)
    (hsweep : ∀ t, b.lastSweep = some t → atCapSweepInterval ttl < t.elapsed now) :
    b.sweptEntries (.still now) ttl maxSize = dropExpired b.entries now ttl := by
  have hallowed : (decide (maxSize < b.unpinnedLen) && b.lastSweep.all
      (fun t => decide (atCapSweepInterval ttl < t.elapsed now))) = true := by
    cases hlast : b.lastSweep with
    | none => simp [hover]
    | some t => simp [hover, hsweep t hlast]
  have hdue : b.sweepDue (.still now) ttl maxSize =
      b.oldestInsert.any (fun o => decide (ttl < o.elapsed now)) := by
    unfold sweepDue Clock.still
    dsimp only
    rw [if_pos hallowed]
  rw [sweptEntries, hdue]
  split
  · rfl
  · next hnone =>
    symm
    apply dropExpired_eq_self
    intro k e hk
    obtain ⟨o, ho, hle⟩ := h.bound k e hk
    simp only [ho, Option.any_some, decide_eq_true_eq, Nat.not_lt] at hnone
    exact decide_eq_true ((Nat.sub_le_sub_left hle now).trans hnone)

/-- **The put path's eviction is the policy**, for what is not expired: exactly when the bucket is not over
    its cap or no sweep was made lately, and otherwise among the entries that the last sweep left. -/
theorem eviction_agrees_with_policy (ops : List Op) (hclock : (ops.filterMap Op.insertedAt).Pairwise (· ≤ ·))
    (ttl : Duration) (maxSize : Nat) (now : Instant) :
    let b := new.applyAll ops
    let after := b.evictIfNeeded (.still now) ttl maxSize
    ((b.unpinnedLen ≤ maxSize ∨ (∀ t, b.lastSweep = some t → atCapSweepInterval ttl < t.elapsed now)) →
      ∀ k e, Entry.unexpired e now ttl = true → (after.get k = some e ↔
        (evictionPolicy b.entries now ttl maxSize).lookup k = some e)) ∧
    (∀ k e, b.get k = some e → e.pinned = true → Entry.unexpired e now ttl = true →
      after.get k = some e) ∧
    after.unpinnedLen ≤ maxSize ∧
    (∃ swept, (swept = b.entries ∨ swept = dropExpired b.entries now ttl) ∧
      ∀ k e, after.get k = some e ↔ (mostRecent swept maxSize).lookup k = some e) := by
  intro b after
  have hc : Consistent b := consistent_new.applyAll ops
  have hold : OldestOk 0 new :=
    ⟨fun k e hk => by simp at hk, fun k e hk => by simp at hk, fun o ho => absurd ho nofun⟩
  obtain ⟨t, holdest⟩ := oldestOk_applyAll ops hold consistent_new
    (List.pairwise_cons.2 ⟨fun _ _ => Nat.zero_le _, hclock⟩)
  have hget := get_evictIfNeeded hc (.still now) ttl maxSize
  refine ⟨?_, ?_, unpinnedLen_evictIfNeeded_le hc _ ttl maxSize,
    ⟨_, sweptEntries_still b now ttl maxSize, hget⟩⟩
  · intro hwhen k e hlive
    rw [hget]
    by_cases hover : maxSize < b.unpinnedLen
    · have hsweep := hwhen.resolve_left (Nat.not_le_of_lt hover)
      rw [sweptEntries_over_cap holdest ttl hover hsweep]
      rfl
    · -- under the cap neither side drops an unexpired entry
      have hunder : unpinnedCount b.entries ≤ maxSize := by
        rw [← unpinnedLen_eq hc.pinned_eq]
        exact Nat.le_of_not_lt hover
      have hdropped : unpinnedCount (dropExpired b.entries now ttl) ≤ maxSize := by
        apply le_trans _ hunder
        apply countRows_le_of_lookup
        intro k e hk hp
        exact ⟨(lookup_dropExpired.1 hk).1, hp⟩
      unfold evictionPolicy
      rw [mostRecent_of_unpinnedCount_le hdropped, lookup_dropExpired]
      rcases sweptEntries_still b now ttl maxSize with heq | heq
      · rw [heq, mostRecent_of_unpinnedCount_le hunder]
        simp [hlive]
      · rw [heq, mostRecent_of_unpinnedCount_le hdropped, lookup_dropExpired]
  · intro k e hk hp hlive
    rw [hget, lookup_mostRecent]
    exact ⟨lookup_sweptEntries hk (of_decide_eq_true hlive), Or.inl hp⟩

/-- Three unpinned entries and a cap of one, with nothing expired: the two used first go. -/
theorem eviction_keeps_last_used :
    let b := new.applyAll [.insert "a" 1 none false 10, .insert "b" 2 none false 20,
      .insert "c" 3 none false 30, .touch "a"]
    (b.evictIfNeeded (.still 35) 100 1).get "a" = some ⟨1, none, 10, 4, false, 1⟩ ∧
      (b.evictIfNeeded (.still 35) 100 1).unpinnedLen ≤ 1 := by
  have h := eviction_agrees_with_policy [.insert "a" 1 none false 10, .insert "b" 2 none false 20,
    .insert "c" 3 none false 30, .touch "a"] (by decide) 100 1 35
  refine ⟨(h.1 (Or.inr ?_) "a" _ (by decide)).2 (by decide), h.2.2.1⟩
  intro t ht
  nomatch ht

end Bucket
