import AzAppToolkit.Lib.Selecting
import AzAppToolkit.Lib.Text

set_option autoImplicit false

/-! # The ranking of the global search

The substring branch of `global_search` (`commands/search.rs`) ranks every row of the tenant's corpus
that the needle occurs in, buckets the matches by kind, and shows the best few of each bucket: an
unstable partial select keeps them and an unstable sort orders them.

What is shown is the front of the full stable sort, `rankedByFullSort`, since the position in the corpus
is the last part of the key. -/

namespace Search

open Selecting (Unstable byKey front Selected Sorted)

def searchTop : Nat := 10

def spIndexMax : Nat := 10000

inductive SearchKind where
  | appReg
  | enterprise
  | managedIdentity
deriving DecidableEq

/-- A row of the corpus, with its fields in lower case as the build made them. -/
structure SearchRow where
  id : Text
  appId : Text
  displayName : Text
  nameLc : Text
  appIdLc : Text
  idLc : Text
  kind : SearchKind

structure SearchCorpus where
  rows : List SearchRow
  indexTruncated : Bool

structure SearchHit where
  id : Text
  appId : Option Text
  displayName : Text

def SearchRow.hit (row : SearchRow) : SearchHit := ⟨row.id, some row.appId, row.displayName⟩

/-! ## Matching -/

/-- The tier of a match, the lower the better. -/
def relevance (needle nameLc appIdLc idLc : Text) : Option Nat :=
  if nameLc = needle then some 0
  else if needle.isPrefixOf nameLc then some 1
  else if needle.isPrefixOf appIdLc || needle.isPrefixOf idLc then some 2
  else if Text.contains needle nameLc || Text.contains needle appIdLc || Text.contains needle idLc then
    some 3
  else none

def SearchRow.relevance (row : SearchRow) (needle : Text) : Option Nat :=
  Search.relevance needle row.nameLc row.appIdLc row.idLc

/-- A row that the needle matched, with its position in the corpus. -/
structure Ranked where
  rank : Nat
  pos : Nat
  row : SearchRow

def Ranked.key (r : Ranked) : Nat ×ₗ Text ×ₗ Nat := toLex (r.rank, toLex (r.row.nameLc, r.pos))

structure Matches where
  appRegistrations : List Ranked := []
  enterpriseApps : List Ranked := []
  managedIdentities : List Ranked := []

def Matches.bucket (matched : Matches) : SearchKind → List Ranked
  | .appReg => matched.appRegistrations
  | .enterprise => matched.enterpriseApps
  | .managedIdentity => matched.managedIdentities

def Matches.push (matched : Matches) (r : Ranked) : Matches :=
  match r.row.kind with
  | .appReg => { matched with appRegistrations := matched.appRegistrations ++ [r] }
  | .enterprise => { matched with enterpriseApps := matched.enterpriseApps ++ [r] }
  | .managedIdentity => { matched with managedIdentities := matched.managedIdentities ++ [r] }

def Matches.step (needle : Text) (matched : Matches) (entry : SearchRow × Nat) : Matches :=
  match entry.1.relevance needle with
  | none => matched
  | some rank => matched.push ⟨rank, entry.2, entry.1⟩

def Matches.of (rows : List SearchRow) (needle : Text) : Matches :=
  rows.zipIdx.foldl (Matches.step needle) {}

/-! ## The select and the answer -/

/-- The best of a bucket, best first. -/
def finalize (slices : Unstable Ranked) (hits : List Ranked) : List SearchHit :=
  let kept :=
    if searchTop < hits.length then
      (slices.selectNthUnstableBy (searchTop - 1) (byKey Ranked.key) hits).take searchTop
    else hits
  (slices.sortUnstableBy (byKey Ranked.key) kept).map fun h => h.row.hit

structure GlobalSearchResults where
  query : Text
  lookedUpAsGuid : Bool
  appRegistrations : List SearchHit
  enterpriseApps : List SearchHit
  managedIdentities : List SearchHit
  appRegistrationsTotal : Nat
  enterpriseAppsTotal : Nat
  managedIdentitiesTotal : Nat
  corpusTruncated : Bool
  corpusCap : Nat
  lookupDegraded : Bool

/-- The branch of `global_search` for a query that is no GUID. -/
def globalSearch (unicode : Unicode) (slices : Unstable Ranked) (trimmed : Text)
    (corpus : SearchCorpus) : GlobalSearchResults :=
  let needle := unicode.toLowercase trimmed
  let matched := Matches.of corpus.rows needle
  { query := trimmed
    lookedUpAsGuid := false
    appRegistrations := finalize slices matched.appRegistrations
    enterpriseApps := finalize slices matched.enterpriseApps
    managedIdentities := finalize slices matched.managedIdentities
    -- counted before the buckets are cut down
    appRegistrationsTotal := matched.appRegistrations.length
    enterpriseAppsTotal := matched.enterpriseApps.length
    managedIdentitiesTotal := matched.managedIdentities.length
    corpusTruncated := corpus.indexTruncated
    corpusCap := spIndexMax
    lookupDegraded := false }

/-- What the answer shows of a kind, and the total it reports. -/
def GlobalSearchResults.shown (results : GlobalSearchResults) : SearchKind → List SearchHit × Nat
  | .appReg => (results.appRegistrations, results.appRegistrationsTotal)
  | .enterprise => (results.enterpriseApps, results.enterpriseAppsTotal)
  | .managedIdentity => (results.managedIdentities, results.managedIdentitiesTotal)

/-! ## The full sort -/

/-- A match as the full sort has it: its rank, its name in lower case, and the hit. -/
structure SortedHit where
  rank : Nat
  nameLc : Text
  hit : SearchHit

/-- By relevance, then by name. -/
def SortedHit.before (a b : SortedHit) : Bool :=
  decide (toLex (a.rank, a.nameLc) ≤ toLex (b.rank, b.nameLc))

/-- The matching rows of a kind, in the order of the corpus. -/
def matchingRows (rows : List SearchRow) (needle : Text) (kind : SearchKind) : List SortedHit :=
  (rows.filter (fun row => decide (row.kind = kind))).filterMap fun row =>
    (row.relevance needle).map fun rank => ⟨rank, row.nameLc, row.hit⟩

/-- The ranking before the partial select: a stable sort of every match, then the first few. With it the
number of matches. -/
def rankedByFullSort (rows : List SearchRow) (needle : Text) (kind : SearchKind) :
    List SearchHit × Nat :=
  let hits := matchingRows rows needle kind
  (((hits.mergeSort SortedHit.before).take searchTop).map SortedHit.hit, hits.length)

/-- What the full sort goes by, of an entry of a bucket. -/
def Ranked.sortedHit (r : Ranked) : SortedHit := ⟨r.rank, r.row.nameLc, r.row.hit⟩

/-! ## The buckets -/

/-- The entry of the corpus that a bucket takes. -/
def ranked (needle : Text) (kind : SearchKind) (entry : SearchRow × Nat) : Option Ranked :=
  if entry.1.kind = kind then (entry.1.relevance needle).map fun rank => ⟨rank, entry.2, entry.1⟩
  else none

theorem bucket_push (matched : Matches) (r : Ranked) (kind : SearchKind) :
    (matched.push r).bucket kind = matched.bucket kind ++ if r.row.kind = kind then [r] else [] := by
  unfold Matches.push
  cases hk : r.row.kind <;> cases kind <;> simp [Matches.bucket]

theorem bucket_step (needle : Text) (matched : Matches) (entry : SearchRow × Nat) (kind : SearchKind) :
    (Matches.step needle matched entry).bucket kind =
      matched.bucket kind ++ (ranked needle kind entry).toList := by
  unfold Matches.step ranked
  cases entry.1.relevance needle with
  | none => simp
  | some rank =>
    dsimp only
    rw [bucket_push]
    split <;> simp

/-- What the walk over the corpus adds to a bucket, from any buckets on. -/
theorem bucket_foldl (needle : Text) (kind : SearchKind) (entries : List (SearchRow × Nat))
    (matched : Matches) :
    (entries.foldl (Matches.step needle) matched).bucket kind =
      matched.bucket kind ++ entries.filterMap (ranked needle kind) := by
  induction entries generalizing matched with
  | nil => simp
  | cons entry entries ih =>
    rw [List.foldl_cons, ih, bucket_step, List.append_assoc, List.filterMap_cons]
    cases ranked needle kind entry <;> simp

theorem bucket_of (rows : List SearchRow) (needle : Text) (kind : SearchKind) :
    (Matches.of rows needle).bucket kind = rows.zipIdx.filterMap (ranked needle kind) := by
  unfold Matches.of
  rw [bucket_foldl]
  cases kind <;> simp [Matches.bucket]

theorem mem_bucket {rows : List SearchRow} {needle : Text} {kind : SearchKind} {r : Ranked} :
    r ∈ (Matches.of rows needle).bucket kind ↔
      rows[r.pos]? = some r.row ∧ r.row.kind = kind ∧ r.row.relevance needle = some r.rank := by
  rw [bucket_of, List.mem_filterMap]
  constructor
  · rintro ⟨⟨row, pos⟩, hentry, hranked⟩
    have hrow := List.mem_zipIdx_iff_getElem?.1 hentry
    unfold ranked at hranked
    split at hranked
    · next hkind =>
      obtain ⟨rank, hrank, rfl⟩ := Option.map_eq_some_iff.1 hranked
      exact ⟨hrow, hkind, hrank⟩
    · cases hranked
  · rintro ⟨hrow, hkind, hrank⟩
    refine ⟨(r.row, r.pos), List.mem_zipIdx_iff_getElem?.2 hrow, ?_⟩
    simp [ranked, hkind, hrank]

/-- The entries of a bucket are in the order of the corpus. -/
theorem bucket_places (rows : List SearchRow) (needle : Text) (kind : SearchKind) :
    ((Matches.of rows needle).bucket kind).Pairwise fun a b => a.pos < b.pos := by
  rw [bucket_of]
  have hzip : rows.zipIdx.Pairwise fun a b => a.2 < b.2 := by
    have h : (List.range' 0 rows.length).Pairwise (· < ·) := List.pairwise_lt_range'
    rw [← List.zipIdx_map_snd 0 rows] at h
    exact List.pairwise_map.1 h
  refine List.Pairwise.filterMap _ (fun a b hab c hc d hd => ?_) hzip
  have hpos : ∀ {e : SearchRow × Nat} {r}, ranked needle kind e = some r → r.pos = e.2 := by
    intro e r h
    unfold ranked at h
    split at h
    · obtain ⟨rank, -, rfl⟩ := Option.map_eq_some_iff.1 h
      rfl
    · cases h
  rwa [hpos hc, hpos hd]

/-- The bucket, without the positions, is the list that the full sort starts from. -/
theorem bucket_rows (rows : List SearchRow) (needle : Text) (kind : SearchKind) :
    ((Matches.of rows needle).bucket kind).map Ranked.sortedHit = matchingRows rows needle kind := by
  rw [bucket_of]
  unfold matchingRows
  rw [List.map_filterMap, List.filterMap_filter, ← List.zipIdx_map_fst 0 rows, List.filterMap_map]
  rw [List.zipIdx_map_fst]
  refine List.filterMap_congr fun entry _ => ?_
  unfold ranked
  split <;> simp_all [Function.comp_def, Ranked.sortedHit]

/-! ## The select is the full sort -/

def Ranked.before (a b : Ranked) : Bool := a.sortedHit.before b.sortedHit

theorem before_iff {a b : Ranked} :
    a.before b ↔ a.rank < b.rank ∨ a.rank = b.rank ∧ a.row.nameLc ≤ b.row.nameLc := by
  simp [Ranked.before, SortedHit.before, Ranked.sortedHit, Prod.Lex.le_iff]

theorem key_le_iff {a b : Ranked} : a.key ≤ b.key ↔ a.before b ∧ (b.before a → a.pos ≤ b.pos) := by
  rw [before_iff, before_iff]
  simp only [Ranked.key, Prod.Lex.le_iff, ofLex_toLex]
  constructor
  · rintro (hrank | ⟨hrank, hname | ⟨hname, hpos⟩⟩)
    · exact ⟨.inl hrank, fun h => by omega⟩
    · refine ⟨.inr ⟨hrank, hname.le⟩, fun h => ?_⟩
      exact h.elim (fun h => by omega) fun h => absurd h.2 (not_le.2 hname)
    · exact ⟨.inr ⟨hrank, hname.le⟩, fun _ => hpos⟩
  · rintro ⟨hrank | ⟨hrank, hname⟩, hpos⟩
    · exact .inl hrank
    · rcases hname.lt_or_eq with hlt | heq
      · exact .inr ⟨hrank, .inl hlt⟩
      · exact .inr ⟨hrank, .inr ⟨heq, hpos (.inr ⟨hrank.symm, heq.ge⟩)⟩⟩

theorem before_trans (a b c : Ranked) (hab : a.before b) (hbc : b.before c) : a.before c := by
  unfold Ranked.before SortedHit.before at *
  exact decide_eq_true ((of_decide_eq_true hab).trans (of_decide_eq_true hbc))

theorem before_total (a b : Ranked) : a.before b || b.before a := by
  unfold Ranked.before SortedHit.before
  rw [Bool.or_eq_true, decide_eq_true_iff, decide_eq_true_iff]
  exact le_total _ _

/-- Entries of one bucket with one key have one position, so they are one entry. -/
theorem eq_of_key {rows : List SearchRow} {needle : Text} {kind : SearchKind} {a b : Ranked}
    (ha : a ∈ (Matches.of rows needle).bucket kind) (hb : b ∈ (Matches.of rows needle).bucket kind)
    (h : a.key = b.key) : a = b := by
  obtain ⟨hrank, hname, hpos⟩ : a.rank = b.rank ∧ a.row.nameLc = b.row.nameLc ∧ a.pos = b.pos := by
    simpa [Ranked.key] using h
  have hrow := (mem_bucket.1 ha).1
  rw [hpos, (mem_bucket.1 hb).1] at hrow
  cases a
  cases b
  simp_all

/-- What a bucket shows, and its length, are what the full sort says. -/
theorem finalize_bucket {slices : Unstable Ranked} (h : slices.Honours Ranked.key)
    (rows : List SearchRow) (needle : Text) (kind : SearchKind) :
    (finalize slices ((Matches.of rows needle).bucket kind),
      ((Matches.of rows needle).bucket kind).length) = rankedByFullSort rows needle kind := by
  have hstable : Sorted Ranked.key ((Matches.of rows needle).bucket kind)
      (((Matches.of rows needle).bucket kind).mergeSort Ranked.before) :=
    Selecting.sorted_of_stable before_trans before_total (bucket_places rows needle kind)
      fun a b => key_le_iff
  have hfront := Selecting.front_eq_take h searchTop (by decide) hstable
    fun a ha b hb => eq_of_key ha hb
  have hsort : (((Matches.of rows needle).bucket kind).mergeSort Ranked.before).map Ranked.sortedHit
      = (matchingRows rows needle kind).mergeSort SortedHit.before := by
    rw [← bucket_rows]
    exact List.map_mergeSort fun a _ b _ => rfl
  unfold rankedByFullSort
  dsimp only
  rw [← hsort, ← List.map_take, List.map_map, ← hfront, ← bucket_rows, List.length_map]
  rfl

/-- The branch answers, for every kind, with what its bucket shows. -/
theorem globalSearch_shown (unicode : Unicode) (slices : Unstable Ranked) (trimmed : Text)
    (corpus : SearchCorpus) (kind : SearchKind) :
    (globalSearch unicode slices trimmed corpus).shown kind =
      (finalize slices ((Matches.of corpus.rows (unicode.toLowercase trimmed)).bucket kind),
        ((Matches.of corpus.rows (unicode.toLowercase trimmed)).bucket kind).length) := by
  cases kind <;> rfl

/-- Every bucket shows the front of the full stable sort of the rows it matched and counts all of them;
every matching row is in exactly one bucket, once, and no other row is in any. -/
theorem partial_select_is_full_sort {slices : Unstable Ranked} (h : slices.Honours Ranked.key)
    (rows : List SearchRow) (needle : Text) :
    (∀ kind, (finalize slices ((Matches.of rows needle).bucket kind),
      ((Matches.of rows needle).bucket kind).length) = rankedByFullSort rows needle kind) ∧
    (∀ unicode trimmed corpus kind, (globalSearch unicode slices trimmed corpus).shown kind =
      rankedByFullSort corpus.rows (unicode.toLowercase trimmed) kind) ∧
    (∀ pos row rank, rows[pos]? = some row → row.relevance needle = some rank →
      ∃! kind, (⟨rank, pos, row⟩ : Ranked) ∈ (Matches.of rows needle).bucket kind) ∧
    ∀ kind, ((Matches.of rows needle).bucket kind).Pairwise (fun a b => a.pos ≠ b.pos) ∧
      ∀ r ∈ (Matches.of rows needle).bucket kind,
        rows[r.pos]? = some r.row ∧ r.row.relevance needle = some r.rank := by
  refine ⟨finalize_bucket h rows needle, fun unicode trimmed corpus kind => ?_, ?_, fun kind => ⟨?_, ?_⟩⟩
  · rw [globalSearch_shown]
    exact finalize_bucket h corpus.rows (unicode.toLowercase trimmed) kind
  · intro pos row rank hrow hrank
    refine ⟨row.kind, mem_bucket.2 ⟨hrow, rfl, hrank⟩, fun kind hkind => ?_⟩
    exact (mem_bucket.1 hkind).2.1.symm
  · exact (bucket_places rows needle kind).imp fun h => h.ne
  · intro r hr
    obtain ⟨hrow, -, hrank⟩ := mem_bucket.1 hr
    exact ⟨hrow, hrank⟩

/-- Twelve rows of one kind in two ranks, the better one last. -/
def tiedRows : List SearchRow :=
  "abcdefghijkl".toList.map fun c =>
    ⟨[c], [c], if c < 'e' then "Zz".toList else ['Z'], if c < 'e' then "zz".toList else ['z'], [c], [c], .appReg⟩

theorem partial_select_is_full_sort_tied :
    searchTop < ((Matches.of tiedRows ['z']).bucket .appReg).length ∧
      (finalize (Unstable.stable Ranked) ((Matches.of tiedRows ['z']).bucket .appReg),
        ((Matches.of tiedRows ['z']).bucket .appReg).length) = rankedByFullSort tiedRows ['z'] .appReg :=
  ⟨by decide, (partial_select_is_full_sort (Unstable.stable_honours Ranked.key) tiedRows ['z']).1 .appReg⟩

end Search
