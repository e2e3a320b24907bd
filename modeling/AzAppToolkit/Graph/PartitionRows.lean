import AzAppToolkit.Graph.Partition

set_option autoImplicit false

/-! # The rows a scan returns

A `Directory` is a collection of rows with distinct ids, cut into the pages of the serial read. In its
world the serial read is answered truthfully, page by page; a slice is answered with any rows of the
collection; the memo and the order of failures are free. Whatever path a scan takes, what it returns
are rows of the collection, each once and at most `cap`; and a sliced read that reports no truncation
has them all, unless `/$count` was too small. -/

namespace Graph

open DirectoryRow Prog

variable {Row : Type} [DirectoryRow Row]

/-- A collection and its pages; `link k` leads to page `k`. -/
structure Directory (Row : Type) [DirectoryRow Row] where
  rows : List Row
  pages : List (List Row)
  link : Nat → Text
  distinct : (rows.map objectId).Nodup
  pages_ne : pages ≠ []
  flatten_pages : pages.flatten = rows
  link_injective : Function.Injective link

namespace Directory

def page (d : Directory Row) (k : Nat) : Paged Row :=
  ⟨d.pages.getD k [], if k + 1 < d.pages.length then some (d.link (k + 1)) else none⟩

/-- The world of the directory, whose `/$count` is `count`. Any call may fail. -/
def answers (d : Directory Row) (count : Nat) : World (ScanAnswer Row) Unit
  | _, .page .first, .ok page, _ => page = d.page 0
  | _, .page (.slice _ _), .ok page, _ => page.items ⊆ d.rows
  | _, .page (.next link _), .ok page, _ =>
    page.items ⊆ d.rows ∧ ∀ k < d.pages.length, link = d.link k → page = d.page k
  | _, .count, .ok n, _ => n = count
  | _, _, _, _ => True

theorem take_flatten_isPrefix (d : Directory Row) (k : Nat) : (d.pages.take k).flatten <+: d.rows := by
  rw [← d.flatten_pages]
  exact ⟨(d.pages.drop k).flatten, by rw [← List.flatten_append, List.take_append_drop]⟩

theorem take_succ_flatten (d : Directory Row) (k : Nat) :
    (d.pages.take (k + 1)).flatten = (d.pages.take k).flatten ++ (d.page k).items := by
  unfold page
  rw [List.take_add_one, List.flatten_append, List.getD_eq_getElem?_getD]
  cases d.pages[k]? with
  | none | some items => simp

theorem page_items_subset (d : Directory Row) (k : Nat) : (d.page k).items ⊆ d.rows := by
  intro row hrow
  refine (d.take_flatten_isPrefix (k + 1)).subset ?_
  rw [take_succ_flatten]
  exact List.mem_append_right _ hrow

end Directory

/-- Every call is fine: only what comes back is of interest. -/
def anyCall (_ : Unit) (_ : ScanCall) : Prop := True

/-! ## The serial read -/

/-- The serial read returns the first rows of the collection, up to the cap; all of them where they
    fit and the page limit did not cut it. -/
def SerialEnd (d : Directory Row) (cap : Nat) : Except GraphError (List Row × Bool) → Prop
  | .error _ => True
  | .ok (out, cut) => out <+: d.rows ∧ out.length ≤ cap ∧
      (d.rows.length ≤ cap → cut = false ∨ d.pages.length ≤ maxPages → out = d.rows)

variable {d : Directory Row}

/-- A read that ends with its first pages, where `stopped` says why they may not be all. -/
theorem serialEnd_take {cap k : Nat} {cut : Bool}
    (hall : d.rows.length ≤ cap → cut = false ∨ d.pages.length ≤ maxPages →
      (d.pages.take k).flatten = d.rows) :
    SerialEnd d cap (.ok ((d.pages.take k).flatten.take cap, cut)) := by
  refine ⟨(List.take_prefix _ _).trans (d.take_flatten_isPrefix k), List.length_take_le _ _, ?_⟩
  intro hfit hcut
  rw [hall hfit hcut, List.take_of_length_le hfit]

/-- Page `k` is the last one read. -/
theorem meets_collectPages {count cap k pagesLeft : Nat} {eventual : Bool}
    (hk : k + 1 + pagesLeft = maxPages) :
    Meets (d.answers count) anyCall (fun _ result => SerialEnd d cap result) ()
      (collectPages cap eventual pagesLeft (d.pages.take (k + 1)).flatten (d.page k).nextLink) := by
  induction pagesLeft using Nat.strong_induction_on generalizing k with
  | _ pagesLeft ih =>
    unfold collectPages
    split
    · next hroom =>
      split
      · next hlast =>
        have hpages : d.pages.length ≤ k + 1 := by
          by_contra hmore
          exact absurd hlast (by simp [Directory.page, not_le.1 hmore])
        have hrows : (d.pages.take (k + 1)).flatten = d.rows := by
          rw [List.take_of_length_le hpages, d.flatten_pages]
        have hend : SerialEnd d cap (.ok ((d.pages.take (k + 1)).flatten.take cap, false)) :=
          serialEnd_take (fun _ _ => hrows)
        rw [List.take_of_length_le hroom.le] at hend
        exact hend
      · next link hlink =>
        obtain ⟨hmore, rfl⟩ : k + 1 < d.pages.length ∧ d.link (k + 1) = link := by
          simpa [Directory.page] using hlink
        split
        · refine serialEnd_take (fun _ hcut => ?_)
          rcases hcut with hcut | hcut
          · exact absurd hcut (by simp)
          · omega
        · next pagesLeft =>
          refine Meets.bind (Meets.call trivial (fun answer _ hanswer => ?_))
          cases answer with
          | error e => trivial
          | ok page =>
            obtain rfl : page = d.page (k + 1) := hanswer.2 (k + 1) hmore rfl
            have hnext := ih pagesLeft (Nat.lt_succ_self _) (k := k + 1) (by omega)
            rw [Directory.take_succ_flatten d (k + 1)] at hnext
            exact hnext
    · next hfull =>
      refine serialEnd_take (fun hfit _ => ?_)
      exact (d.take_flatten_isPrefix (k + 1)).eq_of_length_le (by omega)

variable {count cap : Nat}

theorem meets_serial :
    Meets (d.answers count) anyCall (fun _ result => SerialEnd d cap result) ()
      (collectAllPagesCapped (d.page 0) cap false) := by
  have hmeets : Meets (d.answers count) anyCall (fun _ result => SerialEnd d cap result) ()
      (collectPages cap false (maxPages - 1) (d.pages.take 1).flatten (d.page 0).nextLink) :=
    meets_collectPages rfl
  rw [Directory.take_succ_flatten] at hmeets
  exact hmeets

/-! ## Slices and their merge -/

/-- Rows of the collection come in, rows of the collection go out. -/
theorem meets_collectPages_subset {count cap pagesLeft : Nat} {eventual : Bool}
    {out : List Row} {nextLink : Option Text} (h : out ⊆ d.rows) :
    Meets (d.answers count) anyCall
      (fun _ result => ∀ rows cut, result = .ok (rows, cut) → rows ⊆ d.rows) ()
      (collectPages cap eventual pagesLeft out nextLink) := by
  have htake : ∀ cut rows cut', (.ok (out.take cap, cut) : Except GraphError (List Row × Bool)) =
      .ok (rows, cut') → rows ⊆ d.rows := by
    intro cut rows cut' heq
    obtain ⟨rfl, -⟩ := Prod.mk.inj (Except.ok.inj heq)
    exact fun row hrow => h (List.mem_of_mem_take hrow)
  induction pagesLeft using Nat.strong_induction_on generalizing out nextLink with
  | _ pagesLeft ih =>
    unfold collectPages
    split
    · next hroom =>
      split
      · rw [← List.take_of_length_le hroom.le]
        exact htake false
      · split
        · exact htake true
        · next link pagesLeft =>
          refine Meets.bind (Meets.call trivial (fun answer _ hanswer => ?_))
          cases answer with
          | error e => exact fun rows cut habsurd => absurd habsurd (by simp)
          | ok page =>
            have hmore : out ++ page.items ⊆ d.rows := by
              refine List.append_subset.2 ⟨h, ?_⟩
              exact hanswer.1
            refine ih pagesLeft (Nat.lt_succ_self _) hmore ?_
            intro cut rows cut' heq
            obtain ⟨rfl, -⟩ := Prod.mk.inj (Except.ok.inj heq)
            exact fun row hrow => hmore (List.mem_of_mem_take hrow)
    · exact htake _

theorem meets_readSlice {advanced : Bool} {start : Char} :
    Meets (d.answers count) anyCall
      (fun _ result => ∀ slice, result = .ok slice → slice.rows ⊆ d.rows) ()
      (readSlice cap advanced start) := by
  refine Meets.bind (Meets.call trivial (fun answer _ hanswer => ?_))
  cases answer with
  | error e =>
    cases e <;> exact fun slice habsurd => absurd habsurd (by simp)
  | ok page =>
    dsimp only
    split
    · exact fun slice habsurd => absurd habsurd (by simp)
    · refine Meets.bind ((meets_collectPages_subset hanswer).mono (fun _ result hrows => ?_))
      cases result with
      | error e => exact fun slice habsurd => absurd habsurd (by simp)
      | ok read =>
        intro slice heq
        obtain rfl := Except.ok.inj heq
        exact hrows read.1 read.2 rfl

theorem mem_partitionResults {ε α : Type} {results : List (Except ε α)} {a : α}
    (h : a ∈ (partitionResults results).1) : .ok a ∈ results := by
  induction results with
  | nil => exact absurd h (by simp [partitionResults])
  | cons result results ih =>
    cases result with
    | error e => exact List.mem_cons_of_mem _ (ih h)
    | ok b =>
      rcases List.mem_cons.1 h with rfl | h
      · exact List.mem_cons_self
      · exact List.mem_cons_of_mem _ (ih h)

theorem meets_readSlices {mode : SliceMode} :
    Meets (d.answers count) anyCall
      (fun _ result => ∀ slices, result = .ok slices → ∀ slice ∈ slices, slice.rows ⊆ d.rows) ()
      (readSlices cap mode) := by
  refine Meets.bind ((Meets.joinAll
    (fun results _ => ∀ slice, .ok slice ∈ results → slice.rows ⊆ d.rows) ?_ ?_).mono
    (fun _ results hresults => ?_))
  · exact fun slice habsurd => absurd habsurd (by simp)
  · intro done s p hp hdone
    rw [List.getElem?_map] at hp
    obtain ⟨start, -, rfl⟩ := Option.map_eq_some_iff.1 hp
    refine meets_readSlice.mono (fun _ result hresult slice hmem => ?_)
    rcases List.mem_append.1 hmem with hmem | hmem
    · exact hdone slice hmem
    · exact hresult slice (List.mem_singleton.1 hmem).symm
  · split
    · next slices hparts =>
      intro slices' heq slice hmem
      obtain rfl := Except.ok.inj heq
      refine hresults.2 slice (mem_partitionResults ?_)
      rw [hparts]
      exact hmem
    · refine Meets.bind (Meets.call trivial (fun i _ _ => ?_))
      exact fun slices habsurd => absurd habsurd (by simp)

/-- A union in the making: rows of the collection, no id twice. -/
def UnionOk (d : Directory Row) (rows : List Row) : Prop :=
  rows ⊆ d.rows ∧ (rows.map objectId).Nodup

theorem mergeRows_unionOk {start : Char} {rows more out : List Row}
    (hmore : more ⊆ d.rows) (hrows : UnionOk d rows) (h : mergeRows start rows more = .ok out) :
    UnionOk d out := by
  induction more generalizing rows with
  | nil =>
    obtain rfl : rows = out := by simpa [mergeRows] using h
    exact hrows
  | cons row more ih =>
    have hrest : more ⊆ d.rows := fun r hr => hmore (List.mem_cons_of_mem _ hr)
    unfold mergeRows at h
    split at h
    · exact absurd h (by simp)
    · split at h
      · exact ih hrest hrows h
      · next hnew =>
        refine ih hrest ⟨List.append_subset.2 ⟨hrows.1, ?_⟩, ?_⟩ h
        · exact fun r hr => (List.mem_singleton.1 hr) ▸ hmore List.mem_cons_self
        · rw [List.map_append, List.map_singleton]
          refine List.nodup_append.2 ⟨hrows.2, List.nodup_singleton _, ?_⟩
          rintro id hid id' hid' rfl
          rw [List.mem_singleton.1 hid'] at hid
          exact hnew (List.contains_iff_mem.2 hid)

theorem unionSlices_unionOk {cap : Nat} {slices : List (Slice Row)}
    {rows out : List Row} {any any' : Bool} (hslices : ∀ slice ∈ slices, slice.rows ⊆ d.rows)
    (hrows : UnionOk d rows) (h : unionSlices cap rows any slices = .ok (out, any')) :
    UnionOk d out := by
  induction slices generalizing rows any with
  | nil =>
    obtain ⟨rfl, -⟩ : rows = out ∧ any = any' := by simpa [unionSlices] using h
    exact hrows
  | cons slice slices ih =>
    unfold unionSlices at h
    split at h
    · exact absurd h (by simp)
    · split at h
      · exact absurd h (by simp)
      · next rows' hmerge =>
        refine ih (fun s hs => hslices s (List.mem_cons_of_mem _ hs)) ?_ h
        exact mergeRows_unionOk (hslices slice List.mem_cons_self) hrows hmerge

/-- What the merge returns: rows of the collection, each once, at most `cap`, and no fewer than the
    count where it reports no truncation. -/
theorem mergeSlices_spec {probe : List Row} {slices : List (Slice Row)}
    {out : List Row} {truncated : Bool} (hslices : ∀ slice ∈ slices, slice.rows ⊆ d.rows)
    (h : mergeSlices probe slices count cap = .ok (out, truncated)) :
    UnionOk d out ∧ out.length ≤ cap ∧ (truncated = false → count ≤ out.length) := by
  unfold mergeSlices at h
  split at h
  · exact absurd h (by simp)
  · next rows any hunion =>
    have hrows : UnionOk d rows :=
      unionSlices_unionOk hslices ⟨List.nil_subset _, List.nodup_nil⟩ hunion
    dsimp only at h
    split at h
    · exact absurd h (by simp)
    · split at h
      · exact absurd h (by simp)
      · split at h
        · exact absurd h (by simp)
        · next hcount =>
          obtain ⟨rfl, rfl⟩ := Prod.mk.inj (Except.ok.inj h)
          refine ⟨⟨fun r hr => hrows.1 (List.mem_of_mem_take hr), ?_⟩,
            List.length_take_le _ _, fun htruncated => ?_⟩
          · rw [List.map_take]
            exact hrows.2.sublist (List.take_sublist _ _)
          · obtain ⟨hany, hcap⟩ := Bool.or_eq_false_iff.1 htruncated
            rw [List.take_of_length_le (by simpa using hcap)]
            simpa [hany] using hcount

/-! ## The scan -/

/-- What a scan returns, whatever its path. -/
structure ScanOk (d : Directory Row) (count cap : Nat) (scanned : Scanned Row) : Prop where
  union : UnionOk d scanned.rows
  length : scanned.rows.length ≤ cap
  complete : scanned.strategy.isSliced = true → scanned.truncated = false →
    d.rows.length ≤ count → scanned.rows.Perm d.rows

def ScanEnd (d : Directory Row) (count cap : Nat) : Except GraphError (Scanned Row) → Prop
  | .error _ => True
  | .ok scanned => ScanOk d count cap scanned

theorem UnionOk.perm {rows : List Row} (h : UnionOk d rows)
    (hlen : d.rows.length ≤ rows.length) : rows.Perm d.rows :=
  (List.subperm_of_subset (List.Nodup.of_map _ h.2) h.1).perm_of_length_le hlen

theorem unionOk_of_initial {rows : List Row} (h : rows <+: d.rows) : UnionOk d rows :=
  ⟨h.subset, d.distinct.sublist (h.sublist.map _)⟩

theorem meets_serialRest {strategy : Strategy} (hstrategy : strategy.isSliced = false) :
    Meets (d.answers count) anyCall (fun _ result => ScanEnd d count cap result) ()
      (serialRest (d.page 0) cap strategy) := by
  refine Meets.bind (meets_serial.mono (fun _ result hend => ?_))
  cases result with
  | error e => trivial
  | ok read =>
    refine ⟨unionOk_of_initial hend.1, hend.2.1, fun hsliced => ?_⟩
    exact absurd (hstrategy.symm.trans hsliced) (by simp)

theorem meets_refuseRest {refused : Refused} :
    Meets (d.answers count) anyCall (fun _ result => ScanEnd d count cap result) ()
      (refuseRest (d.page 0) cap refused) := by
  refine Meets.bind ((meets_serialRest rfl).mono (fun _ result hend => ?_))
  cases result with
  | error e => trivial
  | ok scanned => exact Meets.bind (Meets.call trivial (fun _ _ _ => hend))

theorem meets_refuse {refused : Refused} :
    Meets (d.answers count) anyCall (fun _ result => ScanEnd d count cap result) ()
      (refuse (d.page 0) cap refused) := by
  refine Meets.bind (Meets.call trivial (fun _ _ _ => ?_))
  split
  · exact Meets.bind (Meets.call trivial (fun _ _ _ => meets_refuseRest))
  · exact meets_refuseRest

theorem meets_tryModes {known : Option SliceMode} {modes : List SliceMode} :
    Meets (d.answers count) anyCall (fun _ result => ScanEnd d count cap result) ()
      (tryModes (d.page 0) known count cap modes) := by
  induction modes with
  | nil =>
    unfold tryModes
    split
    · exact meets_refuse
    · exact Meets.bind (Meets.call trivial (fun _ _ _ => meets_serialRest rfl))
  | cons mode modes ih =>
    refine Meets.bind (meets_readSlices.mono (fun _ result hslices => ?_))
    rcases result with ⟨_ | _ | err⟩ | slices
    · exact ih
    · exact meets_refuse
    · dsimp only
      split
      · exact meets_refuse
      · trivial
    · dsimp only
      split
      · exact meets_refuse
      · next rows truncated hmerge =>
        obtain ⟨hunion, hlength, hcount⟩ := mergeSlices_spec (hslices slices rfl) hmerge
        refine Meets.bind (Meets.call trivial (fun _ _ _ => ⟨hunion, hlength, ?_⟩))
        intro _ htruncated hsize
        exact hunion.perm (hsize.trans (hcount htruncated))

theorem meets_finishScan {size cap : Nat} {known : Option SliceMode}
    {count : Option (Except GraphError Nat)} (hcount : ∀ n, count = some (.ok n) → n = size) :
    Meets (d.answers size) anyCall (fun _ result => ScanEnd d size cap result) ()
      (finishScan (d.page 0) count known cap) := by
  unfold finishScan
  split
  · exact meets_serialRest rfl
  · split
    · exact meets_serialRest rfl
    · exact meets_serialRest rfl
    · next n =>
      obtain rfl := hcount n rfl
      dsimp only
      split
      · exact meets_serialRest rfl
      · split
        · exact meets_serialRest rfl
        · split
          · exact meets_refuse
          · exact meets_tryModes

theorem meets_scanRest {size cap : Nat} {known : Option SliceMode}
    {probe : Except GraphError (Paged Row)} {count : Option (Except GraphError Nat)}
    (hprobe : ∀ page, probe = .ok page → page = d.page 0) (hcount : ∀ n, count = some (.ok n) → n = size) :
    Meets (d.answers size) anyCall (fun _ result => ScanEnd d size cap result) ()
      (scanRest cap known probe count) := by
  cases probe with
  | error e => trivial
  | ok page =>
    obtain rfl := hprobe page rfl
    refine Meets.bind ((meets_finishScan hcount).mono (fun _ result hend => ?_))
    cases result with
    | error e => trivial
    | ok scanned =>
      dsimp only
      split
      · exact Meets.bind (Meets.call trivial (fun _ _ _ => hend))
      · exact hend

theorem meets_scanDirectoryCapped {size cap : Nat} :
    Meets (d.answers size) anyCall (fun _ result => ScanEnd d size cap result) ()
      (scanDirectoryCapped cap) := by
  have hfirst : ∀ (probe : Except GraphError (Paged Row)) s s',
      d.answers size s (.page .first) probe s' → ∀ page, probe = .ok page → page = d.page 0 := by
    rintro probe s s' hprobe page rfl
    exact hprobe
  refine Meets.bind (Meets.call trivial (fun memo _ _ => ?_))
  split
  · refine Meets.bind (Meets.call trivial (fun probe _ hprobe => ?_))
    exact meets_scanRest (hfirst probe _ _ hprobe) (fun n habsurd => absurd habsurd (by simp))
  · refine Meets.bind (Meets.call trivial (fun probe _ hprobe => ?_))
    refine Meets.bind (Meets.call trivial (fun count _ hcount => ?_))
    refine meets_scanRest (hfirst probe _ _ hprobe) (fun n heq => ?_)
    obtain rfl := Option.some.inj heq
    exact hcount

/-- Whatever the slices answer, a scan returns rows of the collection, none twice and at most `cap`.
    One that returns its slices' merge as complete has all rows, if `/$count` was not below their
    number: those the serial read returns where the page limit does not cut it. -/
theorem sliced_scan_complete (d : Directory Row) (count cap : Nat) (scanned : Scanned Row)
    (h : Exec (d.answers count) () (scanDirectoryCapped cap) () (.ok scanned)) :
    (scanned.rows ⊆ d.rows ∧ (scanned.rows.map objectId).Nodup ∧ scanned.rows.length ≤ cap) ∧
    (scanned.strategy.isSliced = true → scanned.truncated = false → d.rows.length ≤ count →
      scanned.rows.Perm d.rows ∧
      ∀ out cut, Exec (d.answers count) () (collectAllPagesCapped (d.page 0) cap false) ()
        (.ok (out, cut)) → cut = false ∨ d.pages.length ≤ maxPages → out.Perm scanned.rows) := by
  have hok : ScanOk d count cap scanned := meets_scanDirectoryCapped.sound h
  refine ⟨⟨hok.union.1, hok.union.2, hok.length⟩, fun hsliced htruncated hsize => ?_⟩
  have hperm := hok.complete hsliced htruncated hsize
  refine ⟨hperm, fun out cut hserial hcut => ?_⟩
  have hend : SerialEnd d cap (.ok (out, cut)) := meets_serial.sound hserial
  have hfit : d.rows.length ≤ cap := hperm.length_eq ▸ hok.length
  rw [hend.2.2 hfit hcut]
  exact hperm.symm

/-! ## A collection with a long chain of empty pages -/

structure Entry where
  id : Text
  appId : Text
deriving DecidableEq

instance : DirectoryRow Entry where
  objectId := Entry.id
  appId := Entry.appId

def entry (n : Char) : Entry := ⟨[n], ['0', n]⟩

/-- One row on page one and three on page 201; the pages between are empty. -/
def sparse : Directory Entry where
  rows := [entry '1', entry '2', entry '3', entry '4']
  pages := [entry '1'] :: (List.replicate 199 [] ++ [[entry '2', entry '3', entry '4']])
  link := fun k => List.replicate k 'x'
  distinct := by decide
  pages_ne := List.cons_ne_nil _ _
  flatten_pages := by decide
  link_injective := fun a b h => by simpa using congrArg List.length h

/-- Answers truthfully: the rows are all in slice `0`. -/
def serveSparse (_ : Unit) : (c : ScanCall) → Option (ScanAnswer Entry c × Unit)
  | .readMemo => some (SliceMemo.default, ())
  | .updateMemo _ => some ((), ())
  | .page .first => some (.ok (sparse.page 0), ())
  | .page (.slice start _) => some (.ok ⟨if start = '0' then sparse.rows else [], none⟩, ())
  | .page (.next link _) => some (.ok (sparse.page link.length), ())
  | .count => some (.ok 4, ())
  | .firstFailure _ => some (0, ())
  | .warnRefused _ => some ((), ())

theorem serveSparse_answers (s : Unit) (c : ScanCall) (r : ScanAnswer Entry c) (s' : Unit)
    (h : serveSparse s c = some (r, s')) : sparse.answers 4 s c r s' := by
  match c with
  | .readMemo => trivial
  | .updateMemo _ => trivial
  | .firstFailure _ => trivial
  | .warnRefused _ => trivial
  | .page .first =>
    obtain ⟨rfl, -⟩ := Prod.mk.inj (Option.some.inj h)
    rfl
  | .page (.slice start _) =>
    obtain ⟨rfl, -⟩ := Prod.mk.inj (Option.some.inj h)
    show (if start = '0' then sparse.rows else []) ⊆ sparse.rows
    split
    · exact List.Subset.refl _
    · exact List.nil_subset _
  | .page (.next link _) =>
    obtain ⟨rfl, -⟩ := Prod.mk.inj (Option.some.inj h)
    refine ⟨sparse.page_items_subset _, fun k _ hlink => ?_⟩
    rw [hlink]
    exact congrArg sparse.page List.length_replicate
  | .count =>
    obtain ⟨rfl, -⟩ := Prod.mk.inj (Option.some.inj h)
    rfl

/-- What is looked at in a scan. -/
def scannedView (ended : Except GraphError (Scanned Entry) × Unit) : Option (Bool × Bool) :=
  match ended.1 with
  | .ok scanned => some (scanned.strategy.isSliced, scanned.truncated)
  | .error _ => none

theorem exec_sparse : ∃ scanned : Scanned Entry,
    Exec (sparse.answers 4) () (scanDirectoryCapped 10) () (.ok scanned) ∧
      scanned.strategy.isSliced = true ∧ scanned.truncated = false := by
  have hrun : (run serveSparse (scanDirectoryCapped 10) ()).map scannedView =
      some (some (true, false)) := by decide +kernel
  obtain ⟨result, s', hexec, hview⟩ := exists_exec_of_run serveSparse_answers hrun
  cases result with
  | error e => exact absurd hview (by simp [scannedView])
  | ok scanned =>
    obtain ⟨hsliced, htruncated⟩ : scanned.strategy.isSliced = true ∧ scanned.truncated = false := by
      simpa [scannedView] using hview
    exact ⟨scanned, hexec, hsliced, htruncated⟩

theorem sparse_scan_complete : ∃ scanned : Scanned Entry,
    Exec (sparse.answers 4) () (scanDirectoryCapped 10) () (.ok scanned) ∧
      scanned.rows.Perm sparse.rows := by
  obtain ⟨scanned, hexec, hsliced, htruncated⟩ := exec_sparse
  exact ⟨scanned, hexec,
    ((sliced_scan_complete sparse 4 10 scanned hexec).2 hsliced htruncated (le_refl 4)).1⟩

theorem serial_read_is_cut_at_page_limit :
    ¬ ∀ (d : Directory Entry) (count cap : Nat) (scanned : Scanned Entry),
      Exec (d.answers count) () (scanDirectoryCapped cap) () (.ok scanned) →
      scanned.strategy.isSliced = true → scanned.truncated = false → d.rows.length ≤ count →
      ∀ out cut, Exec (d.answers count) () (collectAllPagesCapped (d.page 0) cap false) ()
        (.ok (out, cut)) → ∀ row, row ∈ scanned.rows ↔ row ∈ out := by
  intro hclaim
  obtain ⟨scanned, hexec, hsliced, htruncated⟩ := exec_sparse
  have hrows := (meets_scanDirectoryCapped.sound hexec).complete hsliced htruncated (le_refl 4)
  have hrun : (run serveSparse (collectAllPagesCapped (sparse.page 0) 10 false) ()).map
      (fun ended => ended.1.toOption.map (fun read => read.1.contains (entry '2'))) =
      some (some false) := by decide +kernel
  obtain ⟨result, s', hserial, hview⟩ := exists_exec_of_run serveSparse_answers hrun
  cases result with
  | error e => exact absurd hview (by simp [Except.toOption])
  | ok read =>
    have hmem : entry '2' ∈ read.1 :=
      (hclaim sparse 4 10 scanned hexec hsliced htruncated (le_refl 4) read.1 read.2 hserial _).1
        (hrows.mem_iff.2 (by decide))
    have hnot : read.1.contains (entry '2') = false := by simpa [Except.toOption] using hview
    exact absurd ((List.contains_iff_mem.2 hmem).symm.trans hnot) (by simp)

end Graph
