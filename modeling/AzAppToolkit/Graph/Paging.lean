import AzAppToolkit.Graph.Partition

set_option autoImplicit false

/-! # Following `nextLink`

The two bounded page followers of `client/transport.rs`. `collect_all_pages_capped` degrades to a
truncated read at the page limit; `collect_pages_from_capped`, which attaches a scoped bearer, checks
the origin of every link itself and fails there. They are two copies of one loop.

A `LinkChain` is what such a read goes through: a first page, and what following a link answers. It
need not end, and it may come back to a page it has been at.

Modelling choices:
* `url::Url::parse` belongs to the `url` crate; `parse` is what it reads of a text;
* `PagingLog`, which only writes log lines, is left out. -/

namespace Graph

open Prog

variable {Row Origin : Type}

/-! ## The scoped loop -/

/-- What `url::Url::parse` reads of a URL. -/
structure Url (Origin : Type) where
  username : Text
  password : Option Text
  origin : Origin

/-- `net::same_origin`. -/
def sameOrigin [DecidableEq Origin] (parse : Text → Option (Url Origin)) (base candidate : Text) :
    Bool :=
  match parse base, parse candidate with
  | some b, some c =>
    -- an origin does not tell embedded credentials
    if !c.username.isEmpty || c.password.isSome then false
    else decide (b.origin = c.origin)
  | _, _ => false

section Scoped

variable [DecidableEq Origin] {Call : Type} {Answer : Call → Type}

def refusingForeignLink : GraphError :=
  .protocol "refusing to follow nextLink to a different origin".toList

def pageLimitExceeded : GraphError := .protocol "paging exceeded the page limit".toList

/-- The loop of `collect_pages_from_capped`: the rows so far and the link of the last page. -/
def collectScopedPages (parse : Text → Option (Url Origin)) (baseUrl : Text) (maxItems : Nat)
    (fetchPage : Text → Prog Answer (Except GraphError (Paged Row))) :
    (pagesLeft : Nat) → List Row → Option Text →
      Prog Answer (Except GraphError (List Row × Bool))
  | pagesLeft, out, nextLink =>
    if out.length < maxItems then
      match nextLink with
      | none => return .ok (out, false)
      | some link =>
        if sameOrigin parse baseUrl link then
          match pagesLeft with
          | 0 => return .error pageLimitExceeded
          | pagesLeft + 1 => do
              match ← fetchPage link with
              | .error e => return .error e
              | .ok page =>
                collectScopedPages parse baseUrl maxItems fetchPage pagesLeft
                  (out ++ page.items) page.nextLink
        else return .error refusingForeignLink
    else return .ok (out.take maxItems, decide (maxItems < out.length) || nextLink.isSome)

def collectPagesFromCapped (parse : Text → Option (Url Origin)) (baseUrl : Text)
    (firstPage : Paged Row) (maxItems : Nat)
    (fetchPage : Text → Prog Answer (Except GraphError (Paged Row))) :
    Prog Answer (Except GraphError (List Row × Bool)) :=
  collectScopedPages parse baseUrl maxItems fetchPage (maxPages - 1) firstPage.items
    firstPage.nextLink

end Scoped

/-! ## Chains of pages -/

/-- The page a read starts with, and what following a link answers. -/
structure LinkChain (Row : Type) where
  first : Paged Row
  follow : Text → Except GraphError (Paged Row)

variable {p : Paged Row}

namespace LinkChain

/-- The page `k` links away from the first, where the chain gets there. -/
def page (c : LinkChain Row) : Nat → Option (Paged Row)
  | 0 => some c.first
  | k + 1 => ((c.page k).bind Paged.nextLink).bind (fun link => (c.follow link).toOption)

/-- The rows of the first `n` pages, in link order. -/
def rows (c : LinkChain Row) : Nat → List Row
  | 0 => []
  | n + 1 => c.rows n ++ ((c.page n).map Paged.items).getD []

/-- The links on the first `n` pages. -/
def links (c : LinkChain Row) : Nat → List Text
  | 0 => []
  | n + 1 => c.links n ++ ((c.page n).bind Paged.nextLink).toList

/-- The chain ends with page `n`. -/
def EndsAt (c : LinkChain Row) (n : Nat) : Prop :=
  (c.page n).map Paged.nextLink = some none

/-- Answers the fetches of a read, and keeps the links it was asked for. -/
def serve (c : LinkChain Row) (fetched : List Text) :
    (call : ScanCall) → Option (ScanAnswer Row call × List Text)
  | .page (.next link _) => some (c.follow link, fetched ++ [link])
  | _ => none

variable {c : LinkChain Row}

theorem rows_succ {n : Nat} (h : c.page n = some p) : c.rows (n + 1) = c.rows n ++ p.items := by
  simp [rows, h]

theorem page_succ {n : Nat} {p q : Paged Row} {link : Text} (h : c.page n = some p)
    (hlink : p.nextLink = some link) (hq : c.follow link = .ok q) : c.page (n + 1) = some q := by
  simp [page, h, hlink, hq, Except.toOption]

theorem links_succ {n : Nat} {link : Text} (h : c.page n = some p)
    (hlink : p.nextLink = some link) : c.links (n + 1) = c.links n ++ [link] := by
  simp [links, h, hlink]

/-- A page is reached over one link for each page before it. -/
theorem length_links {n : Nat} (h : c.page n = some p) : (c.links n).length = n := by
  induction n generalizing p with
  | zero => rfl
  | succ n ih =>
    obtain ⟨link, hlink, -⟩ := Option.bind_eq_some_iff.1 h
    obtain ⟨q, hq, hnext⟩ := Option.bind_eq_some_iff.1 hlink
    rw [links_succ hq hnext, List.length_append, ih hq, List.length_singleton]

theorem endsAt_iff {n : Nat} (h : c.page n = some p) : c.EndsAt n ↔ p.nextLink = none := by
  simp [EndsAt, h]

/-- Past the end there are no pages. -/
theorem EndsAt.le {n k : Nat} (h : c.EndsAt n) (hk : c.page k = some p) : k ≤ n := by
  by_contra hlt
  have hnone : ∀ d, c.page (n + 1 + d) = none := by
    intro d
    induction d with
    | zero =>
      obtain ⟨q, hq, hnext⟩ := Option.map_eq_some_iff.1 h
      simp [page, hq, hnext]
    | succ d ih => simp [page, ih]
  obtain ⟨d, rfl⟩ := Nat.exists_eq_add_of_le (Nat.succ_le_of_lt (not_le.1 hlt))
  rw [hnone d] at hk
  exact absurd hk (by simp)

end LinkChain

/-! ## The end of a read -/

/-- How a capped read of a chain ends, by the links it has followed: with the error of one of them, or
    with the first rows of the chain, at most `cap`. What it calls complete is the whole chain; what
    it calls truncated fills the cap, or goes on after the last page that may be read. -/
def CappedEnd (c : LinkChain Row) (cap : Nat) (fetched : List Text) :
    Except GraphError (List Row × Bool) → Prop
  | .error e => ∃ link ∈ fetched, c.follow link = .error e
  | .ok (rows, truncated) =>
    rows <+: c.rows (fetched.length + 1) ∧ rows.length ≤ cap ∧
    (truncated = false → rows = c.rows (fetched.length + 1) ∧ c.EndsAt fetched.length) ∧
    (truncated = true → rows.length = cap ∨
      fetched.length + 1 = maxPages ∧ ¬ c.EndsAt fetched.length)

/-- The loop stops at the cap: rows or a link may be left. -/
theorem cappedEnd_full {c : LinkChain Row} {cap k : Nat} (hp : c.page k = some p)
    (hfull : cap ≤ (c.rows (k + 1)).length) :
    CappedEnd c cap (c.links k) (.ok ((c.rows (k + 1)).take cap,
      decide (cap < (c.rows (k + 1)).length) || p.nextLink.isSome)) := by
  have hlength : ((c.rows (k + 1)).take cap).length = cap := List.length_take_of_le hfull
  unfold CappedEnd
  rw [LinkChain.length_links hp]
  refine ⟨List.take_prefix _ _, hlength.le, fun hall => ?_, fun _ => .inl hlength⟩
  obtain ⟨hfit, hlast⟩ : (c.rows (k + 1)).length ≤ cap ∧ p.nextLink = none := by
    simpa using hall
  exact ⟨List.take_of_length_le hfit, (LinkChain.endsAt_iff hp).2 hlast⟩

/-- Page `k` is the last one read, and `pagesLeft` more may be. -/
theorem run_collectPages (c : LinkChain Row) (cap : Nat) (eventual : Bool) {k pagesLeft : Nat}
    (hp : c.page k = some p) (hk : k + 1 + pagesLeft = maxPages) :
    ∃ result fetched,
      run c.serve (collectPages cap eventual pagesLeft (c.rows (k + 1)) p.nextLink) (c.links k) =
        some (result, fetched) ∧ fetched.length < maxPages ∧ CappedEnd c cap fetched result := by
  induction pagesLeft using Nat.strong_induction_on generalizing k p with
  | _ pagesLeft ih =>
    have hlength : (c.links k).length = k := LinkChain.length_links hp
    have hbound : (c.links k).length < maxPages := by omega
    unfold collectPages
    split
    · next hroom =>
      split
      · next hlast =>
        refine ⟨_, _, rfl, hbound, ?_⟩
        unfold CappedEnd
        rw [hlength]
        exact ⟨List.prefix_refl _, hroom.le,
          fun _ => ⟨rfl, (LinkChain.endsAt_iff hp).2 hlast⟩, fun h => absurd h (by simp)⟩
      · next link hlink =>
        split
        · refine ⟨_, _, rfl, hbound, ?_⟩
          unfold CappedEnd
          rw [hlength]
          refine ⟨List.take_prefix _ _, List.length_take_le _ _, fun h => absurd h (by simp),
            fun _ => .inr ⟨hk, fun hend => ?_⟩⟩
          exact absurd (hlink.symm.trans ((LinkChain.endsAt_iff hp).1 hend)) (by simp)
        · next pagesLeft =>
          have hfetched : c.links k ++ [link] = c.links (k + 1) :=
            (LinkChain.links_succ hp hlink).symm
          cases hfollow : c.follow link with
          | error e =>
            refine ⟨.error e, c.links k ++ [link], ?_, ?_, ?_⟩
            · show run c.serve (getPage _ >>= _) _ = _
              simp [getPage, call, Bind.bind, Prog.bind, run, LinkChain.serve, hfollow,
                Pure.pure]
            · rw [List.length_append, hlength, List.length_singleton]
              omega
            · exact ⟨link, by simp, hfollow⟩
          | ok q =>
            have hq : c.page (k + 1) = some q := LinkChain.page_succ hp hlink hfollow
            obtain ⟨result, fetched, hrun, hend⟩ :=
              ih pagesLeft (Nat.lt_succ_self _) hq (by omega)
            refine ⟨result, fetched, ?_, hend⟩
            rw [← hrun, LinkChain.rows_succ hq, ← hfetched]
            show run c.serve (getPage _ >>= _) _ = _
            simp [getPage, call, Bind.bind, Prog.bind, run, LinkChain.serve, hfollow]
    · next hfull => exact ⟨_, _, rfl, hbound, cappedEnd_full hp (not_lt.1 hfull)⟩

/-! ## The two loops agree -/

section Agree

variable [DecidableEq Origin] {parse : Text → Option (Url Origin)} {baseUrl : Text}

/-- From page `k` on, with enough pages left to come to the end. -/
theorem run_collectScopedPages {c : LinkChain Row} {cap : Nat} {eventual : Bool}
    {k n pagesLeft : Nat} (hp : c.page k = some p) (hend : c.EndsAt n) (hk : n ≤ k + pagesLeft)
    (horigin : ∀ n, ∀ link ∈ c.links n, sameOrigin parse baseUrl link = true)
    (out : List Row) (fetched : List Text) :
    run c.serve (collectScopedPages parse baseUrl cap (fun link => getPage (.next link eventual))
        pagesLeft out p.nextLink) fetched =
      run c.serve (collectPages cap eventual pagesLeft out p.nextLink) fetched := by
  induction pagesLeft using Nat.strong_induction_on generalizing k p out fetched with
  | _ pagesLeft ih =>
    unfold collectScopedPages collectPages
    split
    · cases hlink : p.nextLink with
      | none => rfl
      | some link =>
        have hsame : sameOrigin parse baseUrl link = true := by
          apply horigin (k + 1)
          rw [LinkChain.links_succ hp hlink]
          simp
        simp only [hsame, if_true]
        cases pagesLeft with
        | zero =>
          -- no page may be left out before the end
          have hlast : n = k := le_antisymm (by omega) (hend.le hp)
          have hnone := (LinkChain.endsAt_iff hp).1 (hlast ▸ hend)
          exact absurd (hlink.symm.trans hnone) (by simp)
        | succ pagesLeft =>
          show run c.serve (getPage _ >>= _) _ = run c.serve (getPage _ >>= _) _
          cases hfollow : c.follow link with
          | error e =>
            simp [getPage, call, Bind.bind, Prog.bind, run, LinkChain.serve, hfollow]
          | ok q =>
            have hq : c.page (k + 1) = some q := LinkChain.page_succ hp hlink hfollow
            have hnext := ih pagesLeft (Nat.lt_succ_self _) hq (by omega)
              (out ++ q.items) (fetched ++ [link])
            simpa [getPage, call, Bind.bind, Prog.bind, run, LinkChain.serve, hfollow]
              using hnext
    · rfl

/-- Whatever the fetches answer, the scoped loop asks for no link of another origin. -/
theorem only_collectScopedPages {cap pagesLeft : Nat} {eventual : Bool} (out : List Row)
    (nextLink : Option Text) :
    Only (fun call => ∃ link, call = ScanCall.page (.next link eventual) ∧
        sameOrigin parse baseUrl link = true)
      (collectScopedPages parse baseUrl cap
        (fun link => (getPage (.next link eventual) : Prog (ScanAnswer Row) _)) pagesLeft out
        nextLink) := by
  induction pagesLeft using Nat.strong_induction_on generalizing out nextLink with
  | _ pagesLeft ih =>
    unfold collectScopedPages
    split
    · split
      · exact Only.pure
      · next link =>
        split
        · next hsame =>
          split
          · exact Only.pure
          · next pagesLeft =>
            refine Only.bind (Only.call ⟨link, rfl, hsame⟩) (fun answer => ?_)
            cases answer with
            | error e => exact Only.pure
            | ok page => exact ih pagesLeft (Nat.lt_succ_self _) _ _
        · exact Only.pure
    · exact Only.pure

end Agree

/-- The bounded read of any chain ends within the page limit and tells truthfully whether it has the
    whole of it. The scoped read is the same read of every chain that ends within the limit and stays
    on one origin, and follows no link to another. -/
theorem capped_read_exact [DecidableEq Origin] (c : LinkChain Row) (maxItems : Nat)
    (eventual : Bool) (parse : Text → Option (Url Origin)) (baseUrl : Text) :
    (∃ result fetched,
      run c.serve (collectAllPagesCapped c.first maxItems eventual) [] = some (result, fetched) ∧
        fetched.length < maxPages ∧ CappedEnd c maxItems fetched result) ∧
    ((∃ n < maxPages, c.EndsAt n) →
      (∀ n, ∀ link ∈ c.links n, sameOrigin parse baseUrl link = true) →
      run c.serve (collectPagesFromCapped parse baseUrl c.first maxItems
          (fun link => getPage (.next link eventual))) [] =
        run c.serve (collectAllPagesCapped c.first maxItems eventual) []) ∧
    Only (fun call => ∃ link, call = ScanCall.page (.next link eventual) ∧
        sameOrigin parse baseUrl link = true)
      (collectPagesFromCapped parse baseUrl c.first maxItems
        (fun link => (getPage (.next link eventual) : Prog (ScanAnswer Row) _))) := by
  have hfirst : c.page 0 = some c.first := rfl
  refine ⟨?_, ?_, only_collectScopedPages _ _⟩
  · have hpages : 0 + 1 + (maxPages - 1) = maxPages := rfl
    exact run_collectPages c maxItems eventual hfirst hpages
  · rintro ⟨n, hn, hend⟩ horigin
    have hmax : maxPages = 200 := rfl
    exact run_collectScopedPages hfirst hend (by omega) horigin _ _

end Graph
