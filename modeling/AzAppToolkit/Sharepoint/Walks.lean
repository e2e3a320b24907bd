import AzAppToolkit.Sharepoint.ResolveProofs

set_option autoImplicit false

/-! # How far the walk goes

The next address is made from the `webUrl` the server answered with, so it is the server that has to come
nearer to the target. Where every site is deeper than the one before, the walk looks up no more sites than
the target has segments, and one; a server that answers with one site again and again keeps it going. -/

namespace Resolver

open Prog
open Graph (GraphError)
open Sweeps (Site)

/-! ## Lookups -/

def isLookup : Exchanged SiteAnswer → Bool
  | ⟨.getSite _, _⟩ => true
  | _ => false

/-- The sites that were asked for. -/
def lookups (h : SiteHistory) : Nat := (h.filter isLookup).length

def NoLookup : SiteCall → Prop
  | .getSite _ => False
  | _ => True

/-- A site the target is in is deeper than the one before it. -/
def Consumes (parse : Parser) (targetUrl : Text) (h : SiteHistory) : (c : SiteCall) → SiteAnswer c → Prop
  | .getSite _, .ok next =>
    ∀ site web, lastRead SiteRead h = some site → next.webUrl = some web →
      Inside parse web targetUrl → pathLength parse site.webUrl < pathLength parse next.webUrl
  | _, _ => True

/-- A server whose every answer consumes a segment of the target. -/
def consuming (parse : Parser) (targetUrl : Text) : World SiteAnswer SiteHistory :=
  fun h c r h' => Consumes parse targetUrl h c r ∧ h' = h ++ [⟨c, r⟩]

section Counts

variable {h : SiteHistory} {c : SiteCall} {r : SiteAnswer c}

theorem lookups_snoc_of_noLookup (hc : NoLookup c) (r : SiteAnswer c) : lookups (h ++ [⟨c, r⟩]) = lookups h := by
  cases c with
  | getSite path => exact hc.elim
  | _ => simp [lookups, isLookup]

theorem lookups_snoc_getSite (path : Text) (r : Except GraphError Site) :
    lookups (h ++ [⟨.getSite path, r⟩]) = lookups h + 1 := by
  rw [lookups, List.filter_append, List.length_append]
  rfl

theorem lastRead_snoc_of_noLookup (hc : NoLookup c) (r : SiteAnswer c) :
    lastRead SiteRead (h ++ [⟨c, r⟩]) = lastRead SiteRead h := by
  cases c with
  | getSite path => exact hc.elim
  | _ => exact lastRead_snoc_none rfl

end Counts

/-! ## The reads in between -/

theorem only_ofExcept {α : Type} (r : Except GraphError α) : Only NoLookup (ofExcept r).run := trivial

theorem only_readUnder {α : Type} {what id : Text} {read : SiteSteps α} (hread : Only NoLookup read.run) :
    Only NoLookup (readUnder what id read).run :=
  Only.tryBind (only_ofExcept _) fun _ => Only.tryBind ⟨trivial, fun _ => trivial⟩ fun _ => hread

theorem only_resolveSiteList (parse : Parser) (base : ResolvedSharePointResource) (targetUrl : Text) :
    Only NoLookup (resolveSiteList parse base targetUrl).run := by
  refine Only.tryBind (only_readUnder ⟨trivial, fun _ => trivial⟩) fun lists => ?_
  dsimp only
  split <;> trivial

theorem only_resolveInDrive (base : ResolvedSharePointResource) (drive : Drive) (inner targetUrl : Text) :
    Only NoLookup (resolveInDrive base drive inner targetUrl).run := by
  unfold resolveInDrive
  split
  · exact Only.tryBind (only_readUnder ⟨trivial, fun _ => trivial⟩) fun _ => trivial
  · refine Only.tryBind (only_readUnder ⟨trivial, fun _ => trivial⟩) fun item => ?_
    split <;> trivial

/-- Within a site no other is looked up. -/
theorem only_resolveWithin (parse : Parser) (site : Site) (targetUrl : Text) :
    Only NoLookup (resolveWithin parse site targetUrl).run := by
  unfold resolveWithin
  split
  · trivial
  · dsimp only
    split
    · trivial
    · split
      · trivial
      · refine Only.tryBind (only_readUnder ⟨trivial, fun _ => trivial⟩) fun drives => ?_
        split
        · exact only_resolveSiteList _ _ _
        · exact Only.tryBind (only_resolveInDrive _ _ _ _) fun _ => trivial

/-! ## The walk -/

section Walk

variable {parse : Parser} {targetUrl : Text}

/-- The walk only goes on below a site that the target is in, and not at its end. -/
theorem shallower_of_descends {site : Site} {nextUrl : Text}
    (h : descendOneSegment parse site targetUrl = some nextUrl) :
    ∃ web, site.webUrl = some web ∧ Inside parse web targetUrl ∧
      pathLength parse site.webUrl < (segmentsOf parse targetUrl).length := by
  obtain ⟨web, hweb, h⟩ := Option.bind_eq_some_iff.1 h
  obtain ⟨rel, hrel, h⟩ := Option.bind_eq_some_iff.1 h
  obtain ⟨segment, hsegment, -⟩ := Option.map_eq_some_iff.1 h
  obtain ⟨hinside, hrest⟩ := siteRelativePath_eq_some.1 hrel
  refine ⟨web, hweb, hinside, Nat.lt_of_not_le fun hdeep => ?_⟩
  have hdeep' : (segmentsOf parse targetUrl).length ≤ (segmentsOf parse web).length := by
    rw [hweb] at hdeep
    exact hdeep
  rw [hrest, List.drop_eq_nil_of_le hdeep'] at hsegment
  cases hsegment

/-- At a site, with so many rounds to come. -/
structure Walking (parse : Parser) (targetUrl : Text) (n : Nat) (h : SiteHistory) (site : Site) : Prop where
  here : lastRead SiteRead h = some site
  count : lookups h + n = (segmentsOf parse targetUrl).length + 1
  deep : ∀ web, site.webUrl = some web → Inside parse web targetUrl →
    (segmentsOf parse targetUrl).length ≤ n + pathLength parse site.webUrl

/-- A lookup is made while there are segments left for it. -/
def Bounded (parse : Parser) (targetUrl : Text) (h : SiteHistory) (c : SiteCall) : Prop :=
  NoLookup c ∨ lookups h ≤ (segmentsOf parse targetUrl).length

def Spent (parse : Parser) (targetUrl : Text) (h : SiteHistory)
    (_ : Except GraphError ResolvedSharePointResource) : Prop :=
  lookups h ≤ (segmentsOf parse targetUrl).length + 1

variable {n : Nat} {h : SiteHistory} {site : Site}

theorem Walking.snoc {c : SiteCall} (hwalk : Walking parse targetUrl n h site) (hc : NoLookup c)
    (r : SiteAnswer c) : Walking parse targetUrl n (h ++ [⟨c, r⟩]) site :=
  ⟨(lastRead_snoc_of_noLookup hc r).trans hwalk.here, by rw [lookups_snoc_of_noLookup hc]; exact hwalk.count,
    hwalk.deep⟩

theorem Walking.spent (hwalk : Walking parse targetUrl n h site) :
    lookups h ≤ (segmentsOf parse targetUrl).length + 1 := by
  have := hwalk.count
  omega

theorem meets_only {α : Type} {p : SiteSteps α} (hp : Only NoLookup p.run)
    (hwalk : Walking parse targetUrl n h site) :
    Meets (consuming parse targetUrl) (Bounded parse targetUrl)
      (fun h' _ => Walking parse targetUrl n h' site) h p.run := by
  refine hp.meets (fun h c _ hc => .inl hc) (fun h c r h' hwalk hc hstep => ?_) hwalk
  rw [hstep.2]
  exact hwalk.snoc hc r

/-- Before a lookup that leaves so many rounds. -/
structure Ready (parse : Parser) (targetUrl : Text) (n : Nat) (h : SiteHistory) : Prop where
  count : lookups h + n = (segmentsOf parse targetUrl).length
  deep : n = (segmentsOf parse targetUrl).length ∨ ∃ site, lastRead SiteRead h = some site ∧
    (segmentsOf parse targetUrl).length ≤ n + 1 + pathLength parse site.webUrl

theorem Ready.snoc {c : SiteCall} (hready : Ready parse targetUrl n h) (hc : NoLookup c) (r : SiteAnswer c) :
    Ready parse targetUrl n (h ++ [⟨c, r⟩]) := by
  refine ⟨?_, ?_⟩
  · rw [lookups_snoc_of_noLookup hc]
    exact hready.count
  · rw [lastRead_snoc_of_noLookup hc]
    exact hready.deep

theorem Ready.walking {path : Text} {next : Site} (hready : Ready parse targetUrl n h)
    (hconsumes : Consumes parse targetUrl h (.getSite path) (.ok next)) :
    Walking parse targetUrl n (h ++ [⟨.getSite path, .ok next⟩]) next := by
  refine ⟨lastRead_snoc_some rfl, ?_, fun web hweb hinside => ?_⟩
  · rw [lookups_snoc_getSite, ← hready.count]
    omega
  · rcases hready.deep with hfirst | ⟨site, hsite, hleft⟩
    · omega
    · have := hconsumes site web hsite hweb hinside
      omega

theorem Ready.spent {path : Text} {r : Except GraphError Site} (hready : Ready parse targetUrl n h) :
    lookups (h ++ [⟨.getSite path, r⟩]) ≤ (segmentsOf parse targetUrl).length + 1 := by
  rw [lookups_snoc_getSite]
  have := hready.count
  omega

/-- Looking up one more site. -/
theorem meets_lookup (nextUrl : Text) (hready : Ready parse targetUrl n h) :
    Meets (consuming parse targetUrl) (Bounded parse targetUrl)
      (OnResult (fun h' site => Walking parse targetUrl n h' site)
        (fun h' _ => lookups h' ≤ (segmentsOf parse targetUrl).length + 1)) h
      (getSiteByUrl parse nextUrl).run := by
  unfold getSiteByUrl
  refine Meets.tryBind ⟨.inl trivial, fun r h' hstep => ?_⟩
  obtain ⟨-, rfl⟩ := hstep
  have hready' := hready.snoc (c := .token) trivial r
  have hfew := hready'.count
  cases r with
  | error e =>
    change lookups _ ≤ _
    omega
  | ok u =>
    refine Meets.tryBind ?_
    cases hpath : siteLookupPath parse nextUrl with
    | error e =>
      change lookups _ ≤ _
      omega
    | ok path =>
      refine Meets.tryBind ⟨.inr (by omega), fun r h' hstep => ?_⟩
      obtain ⟨hconsumes, rfl⟩ := hstep
      cases r with
      | error e => exact hready'.spent
      | ok site =>
        refine Meets.tryBind ?_
        cases hid : requirePathSegment siteIdName site.id with
        | error e => exact hready'.spent
        | ok u => exact hready'.walking hconsumes

/-- A round ends the walk, or goes on with one round less. -/
theorem meets_round (hwalk : Walking parse targetUrl n h site) :
    Meets (consuming parse targetUrl) (Bounded parse targetUrl)
      (fun h' r => Sum.elim (fun next => ∃ m < n, Walking parse targetUrl m h' next)
        (Spent parse targetUrl h') r) h (descend parse targetUrl site) := by
  unfold descend
  refine Meets.bind ((meets_only (only_resolveWithin parse site targetUrl) hwalk).mono fun h' r hwalk' => ?_)
  rcases r with e | _ | resolved
  · exact hwalk'.spent
  · dsimp only
    cases hnext : descendOneSegment parse site targetUrl with
    | none => exact hwalk'.spent
    | some nextUrl =>
      obtain ⟨web, hweb, hinside, hshallow⟩ := shallower_of_descends hnext
      have hdeep := hwalk'.deep web hweb hinside
      have hcount := hwalk'.count
      have hready : Ready parse targetUrl (n - 1) h' :=
        ⟨by omega, .inr ⟨site, hwalk'.here, by omega⟩⟩
      refine Meets.bind ((meets_lookup nextUrl hready).mono fun h'' r hr => ?_)
      cases r with
      | ok next => exact ⟨n - 1, by omega, hr⟩
      | error e => cases e <;> exact hr
  · exact hwalk'.spent

theorem meets_walk (parse : Parser) (fuel : Nat) (targetUrl : Text) :
    Meets (consuming parse targetUrl) (Bounded parse targetUrl)
      (fun h r => lookups h ≤ (segmentsOf parse targetUrl).length + 1 ∧
        ((segmentsOf parse targetUrl).length < fuel → r ≠ none)) []
      (resolveSharepointResource parse fuel targetUrl) := by
  unfold resolveSharepointResource
  have hready : Ready parse targetUrl (segmentsOf parse targetUrl).length [] :=
    ⟨Nat.zero_add _, .inl rfl⟩
  refine Meets.bind ((meets_lookup _ hready).mono fun h r hr => ?_)
  cases r with
  | error e => exact ⟨hr, fun _ => nofun⟩
  | ok site =>
    refine (Meets.loopWithin (Walking parse targetUrl) (fun n h site => meets_round) fuel hr).mono
      fun h' r hend => ?_
    cases r with
    | some outcome => exact ⟨hend.1 outcome rfl, fun _ => nofun⟩
    | none =>
      obtain ⟨hfuel, m, site', hwalk⟩ := hend.2 rfl
      exact ⟨hwalk.spent, fun hmore => absurd hfuel (Nat.not_le_of_lt hmore)⟩

/-- Of a server whose every site is deeper than the one before, at most one site more is asked for than the
    target has segments, at any time and for any fuel, and the walk ends within as many rounds. -/
theorem walk_bounded (parse : Parser) (fuel : Nat) (targetUrl : Text) :
    (∀ h path, Asks (consuming parse targetUrl) [] (resolveSharepointResource parse fuel targetUrl) h
      (.getSite path) → lookups h + 1 ≤ (segmentsOf parse targetUrl).length + 1) ∧
    (∀ h r, Exec (consuming parse targetUrl) [] (resolveSharepointResource parse fuel targetUrl) h r →
      lookups h ≤ (segmentsOf parse targetUrl).length + 1 ∧
        ((segmentsOf parse targetUrl).length < fuel → r ≠ none)) := by
  refine ⟨fun h path hasks => ?_, fun h r hexec => (meets_walk parse fuel targetUrl).sound hexec⟩
  rcases (meets_walk parse fuel targetUrl).asked hasks with hno | hfew
  · exact hno.elim
  · exact Nat.succ_le_succ hfew

end Walk

/-! ## Walks that can be looked at -/

def collectionRoot : Text := "https://c.sp/sites/A".toList

/-- A site of the collection, below its root. -/
def subsiteUrl : Text := "https://c.sp/sites/A/B".toList

def subsiteLibrary : Drive := ⟨['d'], none, some "https://c.sp/sites/A/B/L".toList⟩

def belowSubsite : Text := "https://c.sp/sites/A/B/L".toList

/-- The root first, and behind it the subsite, once. -/
def answerSites (h : SiteHistory) : (c : SiteCall) → Option (SiteAnswer c)
  | .token => some (.ok ())
  | .getSite _ =>
    if (lastRead SiteRead h).isNone then some (.ok ⟨['a'], none, some collectionRoot⟩)
    else if (lastRead SiteRead h).bind Site.webUrl = some collectionRoot then
      some (.ok ⟨['b'], none, some subsiteUrl⟩)
    else none
  | .listDrives site => some (.ok (if site = ['b'] then [subsiteLibrary] else []))
  | .listLists _ => some (.ok [])
  | .driveList _ => some (.ok ⟨['l'], none, none, none⟩)
  | .driveItem _ _ => none

theorem consuming_of_answerSites (h : SiteHistory) (c : SiteCall) (r : SiteAnswer c) (h' : SiteHistory)
    (hanswer : remembering answerSites h c = some (r, h')) : consuming plainUrl belowSubsite h c r h' := by
  obtain ⟨r', hr', heq⟩ := Option.map_eq_some_iff.1 hanswer
  obtain ⟨rfl, rfl⟩ := Prod.mk.inj heq
  refine ⟨?_, rfl⟩
  cases c with
  | getSite path =>
    unfold answerSites at hr'
    dsimp only at hr'
    split at hr'
    · next hfirst =>
      obtain rfl := Option.some.inj hr'
      intro site web hsite
      rw [hsite] at hfirst
      cases hfirst
    · split at hr'
      · next hroot =>
        obtain rfl := Option.some.inj hr'
        intro site web hsite hweb
        have hweb' : site.webUrl = some collectionRoot := by rwa [hsite] at hroot
        rw [hweb']
        exact fun _ => by decide
      · cases hr'
  | _ => trivial

set_option maxRecDepth 6000 in
/-- A library of a subsite: two sites are asked for, the second deeper than the first. -/
theorem walk_bounded_subsite : ∃ h r,
    Exec (consuming plainUrl belowSubsite) [] (resolveSharepointResource plainUrl 5 belowSubsite) h r ∧
      lookups h = 2 ∧ lookups h ≤ (segmentsOf plainUrl belowSubsite).length + 1 ∧ r ≠ none := by
  have hplay : (Prog.run (remembering answerSites) (resolveSharepointResource plainUrl 5 belowSubsite) []).map
      (fun e => lookups e.2) = some 2 := by
    decide
  obtain ⟨r, h, hexec, hview⟩ := exists_exec_of_run consuming_of_answerSites hplay
  obtain ⟨hfew, hends⟩ := (walk_bounded plainUrl 5 belowSubsite).2 h r hexec
  exact ⟨h, r, hexec, hview, hfew, hends (by decide)⟩

set_option maxRecDepth 4000 in
/-- A target of three segments, and the server answers with one site again and again: five sites are asked
    for, and the walk has not ended. -/
theorem walk_goes_round : ∃ h r,
    Exec history [] (resolveSharepointResource plainUrl 4 subsiteUrl) h r ∧
      (segmentsOf plainUrl subsiteUrl).length + 1 < lookups h ∧ r = none := by
  have hplay : (Prog.run (remembering (siteAnswers [])) (resolveSharepointResource plainUrl 4 subsiteUrl)
      []).map (fun e => (lookups e.2, e.1.isNone)) = some (5, true) := by
    decide
  obtain ⟨r, h, hexec, hview⟩ := exists_exec_of_run (history_of_remembering _) hplay
  obtain ⟨hlookups, hnone⟩ := Prod.mk.inj hview
  have hsegments : (segmentsOf plainUrl subsiteUrl).length = 3 := by decide
  refine ⟨h, r, hexec, ?_, Option.isNone_iff_eq_none.1 hnone⟩
  rw [hsegments]
  exact hlookups.ge

end Resolver
