import AzAppToolkit.Sharepoint.Resolve

set_option autoImplicit false

/-! # Where a pasted URL lands

What the server answered last decides: the site the walk is at, and its libraries or its lists. The
library is picked by the length of its address as text, which is the length of its path only where the
addresses are spelt alike. -/

namespace Resolver

open Prog
open Graph (GraphError)
open Sweeps (Site)
open Tester (SelectedScopeLevel)

/-! ## What was read last -/

def SiteRead : Exchanged SiteAnswer → Option Site
  | ⟨.getSite _, .ok site⟩ => some site
  | _ => none

def DrivesRead : Exchanged SiteAnswer → Option (List Drive)
  | ⟨.listDrives _, .ok drives⟩ => some drives
  | _ => none

def ListsRead : Exchanged SiteAnswer → Option (List SiteList)
  | ⟨.listLists _, .ok lists⟩ => some lists
  | _ => none

section Last

variable {α : Type} {read : Exchanged SiteAnswer → Option α} {h : SiteHistory} {e : Exchanged SiteAnswer}

/-- The last of what `read` picks. -/
def lastRead (read : Exchanged SiteAnswer → Option α) (h : SiteHistory) : Option α :=
  (h.filterMap read).getLast?

theorem lastRead_snoc_some {a : α} (he : read e = some a) : lastRead read (h ++ [e]) = some a := by
  unfold lastRead
  simp [List.filterMap_append, he]

theorem lastRead_snoc_none (he : read e = none) : lastRead read (h ++ [e]) = lastRead read h := by
  unfold lastRead
  simp [List.filterMap_append, he]

end Last

/-! ## What a resolution owes -/

section Owed

variable (parse : Parser) (targetUrl : Text) (h : SiteHistory) (r : ResolvedSharePointResource)

def pathLength (webUrl : Option Text) : Nat := (webUrl.map (fun web => (segmentsOf parse web).length)).getD 0

/-- No library the target is in has a longer path. -/
def Deepest (drives : List Drive) (d : Drive) : Prop :=
  ∀ d' ∈ drives, (∃ web, d'.webUrl = some web ∧ Inside parse web targetUrl) →
    pathLength parse d'.webUrl ≤ pathLength parse d.webUrl

/-- The target is the library, or what is left of it is the path the item was read by. -/
def RestIs (d : Drive) (web : Text) : Prop :=
  (r.level = .list ∧ SameAddress parse web targetUrl) ∨
  (r.level = .file ∧ ∃ item, h.getLast? = some ⟨.driveItem d.id
    (Text.join ['/'] ((segmentsOf parse targetUrl).drop (segmentsOf parse web).length)), item⟩)

/-- The resource is a library the target is in, or an item of it. -/
structure InLibrary (drives : List Drive) (d : Drive) (web : Text) : Prop where
  listed : d ∈ drives
  chosen : r.driveId = some d.id
  webUrl : d.webUrl = some web
  inside : Inside parse web targetUrl
  rest : RestIs parse targetUrl h r d web

/-- The resource is a list that the target names. -/
structure OnList (lists : List SiteList) (l : SiteList) (web : Text) : Prop where
  level : r.level = .list
  listed : l ∈ lists
  chosen : r.listId = some l.id ∧ r.driveId = none
  webUrl : l.webUrl = some web
  inside : Inside parse web targetUrl

/-- The resource is in the site read last, and the target is in that site. -/
structure InSite (site : Site) (siteUrl : Text) : Prop where
  read : lastRead SiteRead h = some site
  webUrl : site.webUrl = some siteUrl
  chosen : r.siteId = site.id ∧ r.siteUrl = some siteUrl
  inside : Inside parse siteUrl targetUrl

/-- What a resolution owes. -/
def Lands : Prop :=
  ∃ site siteUrl, InSite parse targetUrl h r site siteUrl ∧
    ((r.level = .site ∧ SameAddress parse siteUrl targetUrl) ∨
    (∃ drives d web, lastRead DrivesRead h = some drives ∧ InLibrary parse targetUrl h r drives d web ∧
      Deepest parse targetUrl drives d) ∨
    (∃ lists l web, lastRead ListsRead h = some lists ∧ OnList parse targetUrl r lists l web))

/-- The libraries the target is in are ranked by their paths: a deepest one outranks those that are not,
    by the length of its address or its place in the listing. -/
def RankedByPath : Prop :=
  ∀ site siteUrl drives, lastRead SiteRead h = some site → site.webUrl = some siteUrl →
    lastRead DrivesRead h = some drives → ¬ SameAddress parse siteUrl targetUrl →
    matching parse Drive.webUrl targetUrl drives ≠ [] →
    Ranking.Prevails (fun m => Deepest parse targetUrl drives m.1) (fun m => m.2.1)
      (matching parse Drive.webUrl targetUrl drives)

end Owed

/-! ## What is matched -/

theorem mem_matching {α : Type} {parse : Parser} {webUrl : α → Option Text} {targetUrl : Text} {found : List α}
    {m : α × Nat × Text} (h : m ∈ matching parse webUrl targetUrl found) :
    m.1 ∈ found ∧ ∃ web, webUrl m.1 = some web ∧ Inside parse web targetUrl ∧
      m.2.2 = Text.join ['/'] ((segmentsOf parse targetUrl).drop (segmentsOf parse web).length) := by
  obtain ⟨d, hd, hsome⟩ := List.mem_filterMap.1 h
  obtain ⟨web, hweb, hsome⟩ := Option.bind_eq_some_iff.1 hsome
  obtain ⟨inner, hinner, rfl⟩ := Option.map_eq_some_iff.1 hsome
  obtain ⟨hinside, hrest⟩ := siteRelativePath_eq_some.1 hinner
  exact ⟨hd, web, hweb, hinside, hrest⟩

/-! ## What is found -/

section Found

variable (parse : Parser) (targetUrl : Text)

/-- What the walk returns, in its own terms. -/
structure Found (h : SiteHistory) (r : ResolvedSharePointResource) (site : Site) (siteUrl : Text) : Prop where
  inSite : InSite parse targetUrl h r site siteUrl
  below : (r.level = .site ∧ SameAddress parse siteUrl targetUrl) ∨
    (¬ SameAddress parse siteUrl targetUrl ∧
      ((∃ drives m web, lastRead DrivesRead h = some drives ∧
        Ranking.maxByKey (fun m => m.2.1) (matching parse Drive.webUrl targetUrl drives) = some m ∧
        InLibrary parse targetUrl h r drives m.1 web) ∨
      (∃ drives lists l web, lastRead DrivesRead h = some drives ∧
        matching parse Drive.webUrl targetUrl drives = [] ∧
        lastRead ListsRead h = some lists ∧ OnList parse targetUrl r lists l web)))

variable {parse targetUrl} {h : SiteHistory} {r : ResolvedSharePointResource} {site : Site} {siteUrl : Text}

theorem pathLength_of_webUrl {d : Drive} {web : Text} (hweb : d.webUrl = some web) :
    pathLength parse d.webUrl = (segmentsOf parse web).length := by
  rw [hweb]
  rfl

theorem SameAddress.length_eq {web : Text} (h : SameAddress parse web targetUrl) :
    (segmentsOf parse web).length = (segmentsOf parse targetUrl).length := by
  obtain ⟨host, segs, targetSegs, hweb, htarget, heq⟩ := h
  unfold segmentsOf
  rw [hweb, htarget]
  simpa using congrArg List.length heq

/-- Of two libraries the resource is in by the same rest, the one is as deep as the other. -/
theorem InLibrary.length_eq {drives drives' : List Drive} {d d' : Drive} {web web' : Text}
    (hin : InLibrary parse targetUrl h r drives d web) (hin' : InLibrary parse targetUrl h r drives' d' web') :
    (segmentsOf parse web).length = (segmentsOf parse web').length := by
  rcases hin.rest with ⟨hlevel, hsame⟩ | ⟨hlevel, item, hlast⟩
  · rcases hin'.rest with ⟨-, hsame'⟩ | ⟨hlevel', -⟩
    · rw [hsame.length_eq, hsame'.length_eq]
    · rw [hlevel] at hlevel'
      cases hlevel'
  · rcases hin'.rest with ⟨hlevel', -⟩ | ⟨-, item', hlast'⟩
    · rw [hlevel] at hlevel'
      cases hlevel'
    · rw [hlast] at hlast'
      have hcall := congrArg Sigma.fst (Option.some.inj hlast')
      exact length_eq_of_rest_eq hin.inside hin'.inside (SiteCall.driveItem.inj hcall).2

theorem Found.lands_iff (hfound : Found parse targetUrl h r site siteUrl) :
    Lands parse targetUrl h r ↔ RankedByPath parse targetUrl h := by
  obtain ⟨hsite, ⟨hlevel, hsame⟩ | ⟨hother, hlibrary | hlist⟩⟩ := hfound
  · -- the target is the site
    refine iff_of_true ⟨site, siteUrl, hsite, .inl ⟨hlevel, hsame⟩⟩ ?_
    intro site' siteUrl' drives hread hweb _ hnot
    obtain rfl := Option.some.inj (hsite.read.symm.trans hread)
    obtain rfl := Option.some.inj (hsite.webUrl.symm.trans hweb)
    exact absurd hsame hnot
  · obtain ⟨drives, m, web, hdrives, hpick, hin⟩ := hlibrary
    have hprevails := Ranking.tops_iff_prevails (P := fun m => Deepest parse targetUrl drives m.1)
      (Ranking.tops_of_maxByKey hpick)
    constructor
    · rintro ⟨site', siteUrl', -, ⟨hlevel, -⟩ | ⟨drives', d, web', hdrives', hin', hdeepest⟩ |
        ⟨lists, l, web', -, hlist⟩⟩ site'' siteUrl'' drives'' _ _ hdrives'' _ _
      · rcases hin.rest with ⟨hlevel', -⟩ | ⟨hlevel', -⟩ <;> rw [hlevel] at hlevel' <;> cases hlevel'
      · obtain rfl := Option.some.inj (hdrives.symm.trans hdrives')
        obtain rfl := Option.some.inj (hdrives.symm.trans hdrives'')
        refine hprevails.1 fun d' hd' hinside => ?_
        rw [pathLength_of_webUrl hin.webUrl, hin.length_eq hin', ← pathLength_of_webUrl hin'.webUrl]
        exact hdeepest d' hd' hinside
      · have hnone := hlist.chosen.2
        rw [hin.chosen] at hnone
        exact absurd hnone (Option.some_ne_none _)
    · intro hranked
      have hne : matching parse Drive.webUrl targetUrl drives ≠ [] := by
        intro hnil
        rw [Ranking.maxByKey_eq_none.2 hnil] at hpick
        cases hpick
      have hdeepest := hprevails.2 (hranked site siteUrl drives hsite.read hsite.webUrl hdrives hother hne)
      exact ⟨site, siteUrl, hsite, .inr (.inl ⟨drives, m.1, web, hdrives, hin, hdeepest⟩)⟩
  · obtain ⟨drives, lists, l, web, hdrives, hnone, hlists, hlist⟩ := hlist
    refine iff_of_true ⟨site, siteUrl, hsite, .inr (.inr ⟨lists, l, web, hlists, hlist⟩)⟩ ?_
    intro site' siteUrl' drives' _ _ hdrives' _ hsome
    obtain rfl := Option.some.inj (hdrives.symm.trans hdrives')
    exact absurd hnone hsome

end Found

/-! ## The walk -/

section Walk

variable {parse : Parser} {targetUrl : Text} {h : SiteHistory}

/-- No call is out of place. -/
abbrev anyCall : SiteHistory → SiteCall → Prop := fun _ _ => True

/-- Where only a result is spoken of. -/
abbrev IfOk {α : Type} (good : SiteHistory → α → Prop) : SiteHistory → Except GraphError α → Prop :=
  OnResult good (fun _ _ => True)

theorem meets_ofExcept {α : Type} (r : Except GraphError α) :
    Meets history anyCall (IfOk fun h' _ => h' = h) h (ofExcept r).run := by
  cases r with
  | ok a => exact rfl
  | error e => trivial

theorem meets_token : Meets history anyCall (IfOk fun h' _ => h' = h ++ [⟨.token, .ok ()⟩]) h sharepointToken.run := by
  refine Meets.remember trivial fun r => ?_
  cases r with
  | ok u => exact rfl
  | error e => trivial

theorem meets_readUnder {α : Type} {what id : Text} {read : SiteSteps α} {good : SiteHistory → α → Prop}
    (hread : Meets history anyCall (IfOk good) (h ++ [⟨.token, .ok ()⟩]) read.run) :
    Meets history anyCall (IfOk good) h (readUnder what id read).run := by
  unfold readUnder
  refine Meets.tryThen (meets_ofExcept _) (fun _ _ _ => trivial) ?_
  rintro _ _ rfl
  refine Meets.tryThen meets_token (fun _ _ _ => trivial) ?_
  rintro _ _ rfl
  exact hread

/-- After a read of a site the walk is at that site. -/
theorem meets_getSiteByUrl (siteUrl : Text) :
    Meets history anyCall (IfOk fun h' site => lastRead SiteRead h' = some site) h
      (getSiteByUrl parse siteUrl).run := by
  unfold getSiteByUrl
  refine Meets.tryThen meets_token (fun _ _ _ => trivial) ?_
  rintro _ _ rfl
  refine Meets.tryThen (meets_ofExcept _) (fun _ _ _ => trivial) ?_
  rintro _ path rfl
  have hread : Meets history anyCall (IfOk fun h' site => lastRead SiteRead h' = some site)
      (h ++ [⟨.token, .ok ()⟩]) (ExceptT.mk (call (SiteCall.getSite path)) : SiteSteps Site).run := by
    refine Meets.remember trivial fun r => ?_
    cases r with
    | ok site => exact lastRead_snoc_some rfl
    | error e => trivial
  refine Meets.tryThen hread (fun _ _ _ => trivial) ?_
  intro h' site hsite
  refine Meets.tryThen (meets_ofExcept _) (fun _ _ _ => trivial) ?_
  rintro _ _ rfl
  exact hsite

theorem meets_listSiteDrives (siteId : Text) :
    Meets history anyCall (IfOk fun h' drives => lastRead SiteRead h' = lastRead SiteRead h ∧
      lastRead DrivesRead h' = some drives) h (listSiteDrives siteId).run := by
  refine meets_readUnder (Meets.remember trivial fun r => ?_)
  cases r with
  | ok drives =>
    refine ⟨?_, lastRead_snoc_some rfl⟩
    rw [lastRead_snoc_none rfl, lastRead_snoc_none rfl]
  | error e => trivial

/-- The site and the libraries that were read last stay. -/
def SameReads (h h' : SiteHistory) : Prop :=
  lastRead SiteRead h' = lastRead SiteRead h ∧ lastRead DrivesRead h' = lastRead DrivesRead h

theorem SameReads.snoc {h' : SiteHistory} (hsame : SameReads h h') {e : Exchanged SiteAnswer}
    (hsite : SiteRead e = none) (hdrives : DrivesRead e = none) : SameReads h (h' ++ [e]) := by
  unfold SameReads
  rw [lastRead_snoc_none hsite, lastRead_snoc_none hdrives]
  exact hsame

theorem meets_listSiteLists (siteId : Text) :
    Meets history anyCall (IfOk fun h' lists => SameReads h h' ∧ lastRead ListsRead h' = some lists) h
      (listSiteLists siteId).run := by
  refine meets_readUnder (Meets.remember trivial fun r => ?_)
  cases r with
  | ok lists => exact ⟨(SameReads.snoc ⟨rfl, rfl⟩ rfl rfl).snoc rfl rfl, lastRead_snoc_some rfl⟩
  | error e => trivial

theorem meets_getDriveList (driveId : Text) :
    Meets history anyCall (IfOk fun h' _ => SameReads h h') h (getDriveList driveId).run := by
  refine meets_readUnder (Meets.remember trivial fun r => ?_)
  cases r with
  | ok list => exact (SameReads.snoc ⟨rfl, rfl⟩ rfl rfl).snoc rfl rfl
  | error e => trivial

theorem meets_getDriveItemByPath (driveId relPath : Text) :
    Meets history anyCall (IfOk fun h' item => SameReads h h' ∧
      h'.getLast? = some ⟨.driveItem driveId relPath, .ok item⟩) h (getDriveItemByPath driveId relPath).run := by
  refine meets_readUnder (Meets.remember trivial fun r => ?_)
  cases r with
  | ok item => exact ⟨(SameReads.snoc ⟨rfl, rfl⟩ rfl rfl).snoc rfl rfl, by simp⟩
  | error e => trivial

variable {site : Site} {siteUrl : Text} {drives : List Drive}

/-- Without a library, what a list that is named gives. -/
theorem meets_resolveSiteList (hsite : lastRead SiteRead h = some site) (hweb : site.webUrl = some siteUrl)
    (hinside : Inside parse siteUrl targetUrl) (hother : ¬ SameAddress parse siteUrl targetUrl)
    (hdrives : lastRead DrivesRead h = some drives)
    (hnone : matching parse Drive.webUrl targetUrl drives = []) :
    Meets history anyCall (IfOk fun h' found => ∀ r, found = some r → Found parse targetUrl h' r site siteUrl) h
      (resolveSiteList parse (siteBase site siteUrl) targetUrl).run := by
  unfold resolveSiteList
  refine Meets.tryThen (meets_listSiteLists _) (fun _ _ _ => trivial) ?_
  rintro h' lists ⟨hsame, hlists⟩
  dsimp only
  cases hhit : Ranking.maxByKey (fun m => m.2.1)
      ((matching parse SiteList.webUrl targetUrl lists).filter (fun m => m.2.2.isEmpty)) with
  | none => exact fun r hr => absurd hr.symm (Option.some_ne_none r)
  | some m =>
    intro r hr
    obtain rfl := Option.some.inj hr
    have hin := (Ranking.tops_of_maxByKey hhit).mem
    obtain ⟨hlisted, web, hlistWeb, hlistInside, -⟩ := mem_matching (List.mem_of_mem_filter hin)
    refine ⟨⟨hsame.1.trans hsite, hweb, ⟨rfl, rfl⟩, hinside⟩, .inr ⟨hother, .inr ?_⟩⟩
    exact ⟨drives, lists, m.1, web, hsame.2.trans hdrives, hnone, hlists,
      ⟨rfl, hlisted, ⟨rfl, rfl⟩, hlistWeb, hlistInside⟩⟩

/-- In a library, what the rest of the target gives. -/
theorem meets_resolveInDrive (hsite : lastRead SiteRead h = some site) (hweb : site.webUrl = some siteUrl)
    (hinside : Inside parse siteUrl targetUrl) (hother : ¬ SameAddress parse siteUrl targetUrl)
    (hdrives : lastRead DrivesRead h = some drives) {m : Drive × Nat × Text}
    (hpick : Ranking.maxByKey (fun m => m.2.1) (matching parse Drive.webUrl targetUrl drives) = some m) :
    Meets history anyCall (IfOk fun h' r => Found parse targetUrl h' r site siteUrl) h
      (resolveInDrive (siteBase site siteUrl) m.1 m.2.2 targetUrl).run := by
  obtain ⟨hlisted, web, hdriveWeb, hdriveInside, hrest⟩ := mem_matching (Ranking.tops_of_maxByKey hpick).mem
  have hfound : ∀ (h' : SiteHistory) (r : ResolvedSharePointResource), SameReads h h' → r.siteId = site.id →
      r.siteUrl = some siteUrl → r.driveId = some m.1.id → RestIs parse targetUrl h' r m.1 web →
      Found parse targetUrl h' r site siteUrl := by
    intro h' r hsame hid hurl hdrive hrestIs
    exact ⟨⟨hsame.1.trans hsite, hweb, ⟨hid, hurl⟩, hinside⟩, .inr ⟨hother, .inl ⟨drives, m, web,
      hsame.2.trans hdrives, hpick, ⟨hlisted, hdrive, hdriveWeb, hdriveInside, hrestIs⟩⟩⟩⟩
  unfold resolveInDrive
  split
  · next hempty =>
    refine Meets.tryThen (meets_getDriveList _) (fun _ _ _ => trivial) ?_
    intro h' list hsame
    refine hfound h' _ hsame rfl rfl rfl (.inl ⟨rfl, ?_⟩)
    rw [sameAddress_iff, siteRelativePath_eq_some]
    exact ⟨hdriveInside, (List.isEmpty_iff.1 hempty).symm.trans hrest⟩
  · refine Meets.tryThen (meets_getDriveItemByPath _ _) (fun _ _ _ => trivial) ?_
    rintro h' item ⟨hsame, hlast⟩
    split
    · refine hfound h' _ hsame rfl rfl rfl (.inr ⟨rfl, .ok item, ?_⟩)
      rw [hlast, hrest]
    · trivial

/-- One level of the walk. -/
theorem meets_resolveWithin (hsite : lastRead SiteRead h = some site) :
    Meets history anyCall (IfOk fun h' found => ∀ r, found = some r → ∃ siteUrl, Found parse targetUrl h' r site siteUrl)
      h (resolveWithin parse site targetUrl).run := by
  unfold resolveWithin
  cases hweb : site.webUrl with
  | none => trivial
  | some siteUrl =>
    dsimp only
    cases hrel : siteRelativePath parse siteUrl targetUrl with
    | none => exact fun r hr => absurd hr.symm (Option.some_ne_none r)
    | some rel =>
      dsimp only
      obtain ⟨hinside, -⟩ := siteRelativePath_eq_some.1 hrel
      split
      · next hempty =>
        intro r hr
        obtain rfl := Option.some.inj hr
        rw [List.isEmpty_iff.1 hempty] at hrel
        exact ⟨siteUrl, ⟨hsite, hweb, ⟨rfl, rfl⟩, hinside⟩, .inl ⟨rfl, sameAddress_iff.2 hrel⟩⟩
      · next hrest =>
        have hother : ¬ SameAddress parse siteUrl targetUrl := by
          intro hsame
          rw [sameAddress_iff, hrel] at hsame
          exact hrest (List.isEmpty_iff.2 (Option.some.inj hsame))
        refine Meets.tryThen (meets_listSiteDrives _) (fun _ _ _ => trivial) ?_
        rintro h' drives ⟨hsame, hdrives⟩
        have hsite' := hsame.trans hsite
        cases hpick : Ranking.maxByKey (fun m => m.2.1) (matching parse Drive.webUrl targetUrl drives) with
        | none =>
          have hnone := Ranking.maxByKey_eq_none.1 hpick
          refine (meets_resolveSiteList hsite' hweb hinside hother hdrives hnone).mono fun h'' r hr => ?_
          cases r with
          | ok found => exact fun r hfound => ⟨siteUrl, hr r hfound⟩
          | error e => trivial
        | some m =>
          refine Meets.bind ((meets_resolveInDrive hsite' hweb hinside hother hdrives hpick).mono
            fun h'' r hr => ?_)
          cases r with
          | ok found =>
            intro r hfound
            obtain rfl := Option.some.inj hfound
            exact ⟨siteUrl, hr⟩
          | error e => trivial

/-- What a round ends with, if it ends the walk. -/
def EndsWell (parse : Parser) (targetUrl : Text) (h : SiteHistory)
    (r : Except GraphError ResolvedSharePointResource) : Prop :=
  ∀ resolved, r = .ok resolved → ∃ site siteUrl, Found parse targetUrl h resolved site siteUrl

theorem endsWell_error (e : GraphError) : EndsWell parse targetUrl h (.error e) := nofun

/-- A round ends the walk, or leaves it at the site it has read. -/
theorem meets_descend (hsite : lastRead SiteRead h = some site) :
    Meets history anyCall (fun h' r => Sum.elim (fun next => lastRead SiteRead h' = some next)
      (EndsWell parse targetUrl h') r) h (descend parse targetUrl site) := by
  unfold descend
  refine Meets.bind ((meets_resolveWithin hsite).mono fun h' r hr => ?_)
  cases r with
  | error e => exact endsWell_error e
  | ok found =>
    cases found with
    | some resolved =>
      intro resolved' heq
      obtain rfl := Except.ok.inj heq
      exact ⟨site, hr resolved rfl⟩
    | none =>
      dsimp only
      cases hnext : descendOneSegment parse site targetUrl with
      | none => exact endsWell_error _
      | some nextUrl =>
        refine Meets.bind ((meets_getSiteByUrl nextUrl).mono fun h'' r hr => ?_)
        cases r with
        | ok next => exact hr
        | error e => cases e <;> exact endsWell_error _

theorem meets_resolve (fuel : Nat) :
    Meets history anyCall (OnEnd (EndsWell parse targetUrl)) h (resolveSharepointResource parse fuel targetUrl) := by
  unfold resolveSharepointResource
  refine Meets.bind ((meets_getSiteByUrl _).mono fun h' r hr => ?_)
  cases r with
  | error e =>
    intro r hend
    obtain rfl := Option.some.inj hend
    exact endsWell_error e
  | ok site =>
    exact Meets.loop (fun h site => lastRead SiteRead h = some site) (fun h site hsite => meets_descend hsite) fuel hr

end Walk

/-! ## The whole -/

/-- A pasted URL is looked up in its host's site tree or refused; and where it resolves, the site and the
    library or list are at the beginning of its path, the level is the site only for the site itself, and
    what was picked is the deepest library the URL is in, with the rest of the path, exactly if the
    addresses of the libraries rank them by their paths. -/
theorem resolved_lands_iff (parse : Parser) :
    (∀ siteUrl path, siteLookupPath parse siteUrl = .ok path → SiteLookup path) ∧
    (∀ fuel targetUrl h r,
      Exec history [] (resolveSharepointResource parse fuel targetUrl) h (some (.ok r)) →
      (Lands parse targetUrl h r ↔ RankedByPath parse targetUrl h)) := by
  refine ⟨fun siteUrl path hpath => siteLookupPath_plain hpath, fun fuel targetUrl h r hexec => ?_⟩
  obtain ⟨site, siteUrl, hfound⟩ := (meets_resolve fuel).sound hexec _ rfl r rfl
  exact hfound.lands_iff

/-! ## Walks that can be looked at -/

/-- Of a plain `https` address without dot segments: the host, and the path with its blanks encoded. -/
def plainUrl (s : Text) : Option Url :=
  if "https://".toList.isPrefixOf s then
    let rest := s.drop 8
    let path := (rest.dropWhile (· != '/')).flatMap (fun c => if c = ' ' then "%20".toList else [c])
    some ⟨"https".toList, [], none, some (rest.takeWhile (· != '/')), none, if path.isEmpty then ['/'] else path⟩
  else none

/-- A site, with these libraries, where every item has its ids. -/
def siteAnswers (drives : List Drive) (_ : SiteHistory) : (c : SiteCall) → Option (SiteAnswer c)
  | .token => some (.ok ())
  | .getSite _ => some (.ok ⟨['s'], none, some "https://c.sp/sites/A".toList⟩)
  | .listDrives _ => some (.ok drives)
  | .listLists _ => some (.ok [])
  | .driveList _ => some (.ok ⟨['l'], none, none, none⟩)
  | .driveItem _ _ => some (.ok ⟨['i'], false, some ⟨some ['l'], some ['1']⟩⟩)

def ownDocs : Drive := ⟨['1'], none, some "https://c.sp/sites/A/My%20Own%20Docs".toList⟩

/-- A library below `ownDocs`, spelt with blanks, and the same spelt without. -/
def nestedBlanks : Drive := ⟨['2'], none, some "https://c.sp/sites/A/My Own Docs/X".toList⟩

def nestedEncoded : Drive := ⟨['2'], none, some "https://c.sp/sites/A/My%20Own%20Docs/X".toList⟩

def nestedTarget : Text := "https://c.sp/sites/A/My Own Docs/X/f".toList

/-- What is looked at: the level, the library, and what was read last. -/
def seenOf (r : Option (Except GraphError ResolvedSharePointResource) × SiteHistory) :
    Option (SelectedScopeLevel × Option Text) × Option (List Drive) :=
  ((r.1.bind Except.toOption).map (fun r => (r.level, r.driveId)), lastRead DrivesRead r.2)

theorem nested_inside : Inside plainUrl "https://c.sp/sites/A/My Own Docs/X".toList nestedTarget := by
  have hrest : siteRelativePath plainUrl "https://c.sp/sites/A/My Own Docs/X".toList nestedTarget = some ['f'] := by
    decide
  exact (siteRelativePath_eq_some.1 hrest).1

/-- A walk that was played ends with a resource. -/
theorem exists_walk {drives read : List Drive} {level : SelectedScopeLevel} {driveId : Option Text}
    (hplay : (Prog.run (remembering (siteAnswers drives)) (resolveSharepointResource plainUrl 1 nestedTarget) []).map
      seenOf = some (some (level, driveId), some read)) :
    ∃ h r, Exec history [] (resolveSharepointResource plainUrl 1 nestedTarget) h (some (.ok r)) ∧
      r.level = level ∧ r.driveId = driveId ∧ lastRead DrivesRead h = some read := by
  obtain ⟨ended, h, hexec, hview⟩ := exists_exec_of_run (history_of_remembering _) hplay
  obtain ⟨hresult, hread⟩ := Prod.mk.inj hview
  obtain ⟨r, hr, hseen⟩ := Option.map_eq_some_iff.1 hresult
  obtain ⟨outcome, rfl, hok⟩ := Option.bind_eq_some_iff.1 hr
  obtain ⟨hlevel, hdrive⟩ := Prod.mk.inj hseen
  cases outcome with
  | error e => cases hok
  | ok found =>
    obtain rfl := Option.some.inj hok
    exact ⟨h, found, hexec, hlevel, hdrive, hread⟩

set_option maxRecDepth 4000 in
/-- The address of the outer library is the longer text, so the file is looked for in it. -/
theorem longer_text_wins : ∃ h r,
    Exec history [] (resolveSharepointResource plainUrl 1 nestedTarget) h (some (.ok r)) ∧
    r.driveId = some ownDocs.id ∧ ¬ Lands plainUrl nestedTarget h r := by
  have hplay : (Prog.run (remembering (siteAnswers [ownDocs, nestedBlanks]))
      (resolveSharepointResource plainUrl 1 nestedTarget) []).map seenOf =
      some (some (.file, some ownDocs.id), some [ownDocs, nestedBlanks]) := by
    decide
  obtain ⟨h, r, hexec, hlevel, hdrive, hread⟩ := exists_walk hplay
  refine ⟨h, r, hexec, hdrive, ?_⟩
  rintro ⟨site, siteUrl, -, ⟨hlevel', -⟩ | ⟨drives, d, web, hread', hin, hdeepest⟩ | ⟨lists, l, web, -, hlist⟩⟩
  · rw [hlevel] at hlevel'
    cases hlevel'
  · obtain rfl := Option.some.inj (hread.symm.trans hread')
    have hid : d.id = ownDocs.id := Option.some.inj (hin.chosen.symm.trans hdrive)
    have hlisted : d = ownDocs ∨ d = nestedBlanks := by simpa using hin.listed
    rcases hlisted with rfl | rfl
    · have hle := hdeepest nestedBlanks (by simp) ⟨_, rfl, nested_inside⟩
      exact absurd hle (by decide)
    · exact absurd hid (by decide)
  · have hlevel' := hlist.level
    rw [hlevel] at hlevel'
    cases hlevel'

set_option maxRecDepth 4000 in
/-- Spelt alike, the inner library is the longer text. -/
theorem resolved_lands_iff_nested :
    SiteLookup "/sites/c.sp:/sites/A/My%20Own%20Docs/X/f".toList ∧ ∃ h r,
      Exec history [] (resolveSharepointResource plainUrl 1 nestedTarget) h (some (.ok r)) ∧
      r.driveId = some nestedEncoded.id ∧ Lands plainUrl nestedTarget h r := by
  have hplay : (Prog.run (remembering (siteAnswers [ownDocs, nestedEncoded]))
      (resolveSharepointResource plainUrl 1 nestedTarget) []).map seenOf =
      some (some (.file, some nestedEncoded.id), some [ownDocs, nestedEncoded]) := by
    decide
  obtain ⟨h, r, hexec, hlevel, hdrive, hread⟩ := exists_walk hplay
  refine ⟨(resolved_lands_iff plainUrl).1 nestedTarget _ (by decide), h, r, hexec, hdrive,
    ((resolved_lands_iff plainUrl).2 1 nestedTarget h r hexec).2 ?_⟩
  intro site siteUrl drives _ _ hread' _ _
  obtain rfl := Option.some.inj (hread.symm.trans hread')
  have hmatching : matching plainUrl Drive.webUrl nestedTarget [ownDocs, nestedEncoded] =
      [(ownDocs, 36, "X/f".toList), (nestedEncoded, 38, ['f'])] := by
    decide
  rw [hmatching]
  refine ⟨[_], _, [], rfl, ?_, fun m hm _ => ?_, fun m hm _ => absurd hm List.not_mem_nil⟩
  · intro d hd _
    have hcases : d = ownDocs ∨ d = nestedEncoded := by simpa using hd
    rcases hcases with rfl | rfl <;> decide
  · obtain rfl := List.mem_singleton.1 hm
    decide

end Resolver
