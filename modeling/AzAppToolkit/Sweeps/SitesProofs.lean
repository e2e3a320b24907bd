import AzAppToolkit.Sweeps.Sites
import AzAppToolkit.Graph.BatchProofs

set_option autoImplicit false

/-! # What a site sweep covers

A task that comes back with fewer results than sites has seen a flag that is still set when the sweep
looks at it in the end. So a sweep that returns and was not cancelled has a result for every site of
every task that came back, and counts the sites of the others as lost. What the rows leave out is
another matter: a permission is entered under the first application it names. -/

namespace Sweeps

open Prog Bulk Graph

/-! ## A task -/

def honestChunk : Exchanged ChunkAnswer → Prop
  | ⟨.batchListSitePermissions ids, .ok results⟩ => results.length = ids.length
  | _ => True

/-- A flag was seen. -/
def SawCancel (h : List (Exchanged ChunkAnswer)) : Prop := (⟨.isCancelled, true⟩ : Exchanged ChunkAnswer) ∈ h

def SawDead (h : List (Exchanged ChunkAnswer)) : Prop := (⟨.isDead, true⟩ : Exchanged ChunkAnswer) ∈ h

/-- The task of a chunk may report the result, and leave the flags so. -/
def chunkReports (chunk : List Site) (flags : Flags) (r : ChunkResult) : Prop :=
  r.1 = chunk ∧ ∃ h, Exec (trusted honestChunk) [] (readSiteChunk chunk) h r.2 ∧
    (SawCancel h → flags.cancelled = true) ∧ (SawDead h → flags.dead = true) ∧
    ∀ code, (⟨.noteCode code, ()⟩ : Exchanged ChunkAnswer) ∈ h → isReauthFatal code = true →
      flags.dead = true

/-- The sweep's tasks; what its own calls answer is not restricted. -/
def siteSweep : Sweep (List Site) ChunkResult SiteAnswer where
  reports := chunkReports
  reports_of_grows := by
    rintro chunk f f' r hgrows ⟨hchunk, h, hexec, hcancel, hdead, hnote⟩
    exact ⟨hchunk, h, hexec, fun hs => hgrows.1 (hcancel hs), fun hs => hgrows.2 (hdead hs),
      fun code hc hfatal => hgrows.2 (hnote code hc hfatal)⟩
  answers _ := True

/-- Every site has a result, or a flag was seen. -/
def Whole (sites : Nat) (h : List (Exchanged ChunkAnswer)) (results : List SiteRead) : Prop :=
  results.length = sites ∨ SawCancel h ∨ SawDead h

/-- The site was read on its own, with this answer. -/
def ReadAlone (h : List (Exchanged ChunkAnswer)) (pair : Site × SiteRead) : Prop :=
  (⟨.listSitePermissions pair.1.id, pair.2⟩ : Exchanged ChunkAnswer) ∈ h

/-- The result of a site is what the `$batch` answered in its place, or what it was read with alone. -/
def ReadIn (chunk : List Site) (h : List (Exchanged ChunkAnswer)) (pair : Site × SiteRead) : Prop :=
  (∃ results, (⟨.batchListSitePermissions (chunk.map (·.id)), .ok results⟩ : Exchanged ChunkAnswer) ∈ h ∧
    pair ∈ chunk.zip results) ∨ ReadAlone h pair

variable {h : List (Exchanged ChunkAnswer)}

theorem meets_chunkCall {c : ChunkCall} {post : List (Exchanged ChunkAnswer) → ChunkAnswer c → Prop}
    (hpost : ∀ r, honestChunk ⟨c, r⟩ → post (h ++ [⟨c, r⟩]) r) :
    Meets (trusted honestChunk) (fun _ _ => True) post h (call c : ChunkSteps (ChunkAnswer c)) :=
  Meets.trust trivial hpost

theorem meets_chunkStopped :
    Meets (trusted honestChunk) (fun _ _ => True) (fun h' stopped =>
      (∀ e ∈ h, e ∈ h') ∧ (stopped = true → SawCancel h' ∨ SawDead h')) h chunkStopped := by
  refine Meets.bind (meets_chunkCall (c := .isCancelled) (fun cancelled _ => ?_))
  cases cancelled with
  | true => exact ⟨fun e he => by simp [he], fun _ => .inl (by simp [SawCancel])⟩
  | false =>
    refine meets_chunkCall (c := .isDead) (fun dead _ => ⟨fun e he => by simp [he], fun hdead => .inr ?_⟩)
    rw [hdead]
    simp [SawDead]

/-- The loop behind the sites that are `past`: what it hands back are the answers of its own reads. -/
theorem meets_readSites (past sites : List Site) (out : List SiteRead)
    (hlen : past.length = out.length) (hread : ∀ pair ∈ past.zip out, ReadAlone h pair) :
    Meets (trusted honestChunk) (fun _ _ => True) (fun h' results =>
      Whole (past ++ sites).length h' results ∧
        ∀ pair ∈ (past ++ sites).zip results, ReadAlone h' pair) h
      (readSites sites out) := by
  induction sites generalizing past out h with
  | nil =>
    rw [List.append_nil]
    exact ⟨.inl hlen.symm, hread⟩
  | cons site sites ih =>
    refine Meets.bind (meets_chunkStopped.mono (fun h₁ stopped hstopped => ?_))
    cases stopped with
    | true =>
      refine ⟨.inr (hstopped.2 rfl), fun pair hpair => hstopped.1 _ (hread pair ?_)⟩
      have hzip := @List.zip_append _ _ _ (site :: sites) _ ([] : List SiteRead) hlen
      rw [List.append_nil, List.zip_nil_right, List.append_nil] at hzip
      exact hzip ▸ hpair
    | false =>
      refine Meets.bind (meets_chunkCall (c := .listSitePermissions site.id) (fun result _ => ?_))
      have hrest : ∀ h', (∀ e ∈ h₁ ++ [⟨.listSitePermissions site.id, result⟩], e ∈ h') →
          Meets (trusted honestChunk) (fun _ _ => True) (fun h' results =>
            Whole (past ++ site :: sites).length h' results ∧
              ∀ pair ∈ (past ++ site :: sites).zip results, ReadAlone h' pair) h'
            (readSites sites (out ++ [result])) := by
        intro h' hgrows
        rw [List.append_cons]
        refine ih _ _ (by simp [hlen]) (fun pair hpair => hgrows _ ?_)
        rw [List.zip_append hlen] at hpair
        rcases List.mem_append.1 hpair with hold | hnew
        · exact List.mem_append_left _ (hstopped.1 _ (hread pair hold))
        · obtain rfl : pair = (site, result) := by simpa using hnew
          exact List.mem_append_right _ List.mem_cons_self
      cases result with
      | ok perms => exact hrest _ (fun _ he => he)
      | error err =>
        exact Meets.bind (meets_chunkCall (c := .noteCode err.uiCode) (fun _ _ =>
          hrest _ (fun _ he => List.mem_append_left _ he)))

theorem meets_readSiteChunk (chunk : List Site) :
    Meets (trusted honestChunk) (fun _ _ => True) (fun h results => Whole chunk.length h results ∧
      ∀ pair ∈ chunk.zip results, ReadIn chunk h pair) [] (readSiteChunk chunk) := by
  refine Meets.bind (meets_chunkCall (c := .batchListSitePermissions (chunk.map (·.id)))
    (fun answer hanswer => ?_))
  cases answer with
  | ok results =>
    have hlen : results.length = (chunk.map (·.id)).length := hanswer
    rw [List.length_map] at hlen
    exact ⟨.inl hlen, fun pair hpair => .inl ⟨results, List.mem_cons_self, hpair⟩⟩
  | error err =>
    refine Meets.bind (meets_chunkCall (c := .noteCode err.uiCode) (fun _ _ => ?_))
    exact (meets_readSites [] chunk [] rfl (by simp)).mono
      (fun h results hr => ⟨hr.1, fun pair hpair => .inr (hr.2 pair hpair)⟩)

/-- A task of which no flag is seen has read every site of its chunk. -/
theorem length_of_chunkReports {chunk : List Site} {flags : Flags} {r : ChunkResult}
    (hr : chunkReports chunk flags r) (hcancelled : flags.cancelled = false) (hdead : flags.dead = false) :
    r.2.length = chunk.length := by
  obtain ⟨-, h, hexec, hcancel, hdead', -⟩ := hr
  rcases ((meets_readSiteChunk chunk).sound hexec).1 with hwhole | hsaw | hsaw
  · exact hwhole
  · rw [hcancel hsaw] at hcancelled
    exact absurd hcancelled (by simp)
  · rw [hdead' hsaw] at hdead
    exact absurd hdead (by simp)

/-! ## The tally -/

/-- What the tasks that came back have read. -/
def readsOf (joined : List (Option ChunkResult)) : List (Site × SiteRead) :=
  joined.flatMap (fun r => match r with
    | none => []
    | some (chunk, results) => chunk.zip results)

def isRead : SiteRead → Bool
  | .ok _ => true
  | .error _ => false

/-- The rows of one site. -/
def siteRows (pair : Site × SiteRead) : List SiteAppGrantRow :=
  match pair.2 with
  | .ok perms => perms.filterMap (rowOf pair.1)
  | .error _ => []

/-- The sites of the tasks that came back. -/
def sitesOf (joined : List (Option ChunkResult)) : Nat :=
  (joined.map (fun r => match r with
    | none => 0
    | some (chunk, _) => chunk.length)).sum

theorem foldl_foldSiteResult (pairs : List (Site × SiteRead)) (t : SiteTally) :
    pairs.foldl (fun t pair => foldSiteResult t pair.1 pair.2) t =
      ⟨t.rows ++ pairs.flatMap siteRows, t.sitesScanned + pairs.countP (fun p => isRead p.2),
        t.sitesFailed + pairs.countP (fun p => !isRead p.2), t.done⟩ := by
  induction pairs generalizing t with
  | nil => simp
  | cons pair pairs ih =>
    obtain ⟨site, result⟩ := pair
    rw [List.foldl_cons, ih]
    cases result with
    | ok perms =>
      simp only [foldSiteResult, List.flatMap_cons, siteRows, List.append_assoc, isRead,
        List.countP_cons, Bool.not_true, if_true, Bool.false_eq_true, if_false, SiteTally.mk.injEq,
        true_and, and_true]
      omega
    | error err =>
      simp only [foldSiteResult, List.flatMap_cons, siteRows, List.nil_append, isRead,
        List.countP_cons, Bool.not_false, if_true, Bool.false_eq_true, if_false, SiteTally.mk.injEq,
        true_and, and_true]
      omega

/-- The collector's state is what the tasks that came back have read. -/
theorem foldl_foldChunk (joined : List (Option ChunkResult)) (t : SiteTally) :
    joined.foldl foldChunk t =
      ⟨t.rows ++ (readsOf joined).flatMap siteRows,
        t.sitesScanned + (readsOf joined).countP (fun p => isRead p.2),
        t.sitesFailed + (readsOf joined).countP (fun p => !isRead p.2), t.done + sitesOf joined⟩ := by
  induction joined generalizing t with
  | nil => simp [readsOf, sitesOf]
  | cons r joined ih =>
    rw [List.foldl_cons, ih]
    cases r with
    | none => simp [foldChunk, readsOf, sitesOf]
    | some result =>
      obtain ⟨chunk, results⟩ := result
      have hreads : readsOf (some (chunk, results) :: joined) = chunk.zip results ++ readsOf joined := rfl
      have hsites : sitesOf (some (chunk, results) :: joined) = chunk.length + sitesOf joined := by
        simp [sitesOf]
      rw [hreads, hsites, foldChunk, foldl_foldSiteResult, List.flatMap_append, List.countP_append,
        List.countP_append]
      simp only [List.append_assoc, SiteTally.mk.injEq, true_and]
      omega

/-! ## The sweep -/

abbrev SweepState := FanState (List Site) ChunkResult SiteAnswer

/-- What the tasks of a sweep have read so far. -/
def siteReads (h : SweepState) : List (Site × SiteRead) := readsOf (h.joined.map Prod.snd)

/-- The tasks that came back, by their chunks. -/
theorem perm_chunks {joined : List (List Site × Option ChunkResult)}
    (hreports : ∀ chunk r, (chunk, some r) ∈ joined → r.1 = chunk ∧ r.2.length = chunk.length) :
    ∃ lost, ((readsOf (joined.map Prod.snd)).map Prod.fst ++ lost).Perm (joined.map Prod.fst).flatten ∧
      (readsOf (joined.map Prod.snd)).length = sitesOf (joined.map Prod.snd) := by
  induction joined with
  | nil => exact ⟨[], .refl _, rfl⟩
  | cons j joined ih =>
    obtain ⟨lost, hperm, hlen⟩ := ih (fun chunk r hmem => hreports chunk r (List.mem_cons_of_mem _ hmem))
    obtain ⟨chunk, r⟩ := j
    cases r with
    | none =>
      refine ⟨lost ++ chunk, ?_, by simpa [readsOf, sitesOf] using hlen⟩
      rw [List.map_cons, List.map_cons, List.flatten_cons]
      show ((readsOf (joined.map Prod.snd)).map Prod.fst ++ (lost ++ chunk)).Perm _
      rw [← List.append_assoc]
      exact (hperm.append_right chunk).trans List.perm_append_comm
    | some result =>
      obtain ⟨hchunk, hfull⟩ := hreports chunk result List.mem_cons_self
      obtain ⟨chunk', results⟩ := result
      obtain rfl : chunk' = chunk := hchunk
      have hzip : (chunk'.zip results).map Prod.fst = chunk' := by
        rw [List.map_fst_zip]
        exact hfull.ge
      refine ⟨lost, ?_, ?_⟩
      · rw [List.map_cons, List.map_cons, List.flatten_cons]
        show ((chunk'.zip results ++ readsOf (joined.map Prod.snd)).map Prod.fst ++ lost).Perm _
        rw [List.map_append, hzip, List.append_assoc]
        exact hperm.append_left _
      · show (chunk'.zip results ++ readsOf (joined.map Prod.snd)).length = _
        rw [List.length_append, List.length_zip, hlen]
        simp [sitesOf, hfull]

/-- A task that came back has asked for the permissions of the site, and this is what it was answered. -/
def WasRead (joined : List (List Site × Option ChunkResult)) (pair : Site × SiteRead) : Prop :=
  ∃ chunk results h, (chunk, some (chunk, results)) ∈ joined ∧
    Exec (trusted honestChunk) [] (readSiteChunk chunk) h results ∧ ReadIn chunk h pair

theorem wasRead_of_reported {joined : List (List Site × Option ChunkResult)} {flags : Flags}
    (hreported : ∀ chunk r, (chunk, some r) ∈ joined → chunkReports chunk flags r) :
    ∀ pair ∈ readsOf (joined.map Prod.snd), WasRead joined pair := by
  intro pair hpair
  obtain ⟨r, hr, hpair⟩ := List.mem_flatMap.1 hpair
  obtain ⟨⟨chunk, r⟩, hmem, rfl⟩ := List.mem_map.1 hr
  cases r with
  | none => exact absurd hpair (by simp)
  | some result =>
    obtain ⟨chunk', results⟩ := result
    obtain ⟨rfl, h, hexec, -⟩ := hreported chunk _ hmem
    exact ⟨chunk', results, h, hmem, hexec, ((meets_readSiteChunk chunk').sound hexec).2 pair hpair⟩

/-- A finished sweep, and what its tasks have read. -/
structure Covers (sites : List Site) (h : SweepState) (result : SiteSweepResult) : Prop where
  total : result.totalSites = sites.length
  scanned : result.sitesScanned = (siteReads h).countP (fun p => isRead p.2)
  read : ∀ pair ∈ siteReads h, WasRead h.joined pair
  rows : result.rows.Perm ((siteReads h).flatMap siteRows)
  /-- If it was not cancelled, every site was read, failed or lost. -/
  whole : result.cancelled = false →
    result.sitesScanned + result.sitesFailed = result.totalSites ∧
    ∃ lost, ((siteReads h).map Prod.fst ++ lost).Perm sites ∧
      result.sitesFailed = (siteReads h).countP (fun p => !isRead p.2) + lost.length

/-- Only a sweep that read every site is stored. -/
def storeOk (sites : List Site) (h : SweepState) (c : FanCall (List Site) SiteCall) : Prop :=
  ∀ result, c = .other (.store result) →
    Covers sites h result ∧ (((siteReads h).filter (fun p => isRead p.2)).map Prod.fst).Perm sites

def emits : SiteCall → Prop
  | .emit _ => True
  | _ => False

theorem collectChunk_folds (total : Nat) : Folds emits foldChunk (collectChunk total) := by
  have hnote : ∀ codes, Only (isQuiet emits)
      (noteCodes codes : Prog (FanAnswer (List Site) ChunkResult SiteAnswer) Unit) := by
    intro codes
    induction codes with
    | nil => trivial
    | cons code codes ih => exact ⟨trivial, fun _ => ih⟩
  refine ⟨fun t r => ?_, fun t r => ?_⟩
  · cases r with
    | none => trivial
    | some result => exact Only.bind (hnote _) (fun _ => ⟨trivial, fun _ => ⟨trivial, fun _ => trivial⟩⟩)
  · cases r with
    | none => rfl
    | some result => exact Ends.bind Ends.anyhow (fun _ _ => fun _ _ => fun _ _ => rfl)

variable {sites : List Site} {h : SweepState}

/-- The collector's state, once everything dispatched has ended. -/
theorem covers_of_running {started : List (List Site)} {t : SiteTally} {cancelled : Bool} (truncated : Bool)
    (hrun : siteSweep.Running foldChunk ⟨[], 0, 0, 0⟩ started [] t h)
    (hopen : cancelled = false → started = chunks sweepBatch sites ∧ h.flags.cancelled = false ∧
      h.flags.dead = false) :
    Covers sites h ⟨sites.length, t.sitesScanned,
      t.sitesFailed + sitesLost sites.length t.done cancelled, t.rows.mergeSort rowLe, cancelled,
      truncated⟩ := by
  have htally := hrun.folded
  rw [foldl_foldChunk, List.nil_append, Nat.zero_add, Nat.zero_add, Nat.zero_add] at htally
  subst htally
  refine ⟨rfl, rfl, wasRead_of_reported hrun.reported, List.mergeSort_perm _ _, fun hcancelled => ?_⟩
  replace hcancelled : cancelled = false := hcancelled
  obtain ⟨hstarted, hnot, halive⟩ := hopen hcancelled
  have hfull : ∀ chunk r, (chunk, some r) ∈ h.joined → r.1 = chunk ∧ r.2.length = chunk.length := by
    intro chunk r hmem
    have hr : chunkReports chunk h.flags r := hrun.reported chunk r hmem
    exact ⟨hr.1, length_of_chunkReports hr hnot halive⟩
  obtain ⟨lost, hperm, hlen⟩ := perm_chunks hfull
  have hsites : ((siteReads h).map Prod.fst ++ lost).Perm sites := by
    refine hperm.trans ?_
    have hjoined := hrun.joined
    rw [List.append_nil, hstarted] at hjoined
    have hflat := hjoined.flatten
    rwa [flatten_chunks (by decide)] at hflat
  have hcount : sites.length = (siteReads h).length + lost.length := by
    rw [← hsites.length_eq, List.length_append, List.length_map]
  have hsplit : (siteReads h).length = (siteReads h).countP (fun p => isRead p.2) +
      (siteReads h).countP (fun p => !isRead p.2) := by
    rw [List.length_eq_countP_add_countP (fun p : Site × SiteRead => isRead p.2)]
    simp
  have hlost : sitesLost sites.length (sitesOf (h.joined.map Prod.snd)) cancelled = lost.length := by
    rw [hcancelled, ← hlen, sitesLost, if_neg (by simp), hcount]
    show (siteReads h).length + lost.length - (siteReads h).length = lost.length
    exact Nat.add_sub_cancel_left _ _
  show (siteReads h).countP (fun p => isRead p.2) + ((siteReads h).countP (fun p => !isRead p.2) +
    sitesLost sites.length (sitesOf (h.joined.map Prod.snd)) cancelled) = sites.length ∧ _
  refine ⟨?_, lost, hsites, ?_⟩
  · rw [hlost]
    omega
  · show (siteReads h).countP (fun p => !isRead p.2) + _ = _
    rw [hlost]

theorem Covers.of_joined {h h' : SweepState} {result : SiteSweepResult}
    (hcovers : Covers sites h result) (hjoined : h'.joined = h.joined) : Covers sites h' result := by
  have hreads : siteReads h' = siteReads h := by
    unfold siteReads
    rw [hjoined]
  obtain ⟨htotal, hscanned, hread, hrows, hwhole⟩ := hcovers
  refine ⟨htotal, ?_, ?_, ?_, ?_⟩
  · rwa [hreads]
  · rwa [hreads, hjoined]
  · rwa [hreads]
  · rwa [hreads]

/-- A sweep that may be stored has read every site. -/
theorem Covers.all_read {result : SiteSweepResult} (hcovers : Covers sites h result)
    (hcacheable : sweepIsCacheable result.cancelled result.sitesFailed = true) :
    (((siteReads h).filter (fun p => isRead p.2)).map Prod.fst).Perm sites := by
  obtain ⟨hnot, hnone⟩ : result.cancelled = false ∧ result.sitesFailed = 0 := by
    simpa [sweepIsCacheable] using hcacheable
  obtain ⟨-, lost, hperm, hfailed⟩ := hcovers.whole hnot
  obtain ⟨hno, hlost⟩ : (siteReads h).countP (fun p => !isRead p.2) = 0 ∧ lost = [] := by
    rw [hnone] at hfailed
    exact ⟨by omega, List.length_eq_zero_iff.1 (by omega)⟩
  have hall : (siteReads h).filter (fun p => isRead p.2) = siteReads h := by
    refine List.filter_eq_self.2 (fun p hp => ?_)
    have hread := List.countP_eq_zero.1 hno p hp
    simpa using hread
  rw [hall]
  rwa [hlost, List.append_nil] at hperm

/-- A call of the sweep's own that it makes while nothing is to be stored. -/
theorem storeOk_of_ne {c : FanCall (List Site) SiteCall}
    (hc : ∀ e, c = .other e → emits e) : storeOk sites h c := by
  intro result heq
  exact (hc _ heq).elim

theorem meets_sweepCancelled (stoppedEarly : Bool) :
    Meets siteSweep.world (storeOk sites) (fun h' cancelled => h'.joined = h.joined ∧
        (cancelled = false → stoppedEarly = false ∧ h.flags.cancelled = false)) h
      (sweepCancelled stoppedEarly) := by
  cases stoppedEarly with
  | true => exact ⟨rfl, fun hfalse => absurd hfalse (by simp)⟩
  | false =>
    refine ⟨storeOk_of_ne (by simp), fun cancelled h' hw => ⟨(quiet_of_world (P := emits)
      (c := .isCancelled) trivial hw).2, fun hcancelled => ⟨rfl, ?_⟩⟩⟩
    have hseen : if cancelled then h'.flags.cancelled = true else h.flags.cancelled = false := hw.2.1
    rw [hcancelled, if_neg (by simp)] at hseen
    exact hseen

/-- Whatever is returned or stored covers the sites. -/
theorem meets_sweepSites (sites : List Site) (truncated : Bool)
    (hspawned : h.spawned = []) (hjoined : h.joined = []) :
    Meets siteSweep.world (storeOk sites)
      (fun h' r => ∀ result, r = .ok result → Covers sites h' result) h (sweepSites sites truncated) := by
  refine Meets.bind ⟨storeOk_of_ne (fun e heq => by cases heq; trivial), fun _ h₁ hw₁ => ?_⟩
  obtain ⟨hspawned₁, hjoined₁⟩ := quiet_of_world (P := emits) (c := .other (.emit _)) trivial hw₁
  have hdispatch := siteSweep.dispatched (P := emits) ⟨[], 0, 0, 0⟩ (storeOk sites)
    (fun _ _ hc => storeOk_of_ne hc) fanLimit ⟨trivial, fun _ => trivial⟩
    (collectChunk_folds sites.length) (chunks sweepBatch sites) (hspawned₁.trans hspawned)
    (hjoined₁.trans hjoined)
  refine Meets.bind (hdispatch.mono (fun h₂ dispatch hdispatched => ?_))
  obtain ⟨started, -, hall, hrun⟩ := hdispatched
  refine Meets.bind ⟨storeOk_of_ne (by simp), fun dead h₃ hw₃ => ?_⟩
  have hjoined₃ := (quiet_of_world (P := emits) (c := .isDead) trivial hw₃).2
  cases dead with
  | true => exact fun result heq => absurd heq (by simp)
  | false =>
    have halive : h₂.flags.dead = false := hw₃.2.1
    refine Meets.bind ((meets_sweepCancelled dispatch.1).mono (fun h₄ cancelled hcancelled => ?_))
    obtain ⟨hjoined₄, hnot⟩ := hcancelled
    -- both flags were down when the last task had ended
    have hopen : cancelled = false → started = chunks sweepBatch sites ∧
        h₂.flags.cancelled = false ∧ h₂.flags.dead = false := by
      intro hfalse
      obtain ⟨hstopped, hdown⟩ := hnot hfalse
      refine ⟨hall hstopped, ?_, halive⟩
      cases hflag : h₂.flags.cancelled with
      | false => rfl
      | true =>
        rw [hw₃.1.1 hflag] at hdown
        exact absurd hdown (by simp)
    have hcovers := (covers_of_running truncated hrun hopen).of_joined (hjoined₄.trans hjoined₃)
    dsimp only
    split
    · next hcacheable =>
      refine Meets.bind ⟨?_, fun _ h₅ hw₅ => ?_⟩
      · intro result heq
        cases heq
        exact ⟨hcovers, hcovers.all_read hcacheable⟩
      · intro result heq
        cases heq
        exact hcovers.of_joined (quiet_of_world (P := fun _ => True) (c := .other (.store _))
          trivial hw₅).2
    · intro result heq
      cases heq
      exact hcovers

/-! ## From the enumeration on -/

/-- The sites that were enumerated. -/
def Enumerated (h : SweepState) (sites : List Site) : Prop :=
  ∃ max truncated, (⟨.other (.listAllSites max), .ok (sites, truncated)⟩ :
    Exchanged (FanAnswer (List Site) ChunkResult SiteAnswer)) ∈ h.history

theorem enumerated_of_world {h h' : SweepState}
    {c : FanCall (List Site) SiteCall} {r : FanAnswer (List Site) ChunkResult SiteAnswer c}
    (he : Enumerated h sites) (hw : siteSweep.world h c r h') : Enumerated h' sites := by
  obtain ⟨max, truncated, hmem⟩ := he
  refine ⟨max, truncated, ?_⟩
  rw [hw.2.2]
  exact List.mem_append_left _ hmem

/-- Only a sweep that read every enumerated site is stored. -/
def siteStoreOk (h : SweepState) (c : FanCall (List Site) SiteCall) : Prop :=
  ∀ result, c = .other (.store result) → ∃ sites, Enumerated h sites ∧ Covers sites h result ∧
    (((siteReads h).filter (fun p => isRead p.2)).map Prod.fst).Perm sites

theorem meets_sweepSitePermissions (hspawned : h.spawned = []) (hjoined : h.joined = []) :
    Meets siteSweep.world siteStoreOk (fun h' r => ∀ result, r = .ok result →
        ∃ sites, Enumerated h' sites ∧ Covers sites h' result) h sweepSitePermissions := by
  refine Meets.bind ⟨fun _ heq => absurd heq (by simp), fun client h₁ hw₁ => ?_⟩
  obtain ⟨hspawned₁, hjoined₁⟩ := quiet_of_world (P := fun _ => True)
    (c := .other SiteCall.sharepointClientChecked) trivial hw₁
  cases client with
  | error message => exact fun result heq => absurd heq (by simp)
  | ok _ =>
    refine Meets.bind ⟨fun _ heq => absurd heq (by simp), fun listed h₂ hw₂ => ?_⟩
    obtain ⟨hspawned₂, hjoined₂⟩ := quiet_of_world (P := fun _ => True)
      (c := .other (SiteCall.listAllSites _)) trivial hw₂
    cases listed with
    | error err => exact fun result heq => absurd heq (by simp)
    | ok listed =>
      obtain ⟨sites, truncated⟩ := listed
      have he : Enumerated h₂ sites := by
        refine ⟨maxSitesPerSweep, truncated, ?_⟩
        rw [hw₂.2.2]
        simp
      have hsweep := meets_sweepSites sites truncated (hspawned₂.trans (hspawned₁.trans hspawned))
        (hjoined₂.trans (hjoined₁.trans hjoined))
      refine (hsweep.keep (fun _ _ _ _ he _ hw => enumerated_of_world he hw) ?_ he).mono ?_
      · intro h₃ c he₃ hok result heq
        obtain ⟨hcovers, hread⟩ := hok result heq
        exact ⟨sites, he₃, hcovers, hread⟩
      · intro h₃ r hr result heq
        exact ⟨sites, hr.1, hr.2 result heq⟩

/-! ## Completeness of the rows -/

/-- All the applications a permission names. -/
def SitePermission.applications (p : SitePermission) : List SiteIdentity :=
  p.grantedToIdentities.filterMap (·.application)

/-- The permission was read of the site. -/
def ReadOf (reads : List (Site × SiteRead)) (site : Site) (p : SitePermission) : Prop :=
  ∃ perms, (site, .ok perms) ∈ reads ∧ p ∈ perms

/-- Every application named in a permission that was read has its row. -/
def RowsComplete (reads : List (Site × SiteRead)) (rows : List SiteAppGrantRow) : Prop :=
  ∀ site p app, ReadOf reads site p → app ∈ p.applications →
    ∃ row ∈ rows, row.siteId = site.id ∧ row.appId = app.id ∧ row.permissionId = p.id ∧
      row.roles = p.roles

/-- An application that a permission names behind its first is the first of another one that was read
    of the site, under the same id and with the same roles. -/
def LaterNamedAlsoFirst (reads : List (Site × SiteRead)) : Prop :=
  ∀ site p app, ReadOf reads site p → app ∈ p.applications.tail →
    ∃ site' p' first, ReadOf reads site' p' ∧ p'.applications.head? = some first ∧
      site'.id = site.id ∧ first.id = app.id ∧ p'.id = p.id ∧ p'.roles = p.roles

theorem application_eq_head? (p : SitePermission) : p.application = p.applications.head? := by
  unfold SitePermission.application SitePermission.applications
  induction p.grantedToIdentities with
  | nil => rfl
  | cons set sets ih =>
    rw [List.findSome?_cons, List.filterMap_cons]
    cases set.application with
    | none => exact ih
    | some app => rfl

theorem mem_siteRows {reads : List (Site × SiteRead)} {row : SiteAppGrantRow} :
    row ∈ reads.flatMap siteRows ↔ ∃ site p, ReadOf reads site p ∧ rowOf site p = some row := by
  rw [List.mem_flatMap]
  constructor
  · rintro ⟨⟨site, read⟩, hmem, hrow⟩
    cases read with
    | error err => exact absurd hrow (by simp [siteRows])
    | ok perms =>
      obtain ⟨p, hp, hrow⟩ := List.mem_filterMap.1 hrow
      exact ⟨site, p, ⟨perms, hmem, hp⟩, hrow⟩
  · rintro ⟨site, p, ⟨perms, hmem, hp⟩, hrow⟩
    exact ⟨(site, .ok perms), hmem, List.mem_filterMap.2 ⟨p, hp, hrow⟩⟩

theorem rowsComplete_iff {reads : List (Site × SiteRead)} {rows : List SiteAppGrantRow}
    (hrows : rows.Perm (reads.flatMap siteRows)) :
    RowsComplete reads rows ↔ LaterNamedAlsoFirst reads := by
  constructor
  · intro hcomplete site p app hread hlater
    obtain ⟨row, hmem, hsite, happ, hid, hroles⟩ :=
      hcomplete site p app hread (List.mem_of_mem_tail hlater)
    obtain ⟨site', p', hread', hrow⟩ := mem_siteRows.1 (hrows.mem_iff.1 hmem)
    obtain ⟨first, hfirst, rfl⟩ := Option.map_eq_some_iff.1 hrow
    rw [application_eq_head?] at hfirst
    exact ⟨site', p', first, hread', hfirst, hsite, happ, hid, hroles⟩
  · intro hfirsts site p app hread happ
    obtain ⟨site', p', first, hread', hfirst, hsite, hid, hperm, hroles⟩ :
        ∃ site' p' first, ReadOf reads site' p' ∧ p'.applications.head? = some first ∧
          site'.id = site.id ∧ first.id = app.id ∧ p'.id = p.id ∧ p'.roles = p.roles := by
      cases happs : p.applications with
      | nil => exact absurd happ (by simp [happs])
      | cons first later =>
        rw [happs] at happ
        rcases List.mem_cons.1 happ with rfl | happ
        · exact ⟨site, p, app, hread, by rw [happs]; rfl, rfl, rfl, rfl, rfl⟩
        · exact hfirsts site p app hread (by rw [happs]; exact happ)
    refine ⟨⟨site'.id, site'.displayName, site'.webUrl, p'.id, p'.roles, first.id, first.displayName⟩,
      hrows.mem_iff.2 (mem_siteRows.2 ⟨site', p', hread', ?_⟩), hsite, hid, hperm, hroles⟩
    rw [rowOf, application_eq_head?, hfirst]
    rfl

/-- A sweep that returns without a Cancel accounts for every enumerated site, and its rows name every
    application exactly if none is named only behind another; what is stored has read every site. -/
theorem site_sweep_covers_its_sites {h : SweepState} (hstart : h.history = []) :
    (∀ h' result, Exec siteSweep.world h sweepSitePermissions h' (.ok result) →
      result.cancelled = false → ∃ sites, Enumerated h' sites ∧ result.totalSites = sites.length ∧
        result.sitesScanned + result.sitesFailed = result.totalSites ∧
        result.sitesScanned = (siteReads h').countP (fun p => isRead p.2) ∧
        (∀ pair ∈ siteReads h', WasRead h'.joined pair) ∧
        (∃ lost, ((siteReads h').map Prod.fst ++ lost).Perm sites) ∧
        (RowsComplete (siteReads h') result.rows ↔ LaterNamedAlsoFirst (siteReads h'))) ∧
    (∀ h' result, Asks siteSweep.world h sweepSitePermissions h' (.other (.store result)) →
      ∃ sites, Enumerated h' sites ∧ (∀ pair ∈ siteReads h', WasRead h'.joined pair) ∧
        (((siteReads h').filter (fun p => isRead p.2)).map Prod.fst).Perm sites) := by
  have hmeets := meets_sweepSitePermissions (h := h) (by simp [FanState.spawned, hstart])
    (by simp [FanState.joined, hstart])
  refine ⟨fun h' result hexec hcancelled => ?_, fun h' result hasks => ?_⟩
  · obtain ⟨sites, he, hcovers⟩ := hmeets.sound hexec result rfl
    obtain ⟨hsum, lost, hperm, -⟩ := hcovers.whole hcancelled
    exact ⟨sites, he, hcovers.total, hsum, hcovers.scanned, hcovers.read, ⟨lost, hperm⟩,
      rowsComplete_iff hcovers.rows⟩
  · obtain ⟨sites, he, hcovers, hread⟩ := hmeets.asked hasks result rfl
    exact ⟨sites, he, hcovers.read, hread⟩

/-! ## A tenant with one site -/

def someSite : Site := ⟨['s'], none, none⟩

def grantTo (app : Char) : SiteIdentitySet := ⟨some ⟨some [app], none⟩⟩

/-- The tenant answers, and nobody cancels; the one site has the permissions. -/
def oneSite (perms : List SitePermission) (flags : Flags) :
    (c : FanCall (List Site) SiteCall) → Option (FanAnswer (List Site) ChunkResult SiteAnswer c)
  | .limit => some (1 : Nat)
  | .isCancelled => some flags.cancelled
  | .isDead => some flags.dead
  | .noteCode _ => none
  | .spawn _ => some ()
  | .next inFlight =>
    if inFlight = [[someSite]] then some (0, some ([someSite], [.ok perms])) else none
  | .other .sharepointClientChecked => some (.ok ())
  | .other (.listAllSites _) => some (.ok ([someSite], false))
  | .other (.emit _) => some ()
  | .other (.store _) => some ()

theorem oneSite_honest {perms : List SitePermission} (flags : Flags) (c : FanCall (List Site) SiteCall)
    (r : FanAnswer (List Site) ChunkResult SiteAnswer c) (hr : oneSite perms flags c = some r) :
    siteSweep.Honest flags flags ⟨c, r⟩ := by
  cases c with
  | isCancelled =>
    cases hr
    cases hflag : flags.cancelled <;> simp [Sweep.Honest, hflag]
  | isDead =>
    cases hr
    cases hflag : flags.dead <;> simp [Sweep.Honest, hflag]
  | noteCode code => exact absurd hr (by simp [oneSite])
  | next inFlight =>
    have hr' : (if inFlight = [[someSite]] then some (0, some ([someSite], [.ok perms])) else none) =
      some r := hr
    split at hr'
    · next heq =>
      cases hr'
      refine ⟨[someSite], by rw [heq]; rfl, ?_⟩
      intro res hres
      cases hres
      have hone : honestChunk ⟨.batchListSitePermissions ([someSite].map (·.id)), .ok [.ok perms]⟩ := rfl
      refine ⟨rfl, [⟨.batchListSitePermissions [someSite.id], .ok [.ok perms]⟩],
        .ask ⟨hone, rfl⟩ (.done _ _), ?_, ?_, ?_⟩
      · intro hsaw
        exact absurd hsaw (by simp [SawCancel])
      · intro hsaw
        exact absurd hsaw (by simp [SawDead])
      · intro code hmem
        exact absurd hmem (by simp)
    · exact absurd hr' (by simp)
  | limit | spawn item | other c => trivial

/-- What is looked at in a run. -/
def sweepView (out : Except SweepError SiteSweepResult × SweepState) :
    Option (Bool × List (Site × SiteRead)) :=
  match out.1 with
  | .ok result => some (result.cancelled, siteReads out.2)
  | .error _ => none

theorem exec_of_oneSite (perms : List SitePermission) : ∃ h' result,
    Exec siteSweep.world ⟨⟨false, false⟩, []⟩ sweepSitePermissions h' (.ok result) ∧
      result.cancelled = false ∧ siteReads h' = [(someSite, .ok perms)] := by
  have hrun : (run (FanState.serve (oneSite perms)) sweepSitePermissions ⟨⟨false, false⟩, []⟩).map
      sweepView = some (some (false, [(someSite, .ok perms)])) := rfl
  obtain ⟨r, h', hexec, hview⟩ := exists_exec_of_run (siteSweep.world_of_serve oneSite_honest) hrun
  cases r with
  | error err => exact absurd hview (by simp [sweepView])
  | ok result =>
    obtain ⟨hcancelled, hreads⟩ : result.cancelled = false ∧ siteReads h' = [(someSite, .ok perms)] := by
      simpa [sweepView] using hview
    exact ⟨h', result, hexec, hcancelled, hreads⟩

def sharedGrant : SitePermission := ⟨['p'], [['r']], [grantTo 'a', grantTo 'b']⟩

/-- One site with one permission that names two applications: the sweep returns and was not cancelled,
    and no row names the second. -/
theorem second_application_has_no_row : ∃ h' result,
    Exec siteSweep.world ⟨⟨false, false⟩, []⟩ sweepSitePermissions h' (.ok result) ∧
      result.cancelled = false ∧ siteReads h' = [(someSite, .ok [sharedGrant])] ∧
      ¬ RowsComplete (siteReads h') result.rows := by
  obtain ⟨h', result, hexec, hcancelled, hreads⟩ := exec_of_oneSite [sharedGrant]
  refine ⟨h', result, hexec, hcancelled, hreads, fun hcomplete => ?_⟩
  obtain ⟨sites, -, hcovers⟩ := (meets_sweepSitePermissions rfl rfl).sound hexec result rfl
  have hfirsts := (rowsComplete_iff hcovers.rows).1 hcomplete
  rw [hreads] at hfirsts
  obtain ⟨site', p', first, ⟨perms, hmem, hp⟩, hfirst, -, hid, -⟩ := hfirsts someSite sharedGrant
    ⟨some ['b'], none⟩ ⟨[sharedGrant], List.mem_cons_self, List.mem_cons_self⟩ List.mem_cons_self
  obtain ⟨rfl, rfl⟩ : site' = someSite ∧ perms = [sharedGrant] := by simpa using hmem
  obtain rfl : p' = sharedGrant := by simpa using hp
  cases hfirst
  exact absurd hid (by decide)

/-- A permission that names one application: its row is there. -/
theorem lone_application_has_its_row : ∃ h' result,
    Exec siteSweep.world ⟨⟨false, false⟩, []⟩ sweepSitePermissions h' (.ok result) ∧
      result.sitesScanned + result.sitesFailed = result.totalSites ∧
      RowsComplete [(someSite, .ok [⟨['p'], [['r']], [grantTo 'a']⟩])] result.rows := by
  obtain ⟨h', result, hexec, hcancelled, hreads⟩ := exec_of_oneSite [⟨['p'], [['r']], [grantTo 'a']⟩]
  obtain ⟨sites, -, -, hsum, -, -, -, hrows⟩ := (site_sweep_covers_its_sites rfl).1 h' result hexec hcancelled
  rw [hreads] at hrows
  refine ⟨h', result, hexec, hsum, hrows.2 ?_⟩
  intro site p app hread hlater
  obtain ⟨perms, hmem, hp⟩ := hread
  obtain ⟨rfl, rfl⟩ : site = someSite ∧ perms = [⟨['p'], [['r']], [grantTo 'a']⟩] := by simpa using hmem
  obtain rfl : p = ⟨['p'], [['r']], [grantTo 'a']⟩ := by simpa using hp
  exact absurd hlater (by simp [SitePermission.applications, grantTo])

end Sweeps
