import AzAppToolkit.Lib.History
import AzAppToolkit.Sweeps.Workspaces

set_option autoImplicit false

/-! # What is known of a missing workspace

That there is no workspace with the table is cached whenever the probes came to their end with none that
answered. It is known only where every listing could be had, every workspace has an id to be queried by, and
each probe was refused as one of a missing table or of a missing right is. -/

namespace Sweeps

open Prog Graph

variable {N : Type}

/-! ## The tenant -/

/-- What the signed-in user can reach. -/
structure WorkspaceTenant where
  subscriptions : List Text
  workspacesOf : Text → List LogAnalyticsWorkspace

/-- Every workspace of every subscription. -/
def WorkspaceTenant.workspaces (t : WorkspaceTenant) : List LogAnalyticsWorkspace :=
  t.subscriptions.flatMap t.workspacesOf

/-- A listing that does not fail answers what is there; all else may be answered anything. -/
def WorkspaceTenant.answers (t : WorkspaceTenant) : Exchanged (UsageAnswer N) → Prop
  | ⟨.listSubscriptions, .ok subs⟩ => subs = t.subscriptions
  | ⟨.nextWorkspaces pending, (i, r)⟩ => ∃ sub, (pending.take armConcurrency)[i]? = some sub ∧
      ∀ workspaces, r = .ok workspaces → workspaces = t.workspacesOf sub
  | _ => True

/-! ## Traces -/

abbrev UsageTrace (N : Type) := List (Exchanged (UsageAnswer N))

abbrev WorkspaceListing := Text × Except ArmError (List LogAnalyticsWorkspace)

abbrev WorkspaceProbe (N : Type) := Text × Except ArmError (LogsQueryTable N)

def workspaceListingOf : Exchanged (UsageAnswer N) → Option WorkspaceListing
  | ⟨.nextWorkspaces pending, (i, r)⟩ => pending[i]?.map (fun sub => (sub, r))
  | _ => none

def probeOf : Exchanged (UsageAnswer N) → Option (WorkspaceProbe N)
  | ⟨.query customerId _ _, r⟩ => some (customerId, r)
  | _ => none

def putOf : Exchanged (UsageAnswer N) → Option WorkspaceLookup
  | ⟨.putCached _ lookup, _⟩ => some lookup
  | _ => none

/-- The subscriptions that were listed, with the answers. -/
def workspaceListings (h : UsageTrace N) : List WorkspaceListing := h.filterMap workspaceListingOf

/-- The probes that were sent, with the answers. -/
def probes (h : UsageTrace N) : List (WorkspaceProbe N) := h.filterMap probeOf

/-- What was put into the cache. -/
def puts (h : UsageTrace N) : List WorkspaceLookup := h.filterMap putOf

/-- The workspaces of the listings that did not fail. -/
def reached (h : UsageTrace N) : List LogAnalyticsWorkspace :=
  (workspaceListings h).flatMap fun listed => listedWorkspaces listed.2

def isWorkspaceListing : UsageCall → Prop
  | .nextWorkspaces _ => True
  | _ => False

def isProbe : UsageCall → Prop
  | .query _ _ _ => True
  | _ => False

/-- An answer behind which there is nothing left to be looked for: a cached lookup, a token or a listing of
    the subscriptions that could not be had, the table itself. -/
def isEnding : Exchanged (UsageAnswer N) → Prop
  | ⟨.getCached _, some _⟩ => True
  | ⟨.ensureArmToken, .error _⟩ => True
  | ⟨.listSubscriptions, .error _⟩ => True
  | ⟨.query _ _ _, .ok _⟩ => True
  | _ => False

theorem grew_filterMap {β : Type} {kind : UsageCall → Prop} {h h' : UsageTrace N} (hgrew : Grew kind h h')
    {f : Exchanged (UsageAnswer N) → Option β} (hf : ∀ e, kind e.1 → f e = none) :
    h'.filterMap f = h.filterMap f := by
  obtain ⟨t, rfl, ht⟩ := hgrew
  rw [List.filterMap_append, List.filterMap_eq_nil_iff.2 fun e he => hf e (ht e he), List.append_nil]

variable {e : Exchanged (UsageAnswer N)}

theorem listing_exchange (he : isWorkspaceListing e.1) :
    probeOf e = none ∧ putOf e = none ∧ ¬ isEnding e := by
  obtain ⟨c, r⟩ := e
  cases c with
  | nextWorkspaces pending => exact ⟨rfl, rfl, id⟩
  | _ => exact he.elim

theorem probe_exchange (he : isProbe e.1) : workspaceListingOf e = none ∧ putOf e = none := by
  obtain ⟨c, r⟩ := e
  cases c with
  | query customerId kql timespan => exact ⟨rfl, rfl⟩
  | _ => exact he.elim

theorem put_exchange (h : UsageTrace N) (key : Text) (lookup : WorkspaceLookup) (r : Unit) :
    workspaceListings (h ++ [(⟨.putCached key lookup, r⟩ : Exchanged (UsageAnswer N))]) = workspaceListings h ∧
      probes (h ++ [(⟨.putCached key lookup, r⟩ : Exchanged (UsageAnswer N))]) = probes h ∧
      puts (h ++ [(⟨.putCached key lookup, r⟩ : Exchanged (UsageAnswer N))]) = puts h ++ [lookup] :=
  ⟨List.filterMap_append.trans (List.append_nil _), List.filterMap_append.trans (List.append_nil _),
    List.filterMap_append⟩

/-! ## Listings -/

variable {t : WorkspaceTenant}

/-- What the listings have brought. -/
structure ListsWorkspaces (t : WorkspaceTenant) (subs : List Text) (seen : List WorkspaceListing) : Prop where
  subs : (seen.map Prod.fst).Perm subs
  honest : ∀ listed ∈ seen, ∀ workspaces, listed.2 = .ok workspaces → workspaces = t.workspacesOf listed.1

variable {ok : UsageTrace N → UsageCall → Prop} {h : UsageTrace N}

theorem meets_listWorkspaces (hok : ∀ h c, ok h c)
    {subs seen : List Text} (n : Nat) {pending : List Text} {found : List LogAnalyticsWorkspace}
    (hn : pending.length = n) (hsubs : (seen ++ pending).Perm subs)
    (hseen : ListsWorkspaces t seen (workspaceListings h)) (hfound : found = reached h) :
    Meets (trusted t.answers) ok (fun h' found' => Grew isWorkspaceListing h h' ∧
      ListsWorkspaces t subs (workspaceListings h') ∧ found' = reached h') h
      (listWorkspaces n pending found) := by
  induction n generalizing pending seen found h with
  | zero =>
    rw [List.length_eq_zero_iff.1 hn, List.append_nil] at hsubs
    exact ⟨Grew.refl _ h, { hseen with subs := hseen.subs.trans hsubs }, hfound⟩
  | succ n ih =>
    refine ⟨hok _ _, fun listed h' hw => ?_⟩
    obtain ⟨i, r⟩ := listed
    obtain ⟨⟨sub, hsub, hworkspaces⟩, rfl⟩ : (∃ sub, (pending.take armConcurrency)[i]? = some sub ∧
      ∀ workspaces, r = .ok workspaces → workspaces = t.workspacesOf sub) ∧ _ := hw
    have hget : pending[i]? = some sub := by
      obtain ⟨hlt, hget⟩ := List.getElem?_eq_some_iff.1 hsub
      rw [List.getElem_take] at hget
      rw [List.length_take] at hlt
      exact List.getElem?_eq_some_iff.2 ⟨by omega, hget⟩
    obtain ⟨hi, hget'⟩ := List.getElem?_eq_some_iff.1 hget
    have hlistings : workspaceListings (h ++ [(⟨.nextWorkspaces pending, (i, r)⟩ :
        Exchanged (UsageAnswer N))]) = workspaceListings h ++ [(sub, r)] := by
      unfold workspaceListings
      rw [List.filterMap_append]
      simp [workspaceListingOf, hget]
    have hsubs' : ((seen ++ [sub]) ++ pending.eraseIdx i).Perm subs := by
      refine .trans ?_ hsubs
      rw [List.append_assoc]
      refine List.Perm.append_left _ ?_
      have hperm := List.getElem_cons_eraseIdx_perm hi
      rwa [hget'] at hperm
    refine (ih (by rw [List.length_eraseIdx_of_lt hi]; omega) hsubs' ⟨?_, ?_⟩ ?_).mono
      fun h' found' hpost => ⟨((Grew.refl _ h).snoc trivial).trans hpost.1, hpost.2⟩
    · rw [hlistings, List.map_append]
      exact hseen.subs.append_right _
    · intro listed hmem
      rw [hlistings] at hmem
      rcases List.mem_append.1 hmem with hmem | hmem
      · exact hseen.honest listed hmem
      · rw [List.mem_singleton.1 hmem]
        exact hworkspaces
    · unfold reached
      rw [hlistings, List.flatMap_append, hfound]
      simp [reached]

/-! ## Probes -/

/-- As many workspaces that can be queried as there may be probes stand before another workspace. -/
def CapReached (probed : Nat) (workspaces : List LogAnalyticsWorkspace) : Prop :=
  ∃ front ws back, workspaces = front ++ ws :: back ∧
    maxWorkspacesProbed ≤ probed + (front.filterMap LogAnalyticsWorkspace.customerId).length

/-- What the probes of some workspaces come to, behind `probed` others. -/
structure ProbeRun (probed : Nat) (workspaces : List LogAnalyticsWorkspace) (asked : List (WorkspaceProbe N))
    (found : WorkspaceLookup) (hitCap : Bool) : Prop where
  within : asked.length + probed ≤ max maxWorkspacesProbed probed
  known : ∀ probe ∈ asked, ∃ ws ∈ workspaces, ws.customerId = some probe.1
  hit : ∀ customerId name, found = some (customerId, name) → (∃ table, (customerId, .ok table) ∈ asked) ∧
    ∃ ws ∈ workspaces, ws.customerId = some customerId ∧ name = ws.name.getD customerId
  missed : found = none → ∀ probe ∈ asked, ∃ err, probe.2 = .error err
  capped : hitCap = true → CapReached probed workspaces
  all : found = none → hitCap = false →
    asked.map Prod.fst = workspaces.filterMap LogAnalyticsWorkspace.customerId ∧ ¬ CapReached probed workspaces

section ProbeRun

variable {probed : Nat} {ws : LogAnalyticsWorkspace} {rest : List LogAnalyticsWorkspace}
  {asked : List (WorkspaceProbe N)} {found : WorkspaceLookup} {hitCap : Bool} {customerId : Text}

theorem queryable_cons : ((ws :: rest).filterMap LogAnalyticsWorkspace.customerId) =
    ws.customerId.toList ++ rest.filterMap LogAnalyticsWorkspace.customerId := by
  cases hid : ws.customerId with
  | none => exact List.filterMap_cons_none hid
  | some customerId => exact List.filterMap_cons_some hid

theorem capReached_cons (hlt : probed < maxWorkspacesProbed) :
    CapReached probed (ws :: rest) ↔ CapReached (probed + ws.customerId.toList.length) rest := by
  constructor
  · rintro ⟨front, last, back, heq, hcap⟩
    cases front with
    | nil => exact absurd hcap (Nat.not_le.2 hlt)
    | cons first front =>
      obtain ⟨rfl, rfl⟩ := List.cons.inj heq
      rw [queryable_cons, List.length_append] at hcap
      exact ⟨front, last, back, rfl, by omega⟩
  · rintro ⟨front, last, back, rfl, hcap⟩
    refine ⟨ws :: front, last, back, rfl, ?_⟩
    rw [queryable_cons, List.length_append]
    omega

theorem ProbeRun.nil : ProbeRun (N := N) probed [] [] none false where
  within := by
    rw [List.length_nil, Nat.zero_add]
    exact le_max_right _ _
  known := nofun
  hit := nofun
  missed := fun _ => nofun
  capped := nofun
  all := by
    refine fun _ _ => ⟨rfl, ?_⟩
    rintro ⟨front, ws, back, heq, -⟩
    exact absurd heq.symm (by simp)

/-- The cap is reached before this workspace. -/
theorem ProbeRun.cap (h : maxWorkspacesProbed ≤ probed) :
    ProbeRun (N := N) probed (ws :: rest) [] none true where
  within := by
    rw [List.length_nil, Nat.zero_add]
    exact le_max_right _ _
  known := nofun
  hit := nofun
  missed := fun _ => nofun
  capped := fun _ => ⟨[], ws, rest, rfl, h⟩
  all := fun _ => nofun

/-- A workspace that cannot be queried is passed over. -/
theorem ProbeRun.skip (hlt : probed < maxWorkspacesProbed) (hid : ws.customerId = none)
    (h : ProbeRun probed rest asked found hitCap) : ProbeRun probed (ws :: rest) asked found hitCap := by
  have hcap : CapReached probed (ws :: rest) ↔ CapReached probed rest := by
    rw [capReached_cons hlt, hid]
    rfl
  refine ⟨h.within, ?_, ?_, h.missed, fun hhit => hcap.2 (h.capped hhit), ?_⟩
  · intro probe hprobe
    obtain ⟨other, hother, hid'⟩ := h.known probe hprobe
    exact ⟨other, List.mem_cons_of_mem _ hother, hid'⟩
  · intro customerId name hfound
    obtain ⟨htable, other, hother, hid', hname⟩ := h.hit customerId name hfound
    exact ⟨htable, other, List.mem_cons_of_mem _ hother, hid', hname⟩
  · rw [hcap, List.filterMap_cons_none hid]
    exact h.all

/-- The workspace has the table. -/
theorem ProbeRun.hitOf (hlt : probed < maxWorkspacesProbed) (hid : ws.customerId = some customerId)
    (table : LogsQueryTable N) :
    ProbeRun probed (ws :: rest) [(customerId, .ok table)] (some (customerId, ws.name.getD customerId))
      false where
  within := by
    rw [List.length_singleton]
    omega
  known := by
    intro probe hprobe
    rw [List.mem_singleton.1 hprobe]
    exact ⟨ws, List.mem_cons_self, hid⟩
  hit := by
    intro customerId' name hfound
    obtain ⟨rfl, rfl⟩ := Prod.mk.inj (Option.some.inj hfound)
    exact ⟨⟨table, List.mem_singleton_self _⟩, ws, List.mem_cons_self, hid, rfl⟩
  missed := nofun
  capped := nofun
  all := nofun

/-- The probe of the workspace fails, and the next is tried. -/
theorem ProbeRun.miss (hlt : probed < maxWorkspacesProbed) (hid : ws.customerId = some customerId)
    (err : ArmError) (h : ProbeRun (probed + 1) rest asked found hitCap) :
    ProbeRun probed (ws :: rest) ((customerId, .error err) :: asked) found hitCap := by
  have hcap : CapReached probed (ws :: rest) ↔ CapReached (probed + 1) rest := by
    rw [capReached_cons hlt, hid]
    rfl
  refine ⟨?_, ?_, ?_, ?_, fun hhit => hcap.2 (h.capped hhit), ?_⟩
  · have hwithin := h.within
    rw [List.length_cons]
    omega
  · intro probe hprobe
    rcases List.mem_cons.1 hprobe with rfl | hprobe
    · exact ⟨ws, List.mem_cons_self, hid⟩
    · obtain ⟨other, hother, hid'⟩ := h.known probe hprobe
      exact ⟨other, List.mem_cons_of_mem _ hother, hid'⟩
  · intro customerId' name hfound
    obtain ⟨⟨table, htable⟩, other, hother, hid', hname⟩ := h.hit customerId' name hfound
    exact ⟨⟨table, List.mem_cons_of_mem _ htable⟩, other, List.mem_cons_of_mem _ hother, hid', hname⟩
  · intro hfound probe hprobe
    rcases List.mem_cons.1 hprobe with rfl | hprobe
    · exact ⟨err, rfl⟩
    · exact h.missed hfound probe hprobe
  · intro hfound hhit
    obtain ⟨hall, hnot⟩ := h.all hfound hhit
    rw [hcap, List.filterMap_cons_some hid, List.map_cons, hall]
    exact ⟨rfl, hnot⟩

end ProbeRun

theorem meets_probeWorkspaces (hok : ∀ h c, ok h c)
    (workspaces : List LogAnalyticsWorkspace) (probed : Nat) (h : UsageTrace N) :
    Meets (trusted t.answers) ok (fun h' r => Grew isProbe h h' ∧ ∃ asked, probes h' = probes h ++ asked ∧
      ProbeRun probed workspaces asked r.1 r.2) h (probeWorkspaces probed workspaces) := by
  induction workspaces generalizing probed h with
  | nil => exact ⟨Grew.refl _ h, [], (List.append_nil _).symm, .nil⟩
  | cons ws rest ih =>
    unfold probeWorkspaces
    split
    · next hcap => exact ⟨Grew.refl _ h, [], (List.append_nil _).symm, .cap hcap⟩
    · next hcap =>
      have hlt := Nat.lt_of_not_le hcap
      cases hid : ws.customerId with
      | none =>
        refine (ih probed h).mono fun h' r hpost => ?_
        obtain ⟨hgrew, asked, hasked, hrun⟩ := hpost
        exact ⟨hgrew, asked, hasked, hrun.skip hlt hid⟩
      | some customerId =>
        refine ⟨hok _ _, fun r h' hw => ?_⟩
        obtain rfl : h' = _ := hw.2
        have hprobe : probes (h ++ [(⟨.query customerId probeKql probeTimespan, r⟩ :
            Exchanged (UsageAnswer N))]) = probes h ++ [(customerId, r)] :=
          List.filterMap_append
        have hgrew : Grew isProbe h (h ++ [(⟨.query customerId probeKql probeTimespan, r⟩ :
            Exchanged (UsageAnswer N))]) := (Grew.refl _ h).snoc trivial
        cases r with
        | ok table => exact ⟨hgrew, [(customerId, .ok table)], hprobe, .hitOf hlt hid table⟩
        | error err =>
          refine (ih (probed + 1) _).mono fun h' r hpost => ?_
          obtain ⟨hgrew', asked, hasked, hrun⟩ := hpost
          refine ⟨hgrew.trans hgrew', (customerId, .error err) :: asked, ?_, hrun.miss hlt hid err⟩
          rw [hasked, hprobe, List.append_assoc]
          rfl

/-! ## The discovery -/

/-- How a search of the subscriptions has ended. -/
structure Searched (t : WorkspaceTenant) (h : UsageTrace N) (found : WorkspaceLookup) (hitCap : Bool) :
    Prop where
  listed : ListsWorkspaces t t.subscriptions (workspaceListings h)
  run : ProbeRun 0 (reached h) (probes h) found hitCap
  puts : puts h = if hitCap then [] else [found]
  ending : ∀ e ∈ h, isEnding e → isProbe e.1

/-- How a discovery has ended. -/
inductive Discovered (t : WorkspaceTenant) (h : UsageTrace N) : Prop
  | early (hending : ∃ e ∈ h, isEnding e) (hputs : puts h = []) (hprobes : probes h = [])
  | searched {found : WorkspaceLookup} {hitCap : Bool} (hsearch : Searched t h found hitCap)

/-- No listing, no probe and no put so far, and no answer that ends the search. -/
structure Unsearched (h : UsageTrace N) : Prop where
  listings : workspaceListings h = []
  probes : probes h = []
  puts : puts h = []
  ending : ∀ e ∈ h, ¬ isEnding e

theorem Unsearched.snoc (hun : Unsearched h)
    (hlist : workspaceListingOf e = none) (hprobe : probeOf e = none) (hput : putOf e = none)
    (hend : ¬ isEnding e) : Unsearched (h ++ [e]) where
  listings := by
    unfold workspaceListings
    rw [List.filterMap_append, List.filterMap_cons_none hlist]
    exact List.append_eq_nil_iff.2 ⟨hun.listings, rfl⟩
  probes := by
    unfold Sweeps.probes
    rw [List.filterMap_append, List.filterMap_cons_none hprobe]
    exact List.append_eq_nil_iff.2 ⟨hun.probes, rfl⟩
  puts := by
    unfold Sweeps.puts
    rw [List.filterMap_append, List.filterMap_cons_none hput]
    exact List.append_eq_nil_iff.2 ⟨hun.puts, rfl⟩
  ending := by
    intro e' he'
    rcases List.mem_append.1 he' with he' | he'
    · exact hun.ending e' he'
    · rw [List.mem_singleton.1 he']
      exact hend

theorem meets_searchSubscriptions (hok : ∀ h c, ok h c) (cacheKey : Text) (hun : Unsearched h) :
    Meets (trusted t.answers) ok (fun h' _ => Discovered t h') h
      (searchSubscriptions cacheKey t.subscriptions) := by
  have hstart : ListsWorkspaces t [] (workspaceListings h) := by
    rw [hun.listings]
    exact ⟨List.Perm.refl _, nofun⟩
  have hreached : [] = reached h := by
    unfold reached
    rw [hun.listings]
    rfl
  refine Meets.bind ((meets_listWorkspaces hok _ rfl (List.Perm.refl _) hstart hreached).mono
    fun h₁ workspaces hlist => ?_)
  obtain ⟨hgrew₁, hlisted, rfl⟩ := hlist
  have hprobes₁ : probes h₁ = [] :=
    (grew_filterMap hgrew₁ fun e he => (listing_exchange he).1).trans hun.probes
  have hputs₁ : puts h₁ = [] := (grew_filterMap hgrew₁ fun e he => (listing_exchange he).2.1).trans hun.puts
  refine Meets.bind ((meets_probeWorkspaces hok _ 0 h₁).mono fun h₂ r hprobe => ?_)
  obtain ⟨found, hitCap⟩ := r
  obtain ⟨hgrew₂, asked, hasked, hrun⟩ := hprobe
  rw [hprobes₁, List.nil_append] at hasked
  have hlistings₂ : workspaceListings h₂ = workspaceListings h₁ :=
    grew_filterMap hgrew₂ fun e he => (probe_exchange he).1
  have hreached₂ : reached h₂ = reached h₁ :=
    congrArg (fun seen => seen.flatMap fun listed => listedWorkspaces listed.2) hlistings₂
  have hputs₂ : puts h₂ = [] := (grew_filterMap hgrew₂ fun e he => (probe_exchange he).2).trans hputs₁
  have hending₂ : ∀ e ∈ h₂, isEnding e → isProbe e.1 := by
    intro e he hend
    by_contra hkind
    have he₁ := (hgrew₂.mem_iff hkind).1 he
    by_cases hlisting : isWorkspaceListing e.1
    · exact (listing_exchange hlisting).2.2 hend
    · exact hun.ending e ((hgrew₁.mem_iff hlisting).1 he₁) hend
  rw [← hlistings₂] at hlisted
  rw [← hreached₂, ← hasked] at hrun
  cases hitCap with
  | true => exact .searched ⟨hlisted, hrun, hputs₂, hending₂⟩
  | false =>
    refine Meets.bind (Meets.trust (hok _ _) fun r _ => ?_)
    have hput := put_exchange h₂ cacheKey found r
    refine Discovered.searched (⟨hput.1 ▸ hlisted, ?_, ?_, ?_⟩ : Searched t _ found false)
    · unfold reached at hrun ⊢
      rw [hput.1, hput.2.1]
      exact hrun
    · rw [hput.2.2, hputs₂]
      rfl
    · intro e he hend
      rcases List.mem_append.1 he with he | he
      · exact hending₂ e he hend
      · rw [List.mem_singleton.1 he] at hend
        exact hend.elim

theorem meets_discoverWorkspace (hok : ∀ h c, ok h c) (tenantId : Text) :
    Meets (trusted t.answers) ok (fun h' _ => Discovered t h') [] (discoverWorkspace tenantId) := by
  refine Meets.bind (Meets.trust (hok _ _) fun cached _ => ?_)
  cases cached with
  | some hit => exact .early ⟨_, List.mem_singleton_self _, trivial⟩ rfl rfl
  | none =>
    have hun₁ : Unsearched [(⟨.getCached (workspaceCacheKey tenantId), none⟩ : Exchanged (UsageAnswer N))] :=
      ⟨rfl, rfl, rfl, fun e he => by rw [List.mem_singleton.1 he]; exact id⟩
    refine Meets.bind (Meets.trust (hok _ _) fun token _ => ?_)
    cases token with
    | error err => exact .early ⟨_, List.mem_append_right _ (List.mem_singleton_self _), trivial⟩ rfl rfl
    | ok granted =>
      have hun₂ := hun₁.snoc (e := ⟨.ensureArmToken, .ok granted⟩) rfl rfl rfl id
      refine Meets.bind (Meets.trust (hok _ _) fun subs hsubs => ?_)
      cases subs with
      | error err => exact .early ⟨_, List.mem_append_right _ (List.mem_singleton_self _), trivial⟩ rfl rfl
      | ok subs =>
        obtain rfl : subs = t.subscriptions := hsubs
        have hun₃ := hun₂.snoc (e := ⟨.listSubscriptions, .ok t.subscriptions⟩) rfl rfl rfl id
        exact meets_searchSubscriptions hok _ hun₃

/-! ## What is cached -/

/-- The answer of a workspace that lacks the table, or that may not be read. -/
def Refused (r : Except ArmError (LogsQueryTable N)) : Prop :=
  (∃ body, r = .error (.api 400 body)) ∨ ∃ body, r = .error (.forbidden body)

/-- What is cached is known: that there is no workspace, where each one was probed and refused; a workspace,
    where its probe brought the table. -/
structure CachesKnown (t : WorkspaceTenant) (h : UsageTrace N) : Prop where
  absent : none ∈ puts h → ∀ ws ∈ t.workspaces, ∃ customerId, ws.customerId = some customerId ∧
    (∃ r, (customerId, r) ∈ probes h) ∧ ∀ r, (customerId, r) ∈ probes h → Refused r
  present : ∀ customerId name, some (customerId, name) ∈ puts h →
    (∃ table, (customerId, .ok table) ∈ probes h) ∧
      ∃ ws ∈ t.workspaces, ws.customerId = some customerId ∧ name = ws.name.getD customerId
  bounded : (probes h).length ≤ maxWorkspacesProbed

/-- The answers settle that there is no workspace, unless they end the search or the cap cuts it short: each
    workspace has an id, which a listing that did not fail has brought, and every probe was refused. -/
def NoneSettled (t : WorkspaceTenant) (h : UsageTrace N) : Prop :=
  (∃ e ∈ h, isEnding e) ∨ CapReached 0 (reached h) ∨
    (∀ ws ∈ t.workspaces, ∃ customerId, ws.customerId = some customerId ∧
      ∃ listed ∈ reached h, listed.customerId = some customerId) ∧
    ∀ probe ∈ probes h, Refused probe.2

theorem reached_subset (hlisted : ListsWorkspaces t t.subscriptions (workspaceListings h))
    {ws : LogAnalyticsWorkspace} (hws : ws ∈ reached h) : ws ∈ t.workspaces := by
  obtain ⟨listed, hmem, hws⟩ := List.mem_flatMap.1 hws
  have hsub : listed.1 ∈ t.subscriptions := hlisted.subs.mem_iff.1 (List.mem_map_of_mem hmem)
  refine List.mem_flatMap.2 ⟨listed.1, hsub, ?_⟩
  cases hr : listed.2 with
  | error err =>
    rw [hr] at hws
    exact absurd hws List.not_mem_nil
  | ok workspaces =>
    rw [hr] at hws
    exact hlisted.honest listed hmem workspaces hr ▸ hws

/-- A search that ends without the table and before the cap. -/
theorem Searched.settled_iff (hsearch : Searched t h none false) :
    (∀ ws ∈ t.workspaces, ∃ customerId, ws.customerId = some customerId ∧
      (∃ r, (customerId, r) ∈ probes h) ∧ ∀ r, (customerId, r) ∈ probes h → Refused r) ↔ NoneSettled t h := by
  obtain ⟨hall, hcap⟩ := hsearch.run.all rfl rfl
  have hprobed : ∀ customerId, (∃ r, (customerId, r) ∈ probes h) ↔
      ∃ listed ∈ reached h, listed.customerId = some customerId := by
    intro customerId
    rw [← List.mem_filterMap, ← hall]
    exact ⟨fun ⟨r, hr⟩ => List.mem_map_of_mem hr, fun h => by
      obtain ⟨probe, hprobe, rfl⟩ := List.mem_map.1 h
      exact ⟨probe.2, hprobe⟩⟩
  have hending : ¬ ∃ e ∈ h, isEnding e := by
    rintro ⟨⟨c, r⟩, he, hend⟩
    have hkind := hsearch.ending _ he hend
    cases c with
    | query customerId kql timespan =>
      obtain ⟨err, herr⟩ := hsearch.run.missed rfl _ (List.mem_filterMap.2 ⟨_, he, rfl⟩)
      have hr : r = .error err := herr
      rw [hr] at hend
      exact hend
    | _ => exact hkind
  unfold NoneSettled
  rw [or_iff_right hending, or_iff_right hcap]
  constructor
  · intro hknown
    refine ⟨fun ws hws => ?_, fun probe hprobe => ?_⟩
    · obtain ⟨customerId, hid, hprobe, -⟩ := hknown ws hws
      exact ⟨customerId, hid, (hprobed customerId).1 hprobe⟩
    · obtain ⟨ws, hws, hid⟩ := hsearch.run.known probe hprobe
      obtain ⟨customerId, hid', -, hrefused⟩ := hknown ws (reached_subset hsearch.listed hws)
      obtain rfl : probe.1 = customerId := Option.some.inj (hid.symm.trans hid')
      exact hrefused probe.2 hprobe
  · rintro ⟨hlisted, hrefused⟩ ws hws
    obtain ⟨customerId, hid, hreached⟩ := hlisted ws hws
    exact ⟨customerId, hid, (hprobed customerId).2 hreached, fun r hr => hrefused _ hr⟩

theorem isEnding_of_table {customerId : Text} {table : LogsQueryTable N}
    (hprobe : probeOf e = some (customerId, .ok table)) : isEnding e := by
  obtain ⟨c, r⟩ := e
  cases c with
  | query id kql timespan =>
    obtain ⟨-, hr⟩ := Prod.mk.inj (Option.some.inj hprobe)
    have hr' : r = .ok table := hr
    rw [hr']
    exact trivial
  | _ => exact nomatch hprobe

/-- What a discovery caches is known if and only if its answers settle that there is no workspace, end the
    search or reach the cap. -/
theorem caches_known_iff (t : WorkspaceTenant) (tenantId : Text) {h : UsageTrace N}
    {r : Except UsageError WorkspaceLookup}
    (hrun : Exec (trusted t.answers) [] (discoverWorkspace tenantId) h r) :
    CachesKnown t h ↔ NoneSettled t h := by
  have hmeets : Meets (trusted t.answers) (fun (_ : UsageTrace N) _ => True) (fun h' _ => Discovered t h') []
      (discoverWorkspace tenantId) := meets_discoverWorkspace (fun _ _ => trivial) tenantId
  have hdiscovered : Discovered t h := hmeets.sound hrun
  cases hdiscovered with
  | early hending hputs hprobes =>
    refine iff_of_true ⟨?_, ?_, ?_⟩ (.inl hending)
    · rw [hputs]
      exact nofun
    · rw [hputs]
      exact fun _ _ => nofun
    · rw [hprobes]
      exact Nat.zero_le _
  | @searched found hitCap hsearch =>
    have hbounded : (probes h).length ≤ maxWorkspacesProbed :=
      hsearch.run.within.trans (max_eq_left (Nat.zero_le _)).le
    cases hitCap with
    | true =>
      have hputs : puts h = [] := hsearch.puts
      refine iff_of_true ⟨?_, ?_, hbounded⟩ (.inr (.inl (hsearch.run.capped rfl)))
      · rw [hputs]
        exact nofun
      · rw [hputs]
        exact fun _ _ => nofun
    | false =>
      have hputs : puts h = [found] := hsearch.puts
      cases found with
      | none =>
        rw [← hsearch.settled_iff]
        refine ⟨fun hknown => hknown.absent (hputs ▸ List.mem_singleton_self _), fun hall => ?_⟩
        refine ⟨fun _ => hall, fun customerId name hput => ?_, hbounded⟩
        rw [hputs] at hput
        exact absurd (List.mem_singleton.1 hput) (by simp)
      | some hit =>
        obtain ⟨customerId, name⟩ := hit
        obtain ⟨⟨table, htable⟩, ws, hws, hid, hname⟩ := hsearch.run.hit customerId name rfl
        refine iff_of_true ⟨?_, ?_, hbounded⟩ (.inl ?_)
        · rw [hputs]
          exact fun hput => absurd (List.mem_singleton.1 hput) (by simp)
        · intro customerId' name' hput
          rw [hputs] at hput
          obtain ⟨rfl, rfl⟩ := Prod.mk.inj (Option.some.inj (List.mem_singleton.1 hput))
          exact ⟨⟨table, htable⟩, ws, reached_subset hsearch.listed hws, hid, hname⟩
        · obtain ⟨e, he, hprobe⟩ := List.mem_filterMap.1 htable
          exact ⟨e, he, isEnding_of_table hprobe⟩

/-! ## One workspace -/

def oneWorkspace : WorkspaceTenant where
  subscriptions := ["s".toList]
  workspacesOf := fun _ => [⟨none, some "w".toList⟩]

/-- The discovery of a tenant of one workspace, whose probe fails. -/
def oneWorkspaceTrace (err : ArmError) : UsageTrace Unit :=
  [⟨.getCached (workspaceCacheKey "t".toList), none⟩, ⟨.ensureArmToken, .ok ()⟩,
    ⟨.listSubscriptions, .ok ["s".toList]⟩,
    ⟨.nextWorkspaces ["s".toList], (0, .ok [⟨none, some "w".toList⟩])⟩,
    ⟨.query "w".toList probeKql probeTimespan, .error err⟩,
    ⟨.putCached (workspaceCacheKey "t".toList) none, ()⟩]

theorem exec_oneWorkspace (err : ArmError) :
    Exec (trusted oneWorkspace.answers) [] (discoverWorkspace "t".toList) (oneWorkspaceTrace err)
      (.ok none) := by
  refine .ask (r := none) ⟨trivial, rfl⟩ ?_
  refine .ask (r := .ok ()) ⟨trivial, rfl⟩ ?_
  have hsubs : (oneWorkspace.answers : Exchanged (UsageAnswer Unit) → Prop)
      ⟨.listSubscriptions, .ok ["s".toList]⟩ := rfl
  refine .ask ⟨hsubs, rfl⟩ ?_
  refine .ask (r := (0, .ok [⟨none, some "w".toList⟩]))
    ⟨⟨"s".toList, rfl, fun _ h => (Except.ok.inj h).symm⟩, rfl⟩ ?_
  refine .ask (r := .error err) ⟨trivial, rfl⟩ ?_
  exact .ask (r := ()) ⟨trivial, rfl⟩ (.done _ _)

/-- A workspace without the table is known to have none. -/
theorem caches_known_iff_missing_table : CachesKnown oneWorkspace (oneWorkspaceTrace (.api 400 [])) :=
  (caches_known_iff oneWorkspace "t".toList (exec_oneWorkspace (.api 400 []))).2 <| .inr <| .inr <| by
    refine ⟨fun ws hws => ?_, fun probe hprobe => ?_⟩
    · rw [List.mem_singleton.1 hws]
      exact ⟨"w".toList, rfl, _, List.mem_singleton_self _, rfl⟩
    · rw [List.mem_singleton.1 hprobe]
      exact .inl ⟨[], rfl⟩

/-- One probe that was throttled, and it is cached that there is no workspace. -/
theorem throttled_probe_cached :
    (∃ r, Exec (trusted oneWorkspace.answers) [] (discoverWorkspace "t".toList)
      (oneWorkspaceTrace (.throttled none)) r) ∧
    puts (oneWorkspaceTrace (.throttled none)) = [none] ∧
    ¬ CachesKnown oneWorkspace (oneWorkspaceTrace (.throttled none)) := by
  refine ⟨⟨_, exec_oneWorkspace _⟩, rfl, fun hknown => ?_⟩
  obtain ⟨customerId, hid, -, hrefused⟩ :=
    hknown.absent (List.mem_singleton_self _) ⟨none, some "w".toList⟩ (List.mem_singleton_self _)
  obtain rfl := Option.some.inj hid
  rcases hrefused _ (List.mem_singleton_self _) with ⟨body, h⟩ | ⟨body, h⟩
  · exact nomatch h
  · exact nomatch h

end Sweeps
