import AzAppToolkit.Cache.Bucket
import AzAppToolkit.Lib.Run

set_option autoImplicit false

/-! # The cache as a concurrent system

`Cache` of `azapptoolkit-core/src/cache.rs`: four buckets, the runtime settings and the watch table,
each behind its own lock. A call on the cache is a sequence of locked sections, and between two of
them any other thread may run. So a call in progress is a `Call`: the locked section it will take
next, with the local variables it holds there. `Call.step` runs one section, `Step` picks the call
that runs next or starts a new call, and a run of the cache is a `Run` of `Step`.

Hit and miss counters are left out: no section reads them. Counters and stamps are unbounded, as in
`Bucket`. -/

/-! ## Kinds and settings -/

inductive CacheKind where
  | servicePrincipal
  | permissions
  | audit
  | lists
deriving DecidableEq

def CacheKind.all : List CacheKind := [.servicePrincipal, .permissions, .audit, .lists]

def maxCacheSize : Nat := 5000

def maxPerObjectCacheSize : Nat := 10000

/-- Every kind's default TTL: 60 minutes, in nanoseconds. -/
def cacheTtl : Duration := 60 * 60 * 10 ^ 9

structure CacheConfig where
  enabled : Bool
  servicePrincipalTtl : Duration
  permissionsTtl : Duration
  auditTtl : Duration
  listsTtl : Duration
  maxSize : Nat

def CacheConfig.default : CacheConfig :=
  ⟨true, cacheTtl, cacheTtl, cacheTtl, cacheTtl, maxCacheSize⟩

def CacheConfig.ttlFor (c : CacheConfig) : CacheKind → Duration
  | .servicePrincipal => c.servicePrincipalTtl
  | .permissions => c.permissionsTtl
  | .audit => c.auditTtl
  | .lists => c.listsTtl

/-- The arguments of `configure`; `none` leaves a setting as it is. `set_enabled` passes `enabled`
    alone. -/
structure ConfigUpdate where
  enabled : Option Bool
  servicePrincipalTtl : Option Duration
  permissionsTtl : Option Duration
  auditTtl : Option Duration
  listsTtl : Option Duration
  maxSize : Option Nat

def CacheConfig.update (c : CacheConfig) (u : ConfigUpdate) : CacheConfig where
  enabled := u.enabled.getD c.enabled
  servicePrincipalTtl := u.servicePrincipalTtl.getD c.servicePrincipalTtl
  permissionsTtl := u.permissionsTtl.getD c.permissionsTtl
  auditTtl := u.auditTtl.getD c.auditTtl
  listsTtl := u.listsTtl.getD c.listsTtl
  maxSize := u.maxSize.getD c.maxSize

/-! ## The shared state and its locked sections -/

/-- One watched key: its invalidation counter and how many fetches in flight hold it. -/
structure Watch where
  counter : Nat
  refs : Nat

structure Cache where
  buckets : CacheKind → Bucket
  config : CacheConfig
  watches : Table (CacheKind × String) Watch

/-- A guard on one key, taken before a long fetch. -/
structure IndexWatch where
  kind : CacheKind
  key : String
  since : Nat
  holdsRef : Bool

/-- Which watched keys an invalidation drops. -/
inductive KeyMatch where
  | exactly (key : String)
  | startingWith (start : String)
  | every

def KeyMatch.matches : KeyMatch → String → Bool
  | .exactly key, watched => watched == key
  | .startingWith start, watched => watched.startsWith start
  | .every, _ => true

/-- The two arguments of `bump_watches`. -/
structure Scope where
  kind : Option CacheKind
  keys : KeyMatch

def Scope.covers (s : Scope) (kind : CacheKind) (key : String) : Bool :=
  (match s.kind with
    | some k => k == kind
    | none => true) && s.keys.matches key

namespace Cache

def maxWatches : Nat := 256

/-- The `since` of a guard that could not be registered: `u64::MAX`. -/
def watchUnavailable : Nat := 2 ^ 64 - 1

def new : Cache where
  buckets := fun _ => Bucket.new
  config := .default
  watches := ∅

def capFor (kind : CacheKind) (maxSize : Nat) : Nat :=
  match kind with
  | .servicePrincipal | .lists =>
    if maxCacheSize ≤ maxSize then max maxSize maxPerObjectCacheSize else maxSize
  | _ => maxSize

/-- `limits_if_enabled`: the entry cap and the TTL, or `none` when caching is off. -/
def limitsIfEnabled (c : Cache) (kind : CacheKind) : Option (Nat × Duration) :=
  if c.config.enabled then some (capFor kind c.config.maxSize, c.config.ttlFor kind) else none

def generationFor (c : Cache) (kind : CacheKind) (key : String) : Cache × IndexWatch :=
  match c.watches.lookup (kind, key) with
  | some watch =>
    ({ c with watches := c.watches.insert (kind, key) { watch with refs := watch.refs + 1 } },
      ⟨kind, key, watch.counter, true⟩)
  | none =>
    if maxWatches ≤ c.watches.entries.length then (c, ⟨kind, key, watchUnavailable, false⟩)
    else ({ c with watches := c.watches.insert (kind, key) ⟨0, 1⟩ }, ⟨kind, key, 0, true⟩)

def bumpWatches (c : Cache) (scope : Scope) : Cache :=
  { c with
    watches := c.watches.mapRows (fun id watch =>
      if scope.covers id.1 id.2 then { watch with counter := watch.counter + 1 } else watch) }

def peekWatch (c : Cache) (kind : CacheKind) (key : String) : Option Nat :=
  (c.watches.lookup (kind, key)).map (·.counter)

def releaseWatch (c : Cache) (kind : CacheKind) (key : String) : Cache × Option Nat :=
  match c.watches.lookup (kind, key) with
  | none => (c, none)
  | some watch =>
    if watch.refs - 1 = 0 then
      ({ c with watches := c.watches.erase (kind, key) }, some watch.counter)
    else
      ({ c with
        watches := c.watches.insert (kind, key) { watch with refs := watch.refs - 1 } },
        some watch.counter)

/-- One bucket operation under the bucket's lock. -/
def onBucket (c : Cache) (kind : CacheKind) (op : Bucket.Op) : Cache :=
  { c with buckets := Function.update c.buckets kind ((c.buckets kind).apply op) }

/-- `IndexWatch::current`. -/
def current (c : Cache) (w : IndexWatch) : Option Nat :=
  if w.holdsRef then c.peekWatch w.kind w.key else none

/-! ## Calls in progress -/

/-- What a store writes: a serialized value (`none` when serializing fails), or a typed value beside
    a `Null` body. The stores that serialize never pin. -/
inductive Store where
  | json (serialized : Option Arc)
  | typed (body value : Arc) (pinned : Bool)

/-- The arguments `Bucket::insert` gets for a store. -/
structure Payload where
  value : Arc
  typed : Option Arc
  pinned : Bool

def Store.payload : Store → Option Payload
  | .json serialized => serialized.map (fun value => ⟨value, none, false⟩)
  | .typed body value pinned => some ⟨body, some value, pinned⟩

def Payload.insert (p : Payload) (key : String) (clock : Clock) : Bucket.Op :=
  .insert key p.value p.typed p.pinned clock.inserted

/-- A fetch under a guard: `generation_for`, the fetch, and then the guarded store, or `none` when
    the guard is dropped without one. -/
structure Fetch where
  kind : CacheKind
  key : String
  store : Option Store

/-- The two ways to read. Decoding a value and downcasting a typed value are functions of the
    allocation. -/
inductive Door where
  | get (decodes : Arc → Bool)
  | getTyped (downcasts : Arc → Bool)

structure Read where
  kind : CacheKind
  key : String
  door : Door

inductive Invalidation where
  | invalidate (kind : CacheKind) (key : String)
  | invalidatePrefix (kind : CacheKind) (start : String)
  | invalidateTenant (tenantId : String)
  | clearKind (kind : CacheKind)
  | clear

/-- The keys an invalidation bumps. -/
def Invalidation.scope : Invalidation → Scope
  | .invalidate kind key => ⟨some kind, .exactly key⟩
  | .invalidatePrefix kind start => ⟨some kind, .startingWith start⟩
  | .invalidateTenant tenantId => ⟨none, .startingWith (tenantId ++ "|")⟩
  | .clearKind kind => ⟨some kind, .every⟩
  | .clear => ⟨none, .every⟩

/-- The buckets an invalidation visits, in order. -/
def Invalidation.kinds : Invalidation → List CacheKind
  | .invalidate kind _ | .invalidatePrefix kind _ | .clearKind kind => [kind]
  | .invalidateTenant _ | .clear => CacheKind.all

/-- What an invalidation does to a bucket it visits. -/
def Invalidation.op : Invalidation → Bucket.Op
  | .invalidate _ key => .remove key
  | .invalidatePrefix _ start => .retain (fun k => !k.startsWith start)
  | .invalidateTenant tenantId => .retain (fun k => !k.startsWith (tenantId ++ "|"))
  | .clearKind _ | .clear => .clear

/-- What a patch decided about the value it was handed. -/
inductive Patch where
  | replace (next : Arc)
  | keep
  | invalidate

/-- The arguments of `patch_typed_index_with`. -/
structure PatchCall where
  kind : CacheKind
  key : String
  downcasts : Arc → Bool
  patch : Arc → Patch

def PatchCall.scope (p : PatchCall) : Scope := ⟨some p.kind, .exactly p.key⟩

def patchAttempts : Nat := 3

/-- A call on the cache, at the locked section it takes next. -/
inductive Call where
  -- `generation_for`, then `store_if_current` or `Drop`
  | generation (f : Fetch)
  | fetching (f : Fetch) (watch : IndexWatch)
  | preCheck (f : Fetch) (watch : IndexWatch) (store : Store)
  | storeLimits (f : Fetch) (watch : IndexWatch) (store : Store)
  | storeInsert (f : Fetch) (watch : IndexWatch) (payload : Payload) (maxSize : Nat) (ttl : Duration)
  | release (f : Fetch) (watch : IndexWatch) (stamp : Option Nat)
  | rollback (f : Fetch) (stamp : Nat)
  | dropping (f : Fetch) (watch : IndexWatch)
  | returned (f : Fetch) (stamp : Option Nat) (result : Bool)
  -- `put`, `put_typed`, `put_typed_index`
  | putLimits (kind : CacheKind) (key : String) (store : Store)
  | putInsert (kind : CacheKind) (key : String) (payload : Payload) (maxSize : Nat) (ttl : Duration)
  -- `get`, `get_typed`. A failed decode keeps only the value and the typed flag of the entry it
  -- read; `seen` also records which entry that was
  | lookupConfig (r : Read)
  | lookup (r : Read) (ttl : Duration)
  | dropUndecodable (r : Read) (seen : Entry)
  -- the invalidations
  | bump (inv : Invalidation)
  | remove (inv : Invalidation) (kinds : List CacheKind)
  | invalidated (inv : Invalidation)
  -- `patch_typed_index_with`
  | patchBump (p : PatchCall)
  | patchLimits (p : PatchCall)
  | patchRead (p : PatchCall) (ttl : Duration) (attempts : Nat)
  | patchReplace (p : PatchCall) (ttl : Duration) (attempts : Nat) (read next : Arc)
  | patchKeep (p : PatchCall) (ttl : Duration) (attempts : Nat) (read : Arc)
  | patchRemove (p : PatchCall)
  | patched (p : PatchCall) (result : Bool)
  -- `configure`, `set_enabled`
  | configure (u : ConfigUpdate)
  | shrinkTtl (newMax : Nat) (kinds : List CacheKind)
  | shrink (newMax : Nat) (kind : CacheKind) (ttl : Duration) (kinds : List CacheKind)
  | done (result : Bool)

/-- What one locked section writes. -/
inductive Effect where
  | idle
  | configure (u : ConfigUpdate)
  | generation (kind : CacheKind) (key : String)
  | bump (scope : Scope)
  | release (kind : CacheKind) (key : String)
  | bucket (kind : CacheKind) (ops : List Bucket.Op)

def Effect.run (c : Cache) : Effect → Cache
  | .idle => c
  | .configure u => { c with config := c.config.update u }
  | .generation kind key => (c.generationFor kind key).1
  | .bump scope => c.bumpWatches scope
  | .release kind key => (c.releaseWatch kind key).1
  | .bucket kind ops => ops.foldl (fun c op => c.onBucket kind op) c

/-- The effect is a watch bump that covers `key`. -/
def Effect.bumps (effect : Effect) (kind : CacheKind) (key : String) : Bool :=
  match effect with
  | .bump scope => scope.covers kind key
  | _ => false

namespace Call

/-- The entry a read finds: present and no older than `ttl`. -/
def liveEntry (c : Cache) (kind : CacheKind) (key : String) (ttl : Duration) (clock : Clock) :
    Option Entry :=
  ((c.buckets kind).get key).filter (fun e => decide (e.inserted.elapsed (clock.visit key) ≤ ttl))

/-- Where a read goes on after its locked lookup returned `e`. -/
def afterLookup (r : Read) (e : Entry) : Call :=
  match r.door with
  | .get decodes =>
    if decodes e.value then .done true
    else if e.typed.isSome then .done false
    else .dropUndecodable r e
  | .getTyped downcasts =>
    .done (match e.typed with
      | some value => downcasts value
      | none => false)

/-- The two operations of a store's locked section. -/
def putOps (key : String) (payload : Payload) (maxSize : Nat) (ttl : Duration) (clock : Clock) :
    List Bucket.Op :=
  [payload.insert key clock, .evictIfNeeded clock ttl maxSize]

/-- The stamp a store's locked section is handed. -/
def putStamp (c : Cache) (kind : CacheKind) (key : String) (payload : Payload) (clock : Clock) :
    Nat :=
  ((c.buckets kind).insert key payload.value payload.typed payload.pinned clock.inserted).2

/-- Where a guarded store goes on once its watch is released and `current` was read. -/
def afterRelease (f : Fetch) (watch : IndexWatch) (stamp current : Option Nat) : Call :=
  if current = some watch.since then .returned f stamp stamp.isSome
  else match stamp with
    | some stamp => .rollback f stamp
    | none => .returned f none false

/-- What a patch does with the entry it read, with `attempts` further turns of its loop left. -/
def afterPatchRead (p : PatchCall) (ttl : Duration) (attempts : Nat) (e : Option Entry) : Call :=
  match e.bind (·.typed) with
  | none => .patchRemove p
  | some read =>
    if p.downcasts read then
      match p.patch read with
      | .replace next => .patchReplace p ttl attempts read next
      | .keep => .patchKeep p ttl attempts read
      | .invalidate => .patchRemove p
    else .patchRemove p

/-- The end of a turn of the patch loop. -/
def afterPatchTurn (p : PatchCall) (ttl : Duration) (attempts : Nat) (landed : Bool) : Call :=
  if landed then .patched p true
  else if attempts = 0 then .patchRemove p
  else .patchRead p ttl (attempts - 1)

/-- Run the next locked section; `none` when the call has returned. -/
def step (c : Cache) (clock : Clock) : Call → Option (Effect × Call)
  | .generation f => some (.generation f.kind f.key, .fetching f (c.generationFor f.kind f.key).2)
  | .fetching f watch => some (.idle, match f.store with
      | some store => .preCheck f watch store
      | none => .dropping f watch)
  | .preCheck f watch store => some (.idle,
      if c.current watch = some watch.since then .storeLimits f watch store
      else .dropping f watch)
  | .storeLimits f watch store => some (.idle, match c.limitsIfEnabled f.kind, store.payload with
      | some (maxSize, ttl), some payload => .storeInsert f watch payload maxSize ttl
      | _, _ => .release f watch none)
  | .storeInsert f watch payload maxSize ttl => some (
      .bucket f.kind (putOps f.key payload maxSize ttl clock),
      .release f watch (some (putStamp c f.kind f.key payload clock)))
  | .release f watch stamp =>
    if watch.holdsRef then
      some (.release watch.kind watch.key,
        afterRelease f watch stamp (c.releaseWatch watch.kind watch.key).2)
    else some (.idle, afterRelease f watch stamp none)
  | .rollback f stamp => some (
      .bucket f.kind [.removeIfStamp f.key stamp], .returned f (some stamp) false)
  | .dropping f watch => some (
      if watch.holdsRef then .release watch.kind watch.key else .idle, .returned f none false)
  | .returned _ _ _ => none
  | .putLimits kind key store => some (.idle, match c.limitsIfEnabled kind, store.payload with
      | some (maxSize, ttl), some payload => .putInsert kind key payload maxSize ttl
      | _, _ => .done false)
  | .putInsert kind key payload maxSize ttl => some (
      .bucket kind (putOps key payload maxSize ttl clock), .done true)
  | .lookupConfig r => some (.idle,
      if c.config.enabled then .lookup r (c.config.ttlFor r.kind) else .done false)
  | .lookup r ttl => some (match liveEntry c r.kind r.key ttl clock with
      | some e => (.bucket r.kind [.touch r.key], afterLookup r e)
      | none => (.bucket r.kind [.remove r.key], .done false))
  | .dropUndecodable r _ => some (.bucket r.kind [.remove r.key], .done false)
  | .bump inv => some (.bump inv.scope, .remove inv inv.kinds)
  | .remove inv [] => some (.idle, .invalidated inv)
  | .remove inv (kind :: kinds) => some (.bucket kind [inv.op], .remove inv kinds)
  | .invalidated _ => none
  | .patchBump p => some (.bump p.scope, .patchLimits p)
  | .patchLimits p => some (.idle, match c.limitsIfEnabled p.kind with
      | some (_, ttl) => .patchRead p ttl (patchAttempts - 1)
      | none => .patchRemove p)
  | .patchRead p ttl attempts => some (.idle,
      afterPatchRead p ttl attempts (liveEntry c p.kind p.key ttl clock))
  | .patchReplace p ttl attempts read next => some (
      .bucket p.kind [.replaceTypedIfSame p.key read next],
      afterPatchTurn p ttl attempts ((c.buckets p.kind).replaceTypedIfSame p.key read next).2)
  | .patchKeep p ttl attempts read => some (.idle,
      afterPatchTurn p ttl attempts ((c.buckets p.kind).holdsTyped p.key read))
  | .patchRemove p => some (.bucket p.kind [.remove p.key], .patched p false)
  | .patched _ _ => none
  | .configure u => some (.configure u, match u.maxSize with
      | some newMax => .shrinkTtl newMax CacheKind.all
      | none => .done true)
  | .shrinkTtl _ [] => some (.idle, .done true)
  | .shrinkTtl newMax (kind :: kinds) => some (.idle,
      .shrink newMax kind (c.config.ttlFor kind) kinds)
  | .shrink newMax kind ttl kinds => some (
      .bucket kind [.evictExpired clock ttl, .evictLru (Cache.capFor kind newMax)],
      .shrinkTtl newMax kinds)
  | .done _ => none

/-- Where a call starts. -/
def isStart : Call → Bool
  | .generation _ | .putLimits _ _ _ | .lookupConfig _ | .bump _ | .patchBump _ | .configure _ => true
  | _ => false

/-- The guard a call owns. -/
def guard : Call → Option IndexWatch
  | .fetching _ watch | .preCheck _ watch _ | .storeLimits _ watch _ | .storeInsert _ watch _ _ _
  | .release _ watch _ | .dropping _ watch => some watch
  | _ => none

/-- The call owns a guard with a reference on `id`. -/
def holds (id : CacheKind × String) (t : Call) : Bool :=
  match t.guard with
  | some watch => watch.holdsRef && decide ((watch.kind, watch.key) = id)
  | none => false

end Call

/-! ## The system -/

/-- The cache and every call made on it so far; a call's place in the list is its name. -/
structure State where
  cache : Cache
  calls : List Call

def State.init : State := ⟨.new, []⟩

/-- A step of a run: which call ran, and what it wrote. -/
structure Event where
  call : Nat
  effect : Effect

inductive Step : State → Event → State → Prop
  /-- Some thread makes a new call. -/
  | call {s : State} (t : Call) (hstart : t.isStart = true) :
      Step s ⟨s.calls.length, .idle⟩ ⟨s.cache, s.calls ++ [t]⟩
  /-- Call `i` runs its next locked section. -/
  | act {s : State} {i : Nat} {t t' : Call} {effect : Effect} (clock : Clock)
      (hcall : s.calls[i]? = some t) (hstep : t.step s.cache clock = some (effect, t')) :
      Step s ⟨i, effect⟩ ⟨effect.run s.cache, s.calls.set i t'⟩

/-- The runs of the cache, from `Cache::new`. -/
abbrev Runs : List Event → State → Prop := Run Step State.init


/-- The section of the call made last. -/
theorem Step.act_last {c : Cache} {calls : List Call} {t t' : Call} {effect : Effect} (clock : Clock)
    (hstep : t.step c clock = some (effect, t')) :
    Step ⟨c, calls ++ [t]⟩ ⟨calls.length, effect⟩ ⟨effect.run c, calls ++ [t']⟩ := by
  have hact := Step.act (s := ⟨c, calls ++ [t]⟩) (i := calls.length) clock (by simp) hstep
  simpa using hact

/-! ## Playing a schedule -/

/-- What the scheduler picks: a new call, or the next section of a call at some clock readings. -/
inductive Choice where
  | call (t : Call)
  | act (i : Nat) (clock : Clock)

def State.play (s : State) : Choice → Option (Event × State)
  | .call t => if t.isStart then some (⟨s.calls.length, .idle⟩, ⟨s.cache, s.calls ++ [t]⟩) else none
  | .act i clock =>
    match s.calls[i]? with
    | none => none
    | some t =>
      match t.step s.cache clock with
      | none => none
      | some (effect, t') => some (⟨i, effect⟩, ⟨effect.run s.cache, s.calls.set i t'⟩)

/-- Play a schedule; `none` when it picks a call that does not exist or has returned. -/
def State.playAll (s : State) : List Choice → Option (List Event × State)
  | [] => some ([], s)
  | choice :: choices =>
    match s.play choice with
    | none => none
    | some (ev, u) => (u.playAll choices).map (fun r => (ev :: r.1, r.2))

theorem State.step_of_play {s u : State} {choice : Choice} {ev : Event}
    (h : s.play choice = some (ev, u)) : Step s ev u := by
  cases choice with
  | call t =>
    simp only [play] at h
    split at h
    · next hstart =>
      simp only [Option.some.injEq, Prod.mk.injEq] at h
      obtain ⟨rfl, rfl⟩ := h
      exact .call t hstart
    · exact absurd h nofun
  | act i clock =>
    simp only [play] at h
    split at h
    · exact absurd h nofun
    · next t hcall =>
      split at h
      · exact absurd h nofun
      · next effect t' hstep =>
        simp only [Option.some.injEq, Prod.mk.injEq] at h
        obtain ⟨rfl, rfl⟩ := h
        exact .act clock hcall hstep

/-- A schedule that plays is a run. -/
theorem State.run_of_playAll {s u : State} {choices : List Choice} {tr : List Event}
    (h : s.playAll choices = some (tr, u)) : Run Step s tr u := by
  induction choices generalizing s tr with
  | nil =>
    simp only [playAll, Option.some.injEq, Prod.mk.injEq] at h
    obtain ⟨rfl, rfl⟩ := h
    exact .nil
  | cons choice choices ih =>
    simp only [playAll] at h
    split at h
    · exact absurd h nofun
    · next ev v hplay =>
      obtain ⟨⟨tr', u'⟩, hrest, heq⟩ := Option.map_eq_some_iff.1 h
      simp only [Prod.mk.injEq] at heq
      obtain ⟨rfl, rfl⟩ := heq
      exact (Run.single (step_of_play hplay)).append (ih hrest)

end Cache
