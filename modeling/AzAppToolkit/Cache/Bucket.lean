import AzAppToolkit.Lib.Table

set_option autoImplicit false

/-! # One cache bucket

`Bucket` of `azapptoolkit-core/src/cache.rs`: the entries of one `CacheKind`, with the bookkeeping
that eviction reads beside them (the pinned count, the LRU index, the oldest insert time). Every
operation here runs under the bucket's mutex in the source, so it is one pure function of the
bucket.

Modelling choices:
* an `Arc` is its allocation. What an allocation points at never changes, so decoding or patching a
  value is a function of the `Arc`, and `Arc::ptr_eq` is equality;
* `tick`, `next_stamp` and the stamps are unbounded (the source's `u64` grows by one per call);
* `pinned` is an `Int`, so that a `pinned -= n` that would underflow the source's `usize` is a
  negative value of the model instead of a hidden truncation. -/

/-- An `Instant` of the process clock, in nanoseconds. -/
abbrev Instant := Nat

/-- A `Duration`, in nanoseconds. -/
abbrev Duration := Nat

/-- An `Arc` allocation. -/
abbrev Arc := Nat

/-- `Instant::elapsed` at the clock reading `now` (saturating). -/
def Instant.elapsed (since now : Instant) : Duration := now - since

/-- `Duration::MAX`. -/
def Duration.maxValue : Duration := (2 ^ 64 - 1) * 10 ^ 9 + 999999999

/-- A cached value. `typed` is set by the typed stores; `stamp` names the insert that made it. -/
structure Entry where
  value : Arc
  typed : Option Arc
  inserted : Instant
  lastAccess : Nat
  pinned : Bool
  stamp : Nat
deriving DecidableEq

structure Bucket where
  entries : Table String Entry
  pinned : Int
  lru : Table Nat String
  tick : Nat
  oldestInsert : Option Instant
  lastSweep : Option Instant
  nextStamp : Nat

/-- The clock readings of one locked section. The source reads the clock again for every entry a
    sweep visits, so `visit` may differ from key to key. -/
structure Clock where
  inserted : Instant
  lastSweep : Instant
  oldest : Instant
  visit : String → Instant
  swept : Instant

/-- A clock that does not move during the section. -/
def Clock.still (t : Instant) : Clock := ⟨t, t, t, fun _ => t, t⟩

namespace Bucket

def new : Bucket where
  entries := ∅
  pinned := 0
  lru := ∅
  tick := 0
  oldestInsert := none
  lastSweep := none
  nextStamp := 0

/-- The entry under `key`. -/
def get (b : Bucket) (key : String) : Option Entry := b.entries.lookup key

/-! ## Single-entry operations -/

def touch (b : Bucket) (key : String) : Bucket :=
  match b.entries.lookup key with
  | none => { b with tick := b.tick + 1 }
  | some e =>
    -- the slot's own `String` is re-keyed; it equals `key` whenever the slot is this entry's, and
    -- `key` is copied in otherwise
    { b with
      tick := b.tick + 1
      entries := b.entries.insert key { e with lastAccess := b.tick + 1 }
      lru := (b.lru.erase e.lastAccess).insert (b.tick + 1) key }

/-- `Bucket::insert` at clock reading `inserted`; the result carries the new entry's stamp. -/
def insert (b : Bucket) (key : String) (value : Arc) (typed : Option Arc) (pinned : Bool)
    (inserted : Instant) : Bucket × Nat :=
  let tick := b.tick + 1
  let stamp := b.nextStamp + 1
  let counted := if pinned then b.pinned + 1 else b.pinned
  let previous := b.entries.lookup key
  ({ b with
    entries := b.entries.insert key ⟨value, typed, inserted, tick, pinned, stamp⟩
    -- the entry it replaces gives back its pin and its LRU row
    pinned := match previous with
      | some p => if p.pinned then counted - 1 else counted
      | none => counted
    lru := (match previous with
      | some p => b.lru.erase p.lastAccess
      | none => b.lru).insert tick key
    tick := tick
    oldestInsert := some (b.oldestInsert.getD inserted)
    nextStamp := stamp }, stamp)

/-- `Bucket::remove`; the flag says whether there was an entry. -/
def remove (b : Bucket) (key : String) : Bucket × Bool :=
  match b.entries.lookup key with
  | some previous =>
    ({ b with
      entries := b.entries.erase key
      lru := b.lru.erase previous.lastAccess
      pinned := if previous.pinned then b.pinned - 1 else b.pinned }, true)
  | none => (b, false)

def unpinnedLen (b : Bucket) : Nat := ((b.entries.entries.length : Int) - b.pinned).toNat

def removeIfStamp (b : Bucket) (key : String) (stamp : Nat) : Bucket × Bool :=
  match b.entries.lookup key with
  | some entry => if entry.stamp = stamp then b.remove key else (b, false)
  | none => (b, false)

/-- Whether the typed value under `key` is the allocation `expected`. -/
def holdsTyped (b : Bucket) (key : String) (expected : Arc) : Bool :=
  match b.entries.lookup key with
  | some entry => entry.typed == some expected
  | none => false

def replaceTypedIfSame (b : Bucket) (key : String) (expected next : Arc) : Bucket × Bool :=
  match b.entries.lookup key with
  | some entry =>
    if entry.typed = some expected then
      ({ b with entries := b.entries.insert key { entry with typed := some next } }, true)
    else (b, false)
  | none => (b, false)

/-! ## Bulk operations -/

/-- Drop every LRU row that no longer names a live entry at its own tick. -/
def pruneLru (b : Bucket) : Bucket :=
  { b with
    lru := b.lru.retain (fun tick key =>
      match b.entries.lookup key with
      | some e => e.lastAccess == tick
      | none => false) }

def retain (b : Bucket) (keep : String → Bool) : Bucket :=
  let dropped := (b.entries.entries.filter (fun r => !keep r.1)).countP (fun r => r.2.pinned)
  pruneLru { b with
    entries := b.entries.retain (fun key _ => keep key)
    pinned := b.pinned - dropped }

/-- `Bucket::clear`. `next_stamp` goes on, so no stamp is issued twice. -/
def clear (b : Bucket) : Bucket :=
  { b with
    entries := ∅
    pinned := 0
    lru := ∅
    tick := 0
    oldestInsert := none }

def evictExpired (b : Bucket) (clock : Clock) (ttl : Duration) : Bucket :=
  let kept := b.entries.retain (fun key e => decide (e.inserted.elapsed (clock.visit key) ≤ ttl))
  let pruned := pruneLru { b with entries := kept, pinned := kept.countRows (·.pinned) }
  { pruned with
    oldestInsert := (kept.entries.map (fun r => r.2.inserted)).min?
    lastSweep := some clock.swept }

def sweepAfter (ttl : Duration) : Duration := min (ttl + ttl / 8) Duration.maxValue

def atCapSweepInterval (ttl : Duration) : Duration := max (ttl / 64) 5000000

/-- The `while` loop of `evict_lru`: pop the oldest row, skip it when it is stale, set it aside
    when its entry is pinned, drop its entry otherwise. Every turn pops a row, so as many turns as
    there are rows are enough. -/
def evictLruLoop (maxSize : Nat) :
    Nat → Bucket → List (Nat × String) → Bucket × List (Nat × String)
  | 0, b, skipped => (b, skipped)
  | turns + 1, b, skipped =>
    if maxSize < b.unpinnedLen then
      match b.lru.popFirst with
      | none => (b, skipped)
      | some (tick, key, lru) =>
        match b.entries.lookup key with
        | none => evictLruLoop maxSize turns { b with lru := lru } skipped
        | some e =>
          if e.lastAccess ≠ tick then
            evictLruLoop maxSize turns { b with lru := lru } skipped
          else if e.pinned then
            evictLruLoop maxSize turns { b with lru := lru } (skipped ++ [(tick, key)])
          else
            evictLruLoop maxSize turns
              { b with lru := lru, entries := b.entries.erase key } skipped
    else (b, skipped)

def evictLru (b : Bucket) (maxSize : Nat) : Bucket :=
  let r := evictLruLoop maxSize b.lru.entries.length b []
  { r.1 with lru := r.2.foldl (fun lru row => lru.insert row.1 row.2) r.1.lru }

def evictIfNeeded (b : Bucket) (clock : Clock) (ttl : Duration) (maxSize : Nat) : Bucket :=
  let overCap := decide (maxSize < b.unpinnedLen)
  let exactAllowed := overCap && (match b.lastSweep with
    | some t => decide (atCapSweepInterval ttl < t.elapsed clock.lastSweep)
    | none => true)
  let limit := if exactAllowed then ttl else sweepAfter ttl
  let anythingExpired := match b.oldestInsert with
    | some o => decide (limit < o.elapsed clock.oldest)
    | none => false
  if !anythingExpired && !overCap then b
  else evictLru (if anythingExpired then b.evictExpired clock ttl else b) maxSize

/-! ## Sequences of operations -/

/-- One call on a bucket, with its arguments and its clock readings. -/
inductive Op where
  | insert (key : String) (value : Arc) (typed : Option Arc) (pinned : Bool) (inserted : Instant)
  | touch (key : String)
  | remove (key : String)
  | removeIfStamp (key : String) (stamp : Nat)
  | replaceTypedIfSame (key : String) (expected next : Arc)
  | retain (keep : String → Bool)
  | clear
  | evictExpired (clock : Clock) (ttl : Duration)
  | evictLru (maxSize : Nat)
  | evictIfNeeded (clock : Clock) (ttl : Duration) (maxSize : Nat)

def apply (b : Bucket) : Op → Bucket
  | .insert key value typed pinned inserted => (b.insert key value typed pinned inserted).1
  | .touch key => b.touch key
  | .remove key => (b.remove key).1
  | .removeIfStamp key stamp => (b.removeIfStamp key stamp).1
  | .replaceTypedIfSame key expected next => (b.replaceTypedIfSame key expected next).1
  | .retain keep => b.retain keep
  | .clear => b.clear
  | .evictExpired clock ttl => b.evictExpired clock ttl
  | .evictLru maxSize => b.evictLru maxSize
  | .evictIfNeeded clock ttl maxSize => b.evictIfNeeded clock ttl maxSize

/-- The bucket after a sequence of calls. -/
def applyAll (b : Bucket) (ops : List Op) : Bucket := ops.foldl apply b

/-- The stamp a call hands out, if it is an insert. -/
def issued (b : Bucket) : Op → Option Nat
  | .insert key value typed pinned inserted => some (b.insert key value typed pinned inserted).2
  | _ => none

/-- The stamps a sequence of calls hands out, in order. -/
def issuedAll : Bucket → List Op → List Nat
  | _, [] => []
  | b, op :: ops => (b.issued op).toList ++ issuedAll (b.apply op) ops

/-- The clock reading an insert stores. -/
def Op.insertedAt : Op → Option Instant
  | .insert _ _ _ _ inserted => some inserted
  | _ => none

end Bucket
