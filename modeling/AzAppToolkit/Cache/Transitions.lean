import AzAppToolkit.Cache.System

set_option autoImplicit false

/-! # What one section can do

`Call.Next` lists the branches of `Call.step`, one constructor each, with the test that leads into
it. Every invariant of the system is proved by cases on it, so `Call.step` itself is unfolded in this
file only. -/

namespace Cache

theorem releaseWatch_snd (c : Cache) (kind : CacheKind) (key : String) :
    (c.releaseWatch kind key).2 = c.peekWatch kind key := by
  unfold releaseWatch peekWatch
  repeat' split
  all_goals simp_all

inductive Call.Next (c : Cache) (clock : Clock) : Call → Effect → Call → Prop
  | generation (f : Fetch) : Next c clock (.generation f) (.generation f.kind f.key)
      (.fetching f (c.generationFor f.kind f.key).2)
  | fetched {f : Fetch} {store : Store} (w : IndexWatch) (hstore : f.store = some store) :
      Next c clock (.fetching f w) .idle (.preCheck f w store)
  | abandoned {f : Fetch} (w : IndexWatch) (hstore : f.store = none) :
      Next c clock (.fetching f w) .idle (.dropping f w)
  | current {w : IndexWatch} (f : Fetch) (store : Store) (hcurrent : c.current w = some w.since) :
      Next c clock (.preCheck f w store) .idle (.storeLimits f w store)
  | stale {w : IndexWatch} (f : Fetch) (store : Store) (hstale : c.current w ≠ some w.since) :
      Next c clock (.preCheck f w store) .idle (.dropping f w)
  | allowed {f : Fetch} {store : Store} {payload : Payload} {maxSize : Nat} {ttl : Duration}
      (w : IndexWatch) (hlimits : c.limitsIfEnabled f.kind = some (maxSize, ttl))
      (hpayload : store.payload = some payload) :
      Next c clock (.storeLimits f w store) .idle (.storeInsert f w payload maxSize ttl)
  | declined (f : Fetch) (w : IndexWatch) (store : Store) :
      Next c clock (.storeLimits f w store) .idle (.release f w none)
  | inserted (f : Fetch) (w : IndexWatch) (payload : Payload) (maxSize : Nat) (ttl : Duration) :
      Next c clock (.storeInsert f w payload maxSize ttl)
        (.bucket f.kind (putOps f.key payload maxSize ttl clock))
        (.release f w (some (putStamp c f.kind f.key payload clock)))
  | stored {w : IndexWatch} (f : Fetch) (stamp : Option Nat) (hw : w.holdsRef = true)
      (hpeek : c.peekWatch w.kind w.key = some w.since) :
      Next c clock (.release f w stamp) (.release w.kind w.key) (.returned f stamp stamp.isSome)
  | overtaken {w : IndexWatch} (f : Fetch) (stamp : Option Nat) :
      Next c clock (.release f w stamp)
        (if w.holdsRef then .release w.kind w.key else .idle)
        (match stamp with
          | some stamp => .rollback f stamp
          | none => .returned f none false)
  | rolledBack (f : Fetch) (stamp : Nat) : Next c clock (.rollback f stamp)
      (.bucket f.kind [.removeIfStamp f.key stamp]) (.returned f (some stamp) false)
  | dropped (f : Fetch) (w : IndexWatch) : Next c clock (.dropping f w)
      (if w.holdsRef then .release w.kind w.key else .idle) (.returned f none false)
  | putAllowed {kind : CacheKind} {store : Store} {payload : Payload} {maxSize : Nat}
      {ttl : Duration} (key : String) (hlimits : c.limitsIfEnabled kind = some (maxSize, ttl))
      (hpayload : store.payload = some payload) :
      Next c clock (.putLimits kind key store) .idle (.putInsert kind key payload maxSize ttl)
  | putDeclined (kind : CacheKind) (key : String) (store : Store) :
      Next c clock (.putLimits kind key store) .idle (.done false)
  | put (kind : CacheKind) (key : String) (payload : Payload) (maxSize : Nat) (ttl : Duration) :
      Next c clock (.putInsert kind key payload maxSize ttl)
        (.bucket kind (putOps key payload maxSize ttl clock)) (.done true)
  | reading (r : Read) : Next c clock (.lookupConfig r) .idle (.lookup r (c.config.ttlFor r.kind))
  | disabled (r : Read) : Next c clock (.lookupConfig r) .idle (.done false)
  | hit {r : Read} {ttl : Duration} {e : Entry} (result : Bool)
      (hlive : liveEntry c r.kind r.key ttl clock = some e) :
      Next c clock (.lookup r ttl) (.bucket r.kind [.touch r.key]) (.done result)
  | undecodable {r : Read} {ttl : Duration} {e : Entry} {decodes : Arc → Bool}
      (hlive : liveEntry c r.kind r.key ttl clock = some e) (hdoor : r.door = .get decodes)
      (hdecodes : decodes e.value = false) (htyped : e.typed = none) :
      Next c clock (.lookup r ttl) (.bucket r.kind [.touch r.key]) (.dropUndecodable r e)
  | miss {r : Read} {ttl : Duration} (hlive : liveEntry c r.kind r.key ttl clock = none) :
      Next c clock (.lookup r ttl) (.bucket r.kind [.remove r.key]) (.done false)
  | dropUndecodable (r : Read) (seen : Entry) : Next c clock (.dropUndecodable r seen)
      (.bucket r.kind [.remove r.key]) (.done false)
  | bump (inv : Invalidation) :
      Next c clock (.bump inv) (.bump inv.scope) (.remove inv inv.kinds)
  | remove (inv : Invalidation) (kind : CacheKind) (kinds : List CacheKind) :
      Next c clock (.remove inv (kind :: kinds)) (.bucket kind [inv.op]) (.remove inv kinds)
  | invalidated (inv : Invalidation) : Next c clock (.remove inv []) .idle (.invalidated inv)
  | patchBump (p : PatchCall) : Next c clock (.patchBump p) (.bump p.scope) (.patchLimits p)
  | patchReading (p : PatchCall) (ttl : Duration) : Next c clock (.patchLimits p) .idle
      (.patchRead p ttl (patchAttempts - 1))
  | patchDisabled (p : PatchCall) : Next c clock (.patchLimits p) .idle (.patchRemove p)
  | patchReplacing {p : PatchCall} {read next : Arc} (ttl : Duration) (attempts : Nat)
      (hpatch : p.patch read = .replace next) :
      Next c clock (.patchRead p ttl attempts) .idle (.patchReplace p ttl attempts read next)
  | patchKeeping {p : PatchCall} {read : Arc} (ttl : Duration) (attempts : Nat)
      (hpatch : p.patch read = .keep) :
      Next c clock (.patchRead p ttl attempts) .idle (.patchKeep p ttl attempts read)
  | patchGivesUp (p : PatchCall) (ttl : Duration) (attempts : Nat) :
      Next c clock (.patchRead p ttl attempts) .idle (.patchRemove p)
  | replaced {p : PatchCall} {read next : Arc} (ttl : Duration) (attempts : Nat)
      (hlanded : ((c.buckets p.kind).replaceTypedIfSame p.key read next).2 = true) :
      Next c clock (.patchReplace p ttl attempts read next)
        (.bucket p.kind [.replaceTypedIfSame p.key read next]) (.patched p true)
  | replaceLost {p : PatchCall} {read next : Arc} (ttl : Duration) (attempts : Nat) :
      Next c clock (.patchReplace p ttl attempts read next)
        (.bucket p.kind [.replaceTypedIfSame p.key read next])
        (if attempts = 0 then .patchRemove p else .patchRead p ttl (attempts - 1))
  | kept {p : PatchCall} {read : Arc} (ttl : Duration) (attempts : Nat)
      (hlanded : (c.buckets p.kind).holdsTyped p.key read = true) :
      Next c clock (.patchKeep p ttl attempts read) .idle (.patched p true)
  | keepLost {p : PatchCall} {read : Arc} (ttl : Duration) (attempts : Nat) :
      Next c clock (.patchKeep p ttl attempts read) .idle
        (if attempts = 0 then .patchRemove p else .patchRead p ttl (attempts - 1))
  | patchRemove (p : PatchCall) : Next c clock (.patchRemove p)
      (.bucket p.kind [.remove p.key]) (.patched p false)
  | configure (u : ConfigUpdate) : Next c clock (.configure u) (.configure u)
      (match u.maxSize with
        | some newMax => .shrinkTtl newMax CacheKind.all
        | none => .done true)
  | shrinkTtl (newMax : Nat) (kind : CacheKind) (kinds : List CacheKind) :
      Next c clock (.shrinkTtl newMax (kind :: kinds)) .idle
        (.shrink newMax kind (c.config.ttlFor kind) kinds)
  | shrunk (newMax : Nat) : Next c clock (.shrinkTtl newMax []) .idle (.done true)
  | shrink (newMax : Nat) (kind : CacheKind) (ttl : Duration) (kinds : List CacheKind) :
      Next c clock (.shrink newMax kind ttl kinds)
        (.bucket kind [.evictExpired clock ttl, .evictLru (capFor kind newMax)])
        (.shrinkTtl newMax kinds)

namespace Call

theorem next_release {c : Cache} {clock : Clock} {f : Fetch} {w : IndexWatch} {stamp : Option Nat}
    {effect : Effect} {t' : Call} (h : (Call.release f w stamp).step c clock = some (effect, t')) :
    Next c clock (.release f w stamp) effect t' := by
  have overtaken : Next c clock (.release f w stamp)
      (if w.holdsRef then .release w.kind w.key else .idle) _ := .overtaken f stamp
  simp only [step, releaseWatch_snd, afterRelease] at h
  split at h
  · next hw =>
    simp only [Option.some.injEq, Prod.mk.injEq] at h
    obtain ⟨rfl, rfl⟩ := h
    rw [if_pos hw] at overtaken
    split
    · next hpeek => exact .stored f stamp hw hpeek
    · exact overtaken
  · next hw =>
    simp only [Option.some.injEq, Prod.mk.injEq] at h
    obtain ⟨rfl, rfl⟩ := h
    rw [if_neg hw] at overtaken
    exact overtaken

theorem next_lookup {c : Cache} {clock : Clock} {r : Read} {ttl : Duration} {effect : Effect}
    {t' : Call} (h : (Call.lookup r ttl).step c clock = some (effect, t')) :
    Next c clock (.lookup r ttl) effect t' := by
  simp only [step, Option.some.injEq] at h
  split at h
  · next e hlive =>
    simp only [Prod.mk.injEq] at h
    obtain ⟨rfl, rfl⟩ := h
    unfold afterLookup
    split
    · next decodes hdoor =>
      split
      · exact .hit true hlive
      · next hdecodes =>
        split
        · exact .hit false hlive
        · next htyped => exact .undecodable hlive hdoor (by simpa using hdecodes) (by simpa using htyped)
    · exact .hit _ hlive
  · next hlive =>
    simp only [Prod.mk.injEq] at h
    obtain ⟨rfl, rfl⟩ := h
    exact .miss hlive

theorem next_patchRead (c : Cache) (clock : Clock) (p : PatchCall) (ttl : Duration) (attempts : Nat)
    (e : Option Entry) :
    Next c clock (.patchRead p ttl attempts) .idle (afterPatchRead p ttl attempts e) := by
  unfold afterPatchRead
  split
  · exact .patchGivesUp p ttl attempts
  · split
    · split
      · next hpatch => exact .patchReplacing ttl attempts hpatch
      · next hpatch => exact .patchKeeping ttl attempts hpatch
      · exact .patchGivesUp p ttl attempts
    · exact .patchGivesUp p ttl attempts

/-- A section takes one of the listed branches. -/
theorem next_of_step {c : Cache} {clock : Clock} {t t' : Call} {effect : Effect}
    (h : t.step c clock = some (effect, t')) : Next c clock t effect t' := by
  cases t with
  | release f w stamp => exact next_release h
  | lookup r ttl => exact next_lookup h
  | returned | invalidated | patched | done => exact absurd h nofun
  | remove inv kinds | shrinkTtl newMax kinds =>
    cases kinds <;>
      · simp only [step, Option.some.injEq, Prod.mk.injEq] at h
        obtain ⟨rfl, rfl⟩ := h
        constructor
  | generation | storeInsert | rollback | dropping | putInsert | dropUndecodable | bump | patchBump
  | patchRemove | configure | shrink =>
    simp only [step, Option.some.injEq, Prod.mk.injEq] at h
    obtain ⟨rfl, rfl⟩ := h
    constructor
  | fetching f w =>
    simp only [step, Option.some.injEq, Prod.mk.injEq] at h
    obtain ⟨rfl, rfl⟩ := h
    split
    · next hstore => exact .fetched w hstore
    · next hstore => exact .abandoned w hstore
  | preCheck f w store =>
    simp only [step, Option.some.injEq, Prod.mk.injEq] at h
    obtain ⟨rfl, rfl⟩ := h
    split
    · next hcurrent => exact .current f store hcurrent
    · next hstale => exact .stale f store hstale
  | storeLimits f w store =>
    simp only [step, Option.some.injEq, Prod.mk.injEq] at h
    obtain ⟨rfl, rfl⟩ := h
    split
    · next hlimits hpayload => exact .allowed w hlimits hpayload
    · exact .declined f w store
  | putLimits kind key store =>
    simp only [step, Option.some.injEq, Prod.mk.injEq] at h
    obtain ⟨rfl, rfl⟩ := h
    split
    · next hlimits hpayload => exact .putAllowed key hlimits hpayload
    · exact .putDeclined kind key store
  | lookupConfig r =>
    simp only [step, Option.some.injEq, Prod.mk.injEq] at h
    obtain ⟨rfl, rfl⟩ := h
    split
    · exact .reading r
    · exact .disabled r
  | patchLimits p =>
    simp only [step, Option.some.injEq, Prod.mk.injEq] at h
    obtain ⟨rfl, rfl⟩ := h
    split
    · exact .patchReading p _
    · exact .patchDisabled p
  | patchRead p ttl attempts =>
    simp only [step, Option.some.injEq, Prod.mk.injEq] at h
    obtain ⟨rfl, rfl⟩ := h
    exact next_patchRead c clock p ttl attempts _
  | patchReplace p ttl attempts read next =>
    simp only [step, afterPatchTurn, Option.some.injEq, Prod.mk.injEq] at h
    obtain ⟨rfl, rfl⟩ := h
    split
    · next hlanded => exact .replaced ttl attempts hlanded
    · exact .replaceLost ttl attempts
  | patchKeep p ttl attempts read =>
    simp only [step, afterPatchTurn, Option.some.injEq, Prod.mk.injEq] at h
    obtain ⟨rfl, rfl⟩ := h
    split
    · next hlanded => exact .kept ttl attempts hlanded
    · exact .keepLost ttl attempts

end Call

end Cache
