import AzAppToolkit.Settings.File
import AzAppToolkit.Lib.Bytes

set_option autoImplicit false

/-! # No update is lost

The file changes only by a rename, and only the call that holds the lock file renames. What it renames is
what it made of the file as it is: nobody else has changed it since the call read it. So the renames, in
their order, are the order in which the calls took effect. -/

namespace Settings

variable {σ : Type}

/-! ## The invariant -/

/-- One call's change of the settings. -/
def applyCall (calls : Nat → Option (Mutation σ)) (v : σ) (i : Nat) : σ :=
  match calls i with
  | some m => m.apply v
  | none => v

/-- The settings a writer would start from now. -/
def State.current (fmt : Format σ) (s : State σ) : Option σ := readContent fmt (s.dir settingsFile)

/-- The file is the one there was, or the calls that took effect, one after the other, made it. -/
def FileOk (fmt : Format σ) (start : Option Node) (s : State σ) : Prop :=
  (s.applied = [] ∧ s.dir settingsFile = start) ∨
    ∃ v owner, readContent fmt start = some v ∧
      s.dir settingsFile = some ⟨owner, .bytes (fmt.render (s.applied.foldl (applyCall s.calls) v))⟩

/-- The temp is the call's own, and holds these bytes. -/
def OwnTemp (s : State σ) (i : Nat) (temp : Text) (b : List UInt8) : Prop :=
  (∃ suffix, temp = tempName suffix) ∧ s.dir temp = some ⟨some i, .bytes b⟩

/-- What the call is about to write is its change of the file as it is. -/
def Fresh (fmt : Format σ) (s : State σ) (m : Mutation σ) (v : σ) : Prop :=
  ∃ u, s.current fmt = some u ∧ v = m.apply u

/-- What holds of a call at a stage: whether it has the lock, whether it took effect, and its temp. -/
def StageOk (fmt : Format σ) (s : State σ) (i : Nat) (m : Mutation σ) : Stage σ → Prop
  | .called => s.osLock ≠ some i ∧ i ∉ s.applied
  | .locked => s.osLock ≠ some i ∧ i ∉ s.applied
  | .exclusive => s.osLock = some i ∧ i ∉ s.applied
  | .saving v _ => s.osLock = some i ∧ i ∉ s.applied ∧ Fresh fmt s m v
  | .filling v temp rest => s.osLock = some i ∧ i ∉ s.applied ∧ Fresh fmt s m v ∧
      ∃ b, OwnTemp s i temp b ∧ b ++ rest = fmt.render v
  | .cleaning temp => s.osLock = some i ∧ i ∉ s.applied ∧ ∃ b, OwnTemp s i temp b
  | .replaced => s.osLock = some i ∧ i ∈ s.applied
  | .failing => s.osLock = some i ∧ i ∉ s.applied
  | .unlocked ok => s.osLock ≠ some i ∧ (i ∈ s.applied ↔ ok = true)
  | .returned ok => s.osLock ≠ some i ∧ (i ∈ s.applied ↔ ok = true)
  | .stopped => s.osLock ≠ some i

structure StateOk (fmt : Format σ) (start : Option Node) (s : State σ) : Prop where
  calls : ∀ i m, s.calls i = some m → StageOk fmt s i m m.stage
  /-- Calls are numbered as they are made. -/
  made : ∀ i, s.calls i ≠ none ↔ i < s.made
  file : FileOk fmt start s
  /-- A call has the lock. -/
  lock : ∀ {i}, s.osLock = some i → s.calls i ≠ none
  nodup : s.applied.Nodup
  applied : ∀ i ∈ s.applied, s.calls i ≠ none
  /-- A call that returned before another was made took effect before it. -/
  order : ∀ j m, s.calls j = some m → ∀ i ∈ m.after, i ∈ s.applied ∧ (j ∈ s.applied → [i, j].Sublist s.applied)

theorem tempName_ne (suffix : Text) : tempName suffix ≠ settingsFile := by
  intro h
  have hlen := congrArg List.length h
  unfold tempName at hlen
  rw [List.length_append, List.length_append] at hlen
  have htmp : ".tmp".toList.length = 4 := by decide
  omega

/-! ## What a step of another call leaves -/

/-- For a call that did not move: the lock, the calls that took effect, the file while it has the lock, and
    its own temps are as they were. -/
structure Keeps (fmt : Format σ) (s s' : State σ) (j : Nat) : Prop where
  osLock : s'.osLock = some j ↔ s.osLock = some j
  applied : j ∈ s'.applied ↔ j ∈ s.applied
  current : s.osLock = some j → s'.current fmt = s.current fmt
  temps : ∀ suffix b, s.dir (tempName suffix) = some ⟨some j, .bytes b⟩ →
    s'.dir (tempName suffix) = some ⟨some j, .bytes b⟩

theorem Keeps.ownTemp {fmt : Format σ} {s s' : State σ} {j : Nat} (h : Keeps fmt s s' j) {temp : Text}
    {b : List UInt8} (hown : OwnTemp s j temp b) : OwnTemp s' j temp b := by
  obtain ⟨⟨suffix, rfl⟩, hdir⟩ := hown
  exact ⟨⟨suffix, rfl⟩, h.temps suffix b hdir⟩

theorem Keeps.stageOk {fmt : Format σ} {s s' : State σ} {j : Nat} {m : Mutation σ} (h : Keeps fmt s s' j)
    {stage : Stage σ} (hok : StageOk fmt s j m stage) : StageOk fmt s' j m stage := by
  have hlock : s'.osLock ≠ some j ↔ s.osLock ≠ some j := not_congr h.osLock
  have happlied : j ∉ s'.applied ↔ j ∉ s.applied := not_congr h.applied
  have hfresh : s.osLock = some j → ∀ v, Fresh fmt s m v → Fresh fmt s' m v := by
    rintro hheld v ⟨u, hu, hv⟩
    exact ⟨u, (h.current hheld).trans hu, hv⟩
  cases stage with
  | called | locked => exact ⟨hlock.2 hok.1, happlied.2 hok.2⟩
  | exclusive => exact ⟨h.osLock.2 hok.1, happlied.2 hok.2⟩
  | saving v attempt => exact ⟨h.osLock.2 hok.1, happlied.2 hok.2.1, hfresh hok.1 v hok.2.2⟩
  | filling v temp rest =>
    obtain ⟨hheld, hnot, hf, b, hown, hb⟩ := hok
    exact ⟨h.osLock.2 hheld, happlied.2 hnot, hfresh hheld v hf, b, h.ownTemp hown, hb⟩
  | cleaning temp =>
    obtain ⟨hheld, hnot, b, hown⟩ := hok
    exact ⟨h.osLock.2 hheld, happlied.2 hnot, b, h.ownTemp hown⟩
  | replaced => exact ⟨h.osLock.2 hok.1, h.applied.2 hok.2⟩
  | failing => exact ⟨h.osLock.2 hok.1, happlied.2 hok.2⟩
  | unlocked ok | returned ok => exact ⟨hlock.2 hok.1, h.applied.trans hok.2⟩
  | stopped => exact hlock.2 hok

/-! ## Steps -/

section Steps

variable {fmt : Format σ} {start : Option Node} {s s' : State σ} {i : Nat} {m : Mutation σ}

/-- Another call's temp has changed. -/
theorem Keeps.of_temp (s s' : State σ) {temp : Text} (node : Option Node)
    (hdir : s'.dir = Function.update s.dir temp node) (hlock : s'.osLock = s.osLock) (happlied : s'.applied = s.applied)
    (htemp : ∃ suffix, temp = tempName suffix) {j : Nat}
    (hnot : ∀ b, s.dir temp ≠ some ⟨some j, .bytes b⟩) : Keeps fmt s s' j where
  osLock := by rw [hlock]
  applied := by rw [happlied]
  current := fun _ => by
    obtain ⟨suffix, rfl⟩ := htemp
    rw [State.current, State.current, hdir, Function.update_of_ne (tempName_ne suffix).symm]
  temps := fun suffix b h => by
    have hne : tempName suffix ≠ temp := by
      rintro rfl
      exact hnot b h
    rw [hdir, Function.update_of_ne hne]
    exact h

theorem applyCall_move (hm : s.calls i = some m) (stage : Stage σ) :
    applyCall (s.move i m stage).calls = applyCall s.calls := by
  funext v j
  unfold applyCall State.move
  dsimp only
  by_cases hj : j = i
  · subst hj
    rw [Function.update_self, hm]
  · rw [Function.update_of_ne hj]

theorem FileOk.of_eq (h : FileOk fmt start s) (hdir : s'.dir settingsFile = s.dir settingsFile)
    (happlied : s'.applied = s.applied) (hcalls : applyCall s'.calls = applyCall s.calls) :
    FileOk fmt start s' := by
  unfold FileOk
  rw [hdir, happlied, hcalls]
  exact h

/-- A call has moved on: what is to be shown is its own stage, what the others keep, and the file. -/
theorem StateOk.advance (h : StateOk fmt start s) (hm : s.calls i = some m) (stage : Stage σ)
    (hcalls : s'.calls = (s.move i m stage).calls) (hmade : s'.made = s.made)
    (hown : StageOk fmt s' i { m with stage := stage } stage) (hothers : ∀ j, j ≠ i → Keeps fmt s s' j)
    (hlock : ∀ j, s'.osLock = some j → j = i ∨ s.osLock = some j) (hfile : FileOk fmt start s')
    (happlied : s'.applied = s.applied ∨ s'.applied = s.applied ++ [i] ∧ i ∉ s.applied) :
    StateOk fmt start s' := by
  have hself : s'.calls i = some { m with stage := stage } := by
    rw [hcalls]
    exact Function.update_self ..
  have hother : ∀ j, j ≠ i → s'.calls j = s.calls j := by
    intro j hj
    rw [hcalls]
    exact Function.update_of_ne hj ..
  have hsome : ∀ j, s'.calls j ≠ none ↔ s.calls j ≠ none := by
    intro j
    by_cases hj : j = i
    · subst hj
      rw [hself, hm]
      simp
    · rw [hother j hj]
  have hafter : ∀ j m', s'.calls j = some m' → ∃ m'', s.calls j = some m'' ∧ m''.after = m'.after := by
    intro j m' hm'
    by_cases hj : j = i
    · subst hj
      rw [hself] at hm'
      cases hm'
      exact ⟨m, hm, rfl⟩
    · rw [hother j hj] at hm'
      exact ⟨m', hm', rfl⟩
  refine ⟨?_, ?_, hfile, ?_, ?_, ?_, ?_⟩
  · intro j m' hm'
    by_cases hj : j = i
    · subst hj
      rw [hself] at hm'
      cases hm'
      exact hown
    · rw [hother j hj] at hm'
      exact (hothers j hj).stageOk (h.calls j m' hm')
  · intro j
    rw [hsome, hmade]
    exact h.made j
  · intro j hj
    rw [hsome]
    rcases hlock j hj with rfl | hj
    · rw [hm]
      simp
    · exact h.lock hj
  · rcases happlied with happlied | ⟨happlied, hnot⟩
    · rw [happlied]
      exact h.nodup
    · rw [happlied]
      exact List.nodup_append.2 ⟨h.nodup, List.nodup_singleton i, fun a ha b hb heq => by
        rw [List.mem_singleton.1 hb] at heq
        exact hnot (heq ▸ ha)⟩
  · intro j hj
    rw [hsome]
    rcases happlied with happlied | ⟨happlied, -⟩
    · rw [happlied] at hj
      exact h.applied j hj
    · rw [happlied] at hj
      rcases List.mem_append.1 hj with hj | hj
      · exact h.applied j hj
      · rw [List.mem_singleton.1 hj, hm]
        simp
  · intro j m' hm' a ha
    obtain ⟨m'', hm'', hsame⟩ := hafter j m' hm'
    obtain ⟨hin, hsub⟩ := h.order j m'' hm'' a (hsame ▸ ha)
    rcases happlied with happlied | ⟨happlied, -⟩
    · rw [happlied]
      exact ⟨hin, hsub⟩
    · rw [happlied]
      refine ⟨List.mem_append_left _ hin, fun hj => ?_⟩
      rcases List.mem_append.1 hj with hj | hj
      · exact (hsub hj).trans (List.sublist_append_left _ _)
      · rw [List.mem_singleton.1 hj]
        exact (List.singleton_sublist.2 hin).append (List.Sublist.refl [i])

/-- A step that touches neither files nor locks. -/
theorem StageOk.moves {stage stage' : Stage σ} (hok : StageOk fmt s i m stage)
    (hmoves : Moves fmt s m stage stage') : StageOk fmt s i m stage' := by
  cases hmoves with
  | read hread => exact ⟨hok.1, hok.2, _, hread, rfl⟩
  | readFailed | createExists htaken hmore => exact hok
  | saveFailed => exact ⟨hok.1, hok.2.1⟩
  | fillFailed =>
    obtain ⟨hheld, hnot, -, b, hown, -⟩ := hok
    exact ⟨hheld, hnot, b, hown⟩
  | removeFailed => exact ⟨hok.1, hok.2.1⟩
  | dirFailed => exact ⟨hok.1, by simp [hok.2]⟩

theorem StateOk.act (h : StateOk fmt start s) (hstep : Step fmt s (.act i) s') : StateOk fmt start s' := by
  cases hstep with
  | @move _ m stage hm hmoves =>
    have hok : StageOk fmt s i m stage := (h.calls i m hm).moves hmoves
    exact h.advance hm stage rfl rfl hok (fun j _ => ⟨Iff.rfl, Iff.rfl, fun _ => rfl, fun _ _ hd => hd⟩)
      (fun j hj => .inr hj) (h.file.of_eq rfl rfl (applyCall_move hm stage)) (.inl rfl)
  | @lockProcess _ m hm hstage hfree =>
    have hok := h.calls i m hm
    rw [hstage] at hok
    exact h.advance hm .locked rfl rfl hok (fun j _ => ⟨Iff.rfl, Iff.rfl, fun _ => rfl, fun _ _ hd => hd⟩)
      (fun j hj => .inr hj) (h.file.of_eq rfl rfl (applyCall_move hm _)) (.inl rfl)
  | @lockOs _ m hm hstage hfree =>
    have hok := h.calls i m hm
    rw [hstage] at hok
    refine h.advance hm .exclusive rfl rfl ⟨rfl, hok.2⟩ ?_
      (fun j hj => .inl (Option.some.inj hj).symm) (h.file.of_eq rfl rfl (applyCall_move hm _)) (.inl rfl)
    intro j hj
    refine ⟨?_, Iff.rfl, fun _ => rfl, fun _ _ hd => hd⟩
    rw [hfree]
    simp [Ne.symm hj]
  | @create _ m v attempt suffix hm hstage hfree =>
    have hok := h.calls i m hm
    rw [hstage] at hok
    obtain ⟨hheld, hnot, u, hu, hv⟩ := hok
    have hsettings : Function.update s.dir (tempName suffix) (some ⟨some i, .bytes []⟩) settingsFile =
        s.dir settingsFile := Function.update_of_ne (tempName_ne suffix).symm ..
    refine h.advance hm (.filling v (tempName suffix) (fmt.render v)) rfl rfl
      ⟨hheld, hnot, ⟨u, ?_, hv⟩, [], ⟨⟨suffix, rfl⟩, Function.update_self ..⟩, rfl⟩ ?_
      (fun j hj => .inr hj) (h.file.of_eq hsettings rfl (applyCall_move hm _)) (.inl rfl)
    · rw [← hu, State.current, State.current]
      exact congrArg _ hsettings
    · intro j _
      apply Keeps.of_temp _ _ (some ⟨some i, .bytes []⟩) _ _ _ ⟨suffix, rfl⟩ (fun b => by rw [hfree]; simp)
      all_goals rfl
  | @write _ m v temp part rest b owner hm hstage hfile =>
    have hok := h.calls i m hm
    rw [hstage] at hok
    obtain ⟨hheld, hnot, ⟨u, hu, hv⟩, b', ⟨⟨suffix, rfl⟩, hdir⟩, hb⟩ := hok
    obtain ⟨rfl, rfl⟩ : owner = some i ∧ b = b' := by
      rw [hfile] at hdir
      simpa using hdir
    have hsettings : Function.update s.dir (tempName suffix) (some ⟨some i, .bytes (b ++ part)⟩)
        settingsFile = s.dir settingsFile := Function.update_of_ne (tempName_ne suffix).symm ..
    refine h.advance hm (.filling v (tempName suffix) rest) rfl rfl
      ⟨hheld, hnot, ⟨u, ?_, hv⟩, b ++ part, ⟨⟨suffix, rfl⟩, Function.update_self ..⟩, ?_⟩ ?_
      (fun j hj => .inr hj) (h.file.of_eq hsettings rfl (applyCall_move hm _)) (.inl rfl)
    · rw [← hu, State.current, State.current]
      exact congrArg _ hsettings
    · rw [List.append_assoc]
      exact hb
    · intro j hj
      apply Keeps.of_temp _ _ (some ⟨some i, .bytes (b ++ part)⟩) _ _ _ ⟨suffix, rfl⟩
        (fun c => by rw [hdir]; simp [Ne.symm hj])
      all_goals rfl
  | @rename _ m v temp node hm hstage hfile =>
    have hok := h.calls i m hm
    rw [hstage] at hok
    obtain ⟨hheld, hnot, ⟨u, hu, hv⟩, b, ⟨⟨suffix, rfl⟩, hdir⟩, hb⟩ := hok
    obtain rfl : node = ⟨some i, .bytes (fmt.render v)⟩ := by
      rw [hfile] at hdir
      rw [List.append_nil] at hb
      rw [Option.some.inj hdir, hb]
    refine h.advance hm .replaced rfl rfl ⟨hheld, List.mem_append_right _ List.mem_cons_self⟩
      ?_ (fun j hj => .inr hj) ?_ (.inr ⟨rfl, hnot⟩)
    · intro j hj
      refine ⟨Iff.rfl, ?_, fun hlock => ?_, fun suffix' c hd => ?_⟩
      · rw [List.mem_append, List.mem_singleton]
        exact or_iff_left hj
      · rw [hheld] at hlock
        exact absurd (Option.some.inj hlock).symm hj
      · have hne : tempName suffix' ≠ tempName suffix := by
          intro heq
          rw [heq, hdir] at hd
          simp only [Option.some.injEq, Node.mk.injEq] at hd
          exact hj hd.1.symm
        dsimp only
        rw [Function.update_of_ne (tempName_ne suffix'), Function.update_of_ne hne]
        exact hd
    · refine .inr ?_
      rw [applyCall_move hm]
      -- the file as it was read is what the calls before have made
      obtain ⟨v₀, hv₀, hbefore⟩ : ∃ v₀, readContent fmt start = some v₀ ∧
          s.applied.foldl (applyCall s.calls) v₀ = u := by
        rcases h.file with ⟨hnone, hsame⟩ | ⟨v₀, owner, hv₀, hsame⟩
        · rw [State.current, hsame] at hu
          exact ⟨u, hu, by rw [hnone]; rfl⟩
        · refine ⟨v₀, hv₀, ?_⟩
          rw [State.current, hsame] at hu
          have hblank : isBlankBytes (fmt.render (s.applied.foldl (applyCall s.calls) v₀)) = false := by
            obtain ⟨c, hc, hwhite⟩ := fmt.render_not_blank (s.applied.foldl (applyCall s.calls) v₀)
            rw [isBlankBytes, List.all_eq_false]
            exact ⟨c, hc, hwhite⟩
          rw [readContent, hblank, if_neg (by simp), fmt.parse_render] at hu
          exact Option.some.inj hu
      refine ⟨v₀, some i, hv₀, ?_⟩
      dsimp only
      rw [Function.update_self, List.foldl_append, hbefore]
      show some _ = some (Node.mk (some i) (.bytes (fmt.render (applyCall s.calls u i))))
      rw [applyCall, hm, hv]
  | @remove _ m temp hm hstage =>
    have hok := h.calls i m hm
    rw [hstage] at hok
    obtain ⟨hheld, hnot, b, ⟨suffix, rfl⟩, hdir⟩ := hok
    have hsettings : Function.update s.dir (tempName suffix) none settingsFile = s.dir settingsFile :=
      Function.update_of_ne (tempName_ne suffix).symm ..
    refine h.advance hm .failing rfl rfl ⟨hheld, hnot⟩ ?_
      (fun j hj => .inr hj) (h.file.of_eq hsettings rfl (applyCall_move hm _)) (.inl rfl)
    intro j hj
    apply Keeps.of_temp _ _ none _ _ _ ⟨suffix, rfl⟩ (fun c => by rw [hdir]; simp [Ne.symm hj])
    all_goals rfl
  | @unlockOs _ m ok hm hstage =>
    have hok := h.calls i m hm
    rw [hstage] at hok
    have hheld : s.osLock = some i ∧ (i ∈ s.applied ↔ ok = true) := by
      cases ok with
      | true => exact ⟨hok.1, by simp [hok.2]⟩
      | false => exact ⟨hok.1, by simp [hok.2]⟩
    refine h.advance hm (.unlocked ok) rfl rfl ⟨by simp, hheld.2⟩ ?_
      (fun j hj => absurd hj (by simp)) (h.file.of_eq rfl rfl (applyCall_move hm _)) (.inl rfl)
    intro j hj
    refine ⟨?_, Iff.rfl, fun _ => rfl, fun _ _ hd => hd⟩
    rw [hheld.1]
    simp [Ne.symm hj]
  | @unlockProcess _ m ok hm hstage =>
    have hok := h.calls i m hm
    rw [hstage] at hok
    exact h.advance hm (.returned ok) rfl rfl hok (fun j _ => ⟨Iff.rfl, Iff.rfl, fun _ => rfl, fun _ _ hd => hd⟩)
      (fun j hj => .inr hj) (h.file.of_eq rfl rfl (applyCall_move hm _)) (.inl rfl)

/-- A call is made. -/
theorem StateOk.call (h : StateOk fmt start s) (process : Nat) (f : σ → σ) :
    StateOk fmt start { s with
      calls := Function.update s.calls s.made (some ⟨process, f, .called, s.succeeded⟩)
      made := s.made + 1 } := by
  have hnew : s.calls s.made = none := not_not.1 (mt (h.made s.made).1 (Nat.lt_irrefl _))
  have hother : ∀ j m', s.calls j = some m' → j ≠ s.made := by
    rintro j m' hm' rfl
    rw [hnew] at hm'
    exact absurd hm' (by simp)
  have hnotapplied : s.made ∉ s.applied := fun hmem => h.applied _ hmem hnew
  have hsucceeded : ∀ i ∈ s.succeeded, i ∈ s.applied := by
    intro i hi
    obtain ⟨-, hreturned⟩ := List.mem_filter.1 hi
    split at hreturned
    · next m hm =>
      have hok := h.calls i _ hm
      exact hok.2.2 rfl
    · exact absurd hreturned (by simp)
  have happly : ∀ v, s.applied.foldl (applyCall (Function.update s.calls s.made
      (some ⟨process, f, .called, s.succeeded⟩))) v = s.applied.foldl (applyCall s.calls) v := by
    intro v
    refine List.foldl_ext _ _ _ (fun v j hj => ?_)
    have hne : j ≠ s.made := by
      rintro rfl
      exact hnotapplied hj
    rw [applyCall, applyCall, Function.update_of_ne hne]
  refine ⟨?_, ?_, ?_, ?_, h.nodup, ?_, ?_⟩
  · intro j m' hm'
    dsimp only at hm'
    by_cases hj : j = s.made
    · subst hj
      rw [Function.update_self] at hm'
      cases hm'
      refine ⟨fun hlock => ?_, hnotapplied⟩
      exact h.lock hlock hnew
    · rw [Function.update_of_ne hj] at hm'
      have hkeeps : Keeps fmt s { s with
          calls := Function.update s.calls s.made (some ⟨process, f, .called, s.succeeded⟩)
          made := s.made + 1 } j := ⟨Iff.rfl, Iff.rfl, fun _ => rfl, fun _ _ hd => hd⟩
      exact hkeeps.stageOk (h.calls j m' hm')
  · intro j
    dsimp only
    by_cases hj : j = s.made
    · subst hj
      rw [Function.update_self]
      simp
    · rw [Function.update_of_ne hj, h.made]
      omega
  · rcases h.file with hsame | ⟨v, owner, hv, hsame⟩
    · exact .inl hsame
    · refine .inr ⟨v, owner, hv, ?_⟩
      dsimp only
      rw [happly]
      exact hsame
  · intro j hj
    dsimp only
    have hne : j ≠ s.made := by
      rintro rfl
      exact h.lock hj hnew
    rw [Function.update_of_ne hne]
    exact h.lock hj
  · intro j hj
    dsimp only
    have hne : j ≠ s.made := by
      rintro rfl
      exact hnotapplied hj
    rw [Function.update_of_ne hne]
    exact h.applied j hj
  · intro j m' hm' i hi
    dsimp only at hm'
    by_cases hj : j = s.made
    · subst hj
      rw [Function.update_self] at hm'
      cases hm'
      exact ⟨hsucceeded i hi, fun hmem => absurd hmem hnotapplied⟩
    · rw [Function.update_of_ne hj] at hm'
      exact h.order j m' hm' i hi

/-- A process stops: its calls have taken effect or not, and the locks are free for the others. -/
theorem StateOk.stop (h : StateOk fmt start s) (process : Nat) (hstep : Step fmt s (.stop process) s') :
    StateOk fmt start s' := by
  cases hstep
  -- a call after the stop is the call before it, at its stage or stopped
  have hcall : ∀ j m', (s.calls j).map (stopCall process) = some m' →
      ∃ m, s.calls j = some m ∧ m'.apply = m.apply ∧ m'.after = m.after ∧
        (m' = m ∧ (m.process ≠ process ∨ ∃ ok, m.stage = .returned ok) ∨
          m.process = process ∧ m'.stage = .stopped) := by
    intro j m' hm'
    obtain ⟨m, hm, heq⟩ := Option.map_eq_some_iff.1 hm'
    refine ⟨m, hm, ?_⟩
    unfold stopCall at heq
    split at heq
    · next ok hstage =>
      subst heq
      exact ⟨rfl, rfl, .inl ⟨rfl, .inr ⟨ok, hstage⟩⟩⟩
    · split at heq
      · next hprocess =>
        subst heq
        exact ⟨rfl, rfl, .inr ⟨hprocess, rfl⟩⟩
      · next hprocess =>
        subst heq
        exact ⟨rfl, rfl, .inl ⟨rfl, .inl hprocess⟩⟩
  have hsome : ∀ j, (s.calls j).map (stopCall process) ≠ none ↔ s.calls j ≠ none := by
    intro j
    rw [ne_eq, Option.map_eq_none_iff]
  have happly : applyCall (fun j => (s.calls j).map (stopCall process)) = applyCall s.calls := by
    funext v j
    unfold applyCall
    dsimp only
    cases hm : s.calls j with
    | none => rfl
    | some m =>
      show (stopCall process m).apply v = m.apply v
      unfold stopCall
      split
      · rfl
      · split <;> rfl
  have hlock : ∀ {j}, s.osLock.filter (fun i => (s.calls i).all (fun m => m.process != process)) = some j →
      s.osLock = some j := fun hj => (Option.filter_eq_some_iff.1 hj).1
  refine ⟨?_, ?_, ?_, ?_, h.nodup, ?_, ?_⟩
  · intro j m' hm'
    obtain ⟨m, hm, happ, -, hcase⟩ := hcall j m' hm'
    have hok := h.calls j m hm
    rcases hcase with ⟨rfl, hrest⟩ | ⟨hprocess, hstopped⟩
    · have hkeep : Keeps fmt s { s with
          calls := fun i => (s.calls i).map (stopCall process)
          osLock := s.osLock.filter (fun i => (s.calls i).all (fun m => m.process != process))
          processLock := Function.update s.processLock process none } j := by
        refine ⟨⟨hlock, fun hj => ?_⟩, Iff.rfl, fun _ => rfl, fun _ _ hd => hd⟩
        rcases hrest with hother | ⟨ok, hreturned⟩
        · exact Option.filter_eq_some_iff.2 ⟨hj, by rw [hm]; simpa using hother⟩
        · rw [hreturned] at hok
          exact absurd hj hok.1
      exact hkeep.stageOk hok
    · rw [hstopped]
      intro hj
      have hall := (Option.filter_eq_some_iff.1 hj).2
      rw [hm] at hall
      simp [hprocess] at hall
  · intro j
    rw [hsome]
    exact h.made j
  · exact h.file.of_eq rfl rfl happly
  · intro j hj
    rw [hsome]
    exact h.lock (hlock hj)
  · intro j hj
    rw [hsome]
    exact h.applied j hj
  · intro j m' hm' i hi
    obtain ⟨m, hm, -, hafter, -⟩ := hcall j m' hm'
    exact h.order j m hm i (hafter ▸ hi)

theorem StateOk.step {e : Event σ} (h : StateOk fmt start s) (hstep : Step fmt s e s') :
    StateOk fmt start s' := by
  cases e with
  | call process f =>
    cases hstep
    exact h.call process f
  | act i => exact h.act hstep
  | stop process => exact h.stop process hstep
  | read =>
    cases hstep
    exact h

end Steps

theorem stateOk_of_run {fmt : Format σ} {init : Text → Option Content} {events : List (Event σ)} {s : State σ}
    (hrun : Run (Step fmt) (State.start init) events s) :
    StateOk fmt ((State.start init : State σ).dir settingsFile) s := by
  refine hrun.invariant (fun _ s => StateOk fmt _ s) ?_ (fun _ _ _ _ _ h hstep => h.step hstep)
  refine ⟨?_, ?_, .inl ⟨rfl, rfl⟩, ?_, List.nodup_nil, ?_, ?_⟩
  · intro i m hm
    exact absurd hm (by simp [State.start])
  · intro i
    simp [State.start]
  · intro i hi
    exact absurd hi (by simp [State.start])
  · intro i hi
    exact absurd hi (by simp [State.start])
  · intro j m hm
    exact absurd hm (by simp [State.start])

/-- A call touches no file beside the settings but those it created itself. -/
theorem StateOk.foreign_kept {fmt : Format σ} {start : Option Node} {s s' : State σ} {e : Event σ}
    (h : StateOk fmt start s) (hstep : Step fmt s e s') {name : Text} {node : Node}
    (hname : name ≠ settingsFile) (hnode : s.dir name = some node)
    (hforeign : ∀ i, e = .act i → node.owner ≠ some i) : s'.dir name = some node := by
  have hnot : ∀ {i : Nat} {temp : Text} {b : List UInt8}, e = .act i → OwnTemp s i temp b → name ≠ temp := by
    rintro i temp b he ⟨-, hdir⟩ rfl
    rw [hnode] at hdir
    refine hforeign i he ?_
    rw [Option.some.inj hdir]
  cases hstep with
  | call | move hm hmoves | lockProcess hm hstage hfree | lockOs hm hstage hfree => exact hnode
  | @create i m v attempt suffix hm hstage hfree =>
    have hne : name ≠ tempName suffix := by
      rintro rfl
      rw [hfree] at hnode
      exact absurd hnode (by simp)
    exact (Function.update_of_ne hne ..).trans hnode
  | @write i m v temp part rest b owner hm hstage hfile =>
    have hok := h.calls i m hm
    rw [hstage] at hok
    obtain ⟨-, -, -, b', hown, -⟩ := hok
    exact (Function.update_of_ne (hnot rfl hown) ..).trans hnode
  | @rename i m v temp node' hm hstage hfile =>
    have hok := h.calls i m hm
    rw [hstage] at hok
    obtain ⟨-, -, -, b', hown, -⟩ := hok
    dsimp only
    rw [Function.update_of_ne hname, Function.update_of_ne (hnot rfl hown)]
    exact hnode
  | @remove i m temp hm hstage =>
    have hok := h.calls i m hm
    rw [hstage] at hok
    obtain ⟨-, -, b', hown⟩ := hok
    exact (Function.update_of_ne (hnot rfl hown) ..).trans hnode
  | unlockOs hm hstage | unlockProcess hm hstage | stop | read => exact hnode

/-- At every moment the settings are the file there was, or what one order of the calls made of it, with
    every call in it that returned `Ok` and each behind those that had returned before it was made. A file
    that cannot be read is left alone, and so is every temp but a call's own. -/
theorem settings_lose_no_update {fmt : Format σ} {init : Text → Option Content} {events : List (Event σ)}
    {s : State σ} (hrun : Run (Step fmt) (State.start init) events s) :
    (∃ order : List Nat, order.Nodup ∧ (∀ i ∈ order, s.calls i ≠ none) ∧
      (∀ i m, s.calls i = some m → m.stage = .returned true → i ∈ order) ∧
      (∀ j m, s.calls j = some m → ∀ i ∈ m.after, j ∈ order → [i, j].Sublist order) ∧
      (order = [] ∧ s.dir settingsFile = (State.start init : State σ).dir settingsFile ∨
        ∃ v owner b, readContent fmt ((State.start init : State σ).dir settingsFile) = some v ∧
          s.dir settingsFile = some ⟨owner, .bytes b⟩ ∧
          fmt.parse b = some (order.foldl (applyCall s.calls) v))) ∧
    (readContent fmt ((State.start init : State σ).dir settingsFile) = none →
      s.dir settingsFile = (State.start init : State σ).dir settingsFile) ∧
    (∀ e s', Step fmt s e s' → ∀ name node, name ≠ settingsFile → s.dir name = some node →
      (∀ i, e = .act i → node.owner ≠ some i) → s'.dir name = some node) := by
  have hok := stateOk_of_run hrun
  refine ⟨⟨s.applied, hok.nodup, hok.applied, ?_, ?_, ?_⟩, ?_, ?_⟩
  · intro i m hm hstage
    have hreturned := hok.calls i m hm
    rw [hstage] at hreturned
    exact hreturned.2.2 rfl
  · intro j m hm i hi hj
    exact (hok.order j m hm i hi).2 hj
  · rcases hok.file with hsame | ⟨v, owner, hv, hfile⟩
    · exact .inl hsame
    · exact .inr ⟨v, owner, _, hv, hfile, fmt.parse_render _⟩
  · intro hnone
    rcases hok.file with ⟨-, hsame⟩ | ⟨v, owner, hv, -⟩
    · exact hsame
    · rw [hnone] at hv
      exact absurd hv (by simp)
  · intro e s' hstep name node hname hnode hforeign
    exact hok.foreign_kept hstep hname hnode hforeign

/-! ## Two calls, one behind the other -/

/-- The format of settings that are one flag. -/
def flagFormat : Format Bool where
  parse b :=
    if b = Bytes.encode "\x7b\n  \"auto_update\": true\n\x7d".toList then some true
    else if b = Bytes.encode "\x7b\n  \"auto_update\": false\n\x7d".toList then some false
    else none
  render flag :=
    if flag then Bytes.encode "\x7b\n  \"auto_update\": true\n\x7d".toList
    else Bytes.encode "\x7b\n  \"auto_update\": false\n\x7d".toList
  default := true
  parse_render := by decide
  render_not_blank := by decide

/-- The state while a call is at a stage. -/
def State.during (s : State σ) (process : Nat) (f : σ → σ) (stage : Stage σ) (osLock : Option Nat)
    (processLock : Nat → Option Nat) (dir : Dir) (applied : List Nat) : State σ :=
  ⟨dir, osLock, processLock, Function.update s.calls s.made (some ⟨process, f, stage, s.succeeded⟩),
    s.made + 1, applied⟩

/-- A step to a state, in other words. -/
theorem Step.to {fmt : Format σ} {s t t' : State σ} {e : Event σ} (h : Step fmt s e t) (heq : t = t') :
    Step fmt s e t' := heq ▸ h

/-- A call that runs alone and meets no failure. -/
theorem exists_call {fmt : Format σ} {s : State σ} {process : Nat} {f : σ → σ} {v : σ} (hos : s.osLock = none)
    (hprocess : s.processLock process = none) (htemp : s.dir (tempName []) = none)
    (hread : readContent fmt (s.dir settingsFile) = some v) :
    ∃ events processLock dir, Run (Step fmt) s events
        (s.during process f (.returned true) none processLock dir (s.applied ++ [s.made])) ∧
      (∀ p, s.processLock p = none → processLock p = none) ∧ dir (tempName []) = none ∧
      dir settingsFile = some ⟨some s.made, .bytes (fmt.render (f v))⟩ := by
  have hcall : ∀ stage osLock processLock dir applied,
      (s.during process f stage osLock processLock dir applied).calls s.made =
        some ⟨process, f, stage, s.succeeded⟩ := fun _ _ _ _ _ => Function.update_self ..
  let locked := Function.update s.processLock process (some s.made)
  let created := Function.update s.dir (tempName []) (some ⟨some s.made, .bytes []⟩)
  let node : Node := ⟨some s.made, .bytes (fmt.render (f v))⟩
  let filled := Function.update created (tempName []) (some node)
  let renamed := Function.update (Function.update filled (tempName []) none) settingsFile (some node)
  let unlocked := Function.update locked process none
  have h : Run (Step fmt) s [.call process f] (s.during process f .called none s.processLock s.dir s.applied) :=
    Run.single (.to .call (by simp [State.during, hos]))
  have h : Run (Step fmt) s _ (s.during process f .locked none locked s.dir s.applied) :=
    h.snoc (.to (.lockProcess (hcall ..) rfl hprocess) (by simp [State.move, State.during, locked]))
  have h : Run (Step fmt) s _ (s.during process f .exclusive (some s.made) locked s.dir s.applied) :=
    h.snoc (.to (.lockOs (hcall ..) rfl rfl) (by simp [State.move, State.during]))
  have h : Run (Step fmt) s _ (s.during process f (.saving (f v) 0) (some s.made) locked s.dir s.applied) :=
    h.snoc (.to (.move (hcall ..) (.read hread)) (by simp [State.move, State.during]))
  have h : Run (Step fmt) s _ (s.during process f (.filling (f v) (tempName []) (fmt.render (f v)))
      (some s.made) locked created s.applied) :=
    h.snoc (.to (.create (hcall ..) rfl htemp) (by simp [State.move, State.during, created]))
  have h : Run (Step fmt) s _ (s.during process f (.filling (f v) (tempName []) []) (some s.made) locked filled
      s.applied) :=
    h.snoc (.to (@Step.write _ _ _ _ _ _ _ (fmt.render (f v)) [] _ _ (hcall ..) (by rw [List.append_nil])
      (Function.update_self ..))
      (by simp [State.move, State.during, filled, node]))
  have h : Run (Step fmt) s _ (s.during process f .replaced (some s.made) locked renamed
      (s.applied ++ [s.made])) :=
    h.snoc (.to (.rename (hcall ..) rfl (show filled (tempName []) = some node from Function.update_self ..))
      (by simp [State.move, State.during, renamed]))
  have h : Run (Step fmt) s _ (s.during process f (.unlocked true) none locked renamed (s.applied ++ [s.made])) :=
    h.snoc (.to (@Step.unlockOs _ _ _ _ _ true (hcall ..) rfl) (by simp [State.move, State.during]))
  have h : Run (Step fmt) s _ (s.during process f (.returned true) none unlocked renamed
      (s.applied ++ [s.made])) :=
    h.snoc (.to (.unlockProcess (hcall ..) rfl) (by simp [State.move, State.during, unlocked]))
  refine ⟨_, _, _, h, fun p hp => ?_, ?_, Function.update_self ..⟩
  · simp only [unlocked, locked, Function.update_idem, Function.update_apply, hp, ite_self]
  · simp only [renamed, Function.update_of_ne (tempName_ne []), Function.update_self]

/-- There is no file. One call switches the flag off, and one of another process, made behind it, turns the
    flag round: both return `Ok`, and the file says so. -/
theorem flag_turned_twice_is_stored : ∃ (events : List (Event Bool)) (s : State Bool) (m m' : Mutation Bool),
    Run (Step flagFormat) (State.start (fun _ => none)) events s ∧
      (s.calls 0 = some m ∧ m.stage = .returned true) ∧ (s.calls 1 = some m' ∧ m'.stage = .returned true) ∧
      ∃ owner b, s.dir settingsFile = some ⟨owner, .bytes b⟩ ∧ flagFormat.parse b = some true := by
  obtain ⟨events, locks, dir, h, hfree, htemp, hfile⟩ := @exists_call _ flagFormat (State.start (fun _ => none)) 0
    (fun _ => false) true rfl rfl rfl rfl
  have hread : readContent flagFormat (dir settingsFile) = some false := by
    rw [hfile]
    decide
  obtain ⟨events', locks', dir', h', -⟩ := @exists_call _ flagFormat
    ((State.start (fun _ => none)).during 0 (fun _ => false) (.returned true) none locks dir [0]) 1 not false rfl
    (hfree 1 rfl) htemp hread
  obtain ⟨⟨order, hnodup, hcalls, hreturned, hafter, hstored⟩, -⟩ := settings_lose_no_update (h.append h')
  have hboth : [0, 1].Sublist order := hafter 1 _ rfl 0 (List.mem_singleton_self 0) (hreturned 1 _ rfl rfl)
  have honly : ∀ i ∈ order, i ∈ [0, 1] := by
    intro i hi
    by_contra hne
    simp only [List.mem_cons, List.not_mem_nil, or_false, not_or] at hne
    refine hcalls i hi ?_
    simp [State.during, State.start, hne]
  have horder : order = [0, 1] :=
    (hboth.eq_of_length_le (List.subperm_of_subset hnodup honly).length_le).symm
  refine ⟨_, _, _, _, h.append h', ⟨rfl, rfl⟩, ⟨rfl, rfl⟩, ?_⟩
  rcases hstored with ⟨hnil, -⟩ | ⟨v, owner, b, hv, hfile, hparse⟩
  · rw [hnil] at horder
    cases horder
  · refine ⟨owner, b, hfile, ?_⟩
    rw [hparse, horder]
    obtain rfl : true = v := Option.some.inj hv
    rfl

end Settings
