import AzAppToolkit.Remediation.Redundant

set_option autoImplicit false

/-! # Manifest edits

The pure edits of `commands/permissions/manifest.rs` on a `requiredResourceAccess` list, read as its
list of entries: a resource together with an access declared on it. One resource may have several
blocks. `declare_resource_access` consults the first of them, the other helpers all of them. -/

namespace Remediation

/-! ## The edits -/

/-- Push an access on the first block of the resource, or on a block of its own. -/
def pushAccess (resourceAppId : Text) (access : ResourceAccess) :
    List RequiredResourceAccess → List RequiredResourceAccess
  | [] => [⟨resourceAppId, [access]⟩]
  | r :: rest =>
    if r.resourceAppId == resourceAppId then
      { r with resourceAccess := r.resourceAccess ++ [access] } :: rest
    else r :: pushAccess resourceAppId access rest

/-- The first block of the resource. -/
def firstBlock (required : List RequiredResourceAccess) (resourceAppId : Text) :
    Option RequiredResourceAccess :=
  required.find? (fun r => r.resourceAppId == resourceAppId)

/-- Add an access unless it is declared; whether the manifest changed. -/
def declareResourceAccess (required : List RequiredResourceAccess)
    (resourceAppId permissionId entryType : Text) : List RequiredResourceAccess × Bool :=
  let already := (firstBlock required resourceAppId).any (fun r =>
    r.resourceAccess.any (fun a => a.id == permissionId && a.type == entryType))
  if already then (required, false)
  else (pushAccess resourceAppId ⟨permissionId, entryType⟩ required, true)

/-- Replace a declared broad role by a narrow one; whether the manifest changed. -/
def swapDeclaredRole (required : List RequiredResourceAccess)
    (resourceAppId broadId narrowId : Text) : List RequiredResourceAccess × Bool :=
  let step := removeDeclaredAccess required resourceAppId broadId (some roleType)
  if !step.2 then (step.1, false)
  else
    let narrowDeclared := step.1.any (fun r => r.resourceAppId == resourceAppId &&
      r.resourceAccess.any (fun a => a.id == narrowId && a.type == roleType))
    if narrowDeclared then (step.1, true)
    else (pushAccess resourceAppId ⟨narrowId, roleType⟩ step.1, true)

/-! ## Entries -/

/-- A resource and an access declared on it. -/
abbrev Entry := Text × ResourceAccess

def RequiredResourceAccess.entries (r : RequiredResourceAccess) : List Entry :=
  r.resourceAccess.map (fun a => (r.resourceAppId, a))

/-- The manifest as its entries, block by block. -/
def entriesOf (required : List RequiredResourceAccess) : List Entry :=
  required.flatMap RequiredResourceAccess.entries

/-- The entry is on the resource and matches. -/
def matchesOn (resourceAppId permissionId : Text) (entryType : Option Text) (e : Entry) : Bool :=
  e.1 == resourceAppId && matchesEntry permissionId entryType e.2

theorem mem_entries {r : RequiredResourceAccess} {e : Entry} :
    e ∈ r.entries ↔ e.1 = r.resourceAppId ∧ e.2 ∈ r.resourceAccess := by
  unfold RequiredResourceAccess.entries
  constructor
  · intro h
    obtain ⟨a, ha, rfl⟩ := List.mem_map.1 h
    exact ⟨rfl, ha⟩
  · rintro ⟨hresource, ha⟩
    exact List.mem_map.2 ⟨e.2, ha, by rw [← hresource]⟩

variable {required : List RequiredResourceAccess}

theorem mem_entriesOf {e : Entry} :
    e ∈ entriesOf required ↔
      ∃ r ∈ required, e.1 = r.resourceAppId ∧ e.2 ∈ r.resourceAccess := by
  unfold entriesOf
  rw [List.mem_flatMap]
  simp only [mem_entries]

/-- Dropping blocks that declare nothing drops no entry. -/
theorem entriesOf_prune (required : List RequiredResourceAccess) :
    entriesOf (required.filter (fun r => !r.resourceAccess.isEmpty)) = entriesOf required := by
  induction required with
  | nil => rfl
  | cons r rest ih =>
    unfold entriesOf at ih ⊢
    cases haccess : r.resourceAccess with
    | nil => simp [haccess, ih, RequiredResourceAccess.entries]
    | cons a as => simp [haccess, ih]

/-- The new entry goes between two parts of the old list. -/
theorem entriesOf_pushAccess (resourceAppId : Text) (access : ResourceAccess)
    (required : List RequiredResourceAccess) :
    ∃ before after, entriesOf required = before ++ after ∧
      entriesOf (pushAccess resourceAppId access required)
        = before ++ (resourceAppId, access) :: after := by
  induction required with
  | nil => exact ⟨[], [], rfl, rfl⟩
  | cons r rest ih =>
    unfold pushAccess
    by_cases hr : (r.resourceAppId == resourceAppId) = true
    · rw [if_pos hr]
      have hresource : r.resourceAppId = resourceAppId := eq_of_beq hr
      refine ⟨r.entries, entriesOf rest, by simp [entriesOf], ?_⟩
      simp [entriesOf, RequiredResourceAccess.entries, hresource]
    · rw [if_neg hr]
      obtain ⟨before, after, hold, hnew⟩ := ih
      refine ⟨r.entries ++ before, after, ?_, ?_⟩
      · rw [List.append_assoc, ← hold]
        simp [entriesOf]
      · rw [List.append_assoc, ← hnew]
        simp [entriesOf]

theorem mem_entriesOf_pushAccess {resourceAppId : Text} {access : ResourceAccess} {e : Entry} :
    e ∈ entriesOf (pushAccess resourceAppId access required) ↔
      e ∈ entriesOf required ∨ e = (resourceAppId, access) := by
  obtain ⟨before, after, hold, hnew⟩ := entriesOf_pushAccess resourceAppId access required
  rw [hold, hnew]
  simp only [List.mem_append, List.mem_cons]
  tauto

theorem count_entriesOf_pushAccess (resourceAppId : Text) (access : ResourceAccess)
    (required : List RequiredResourceAccess) (e : Entry) :
    (entriesOf (pushAccess resourceAppId access required)).count e
      = (entriesOf required).count e + if (resourceAppId, access) = e then 1 else 0 := by
  obtain ⟨before, after, hold, hnew⟩ := entriesOf_pushAccess resourceAppId access required
  rw [hold, hnew, List.count_append, List.count_append, List.count_cons]
  simp only [beq_iff_eq]
  omega

/-! ## What each helper does to the entries -/

theorem removeDeclaredAccess_snd (required : List RequiredResourceAccess)
    (resourceAppId permissionId : Text) (entryType : Option Text) :
    (removeDeclaredAccess required resourceAppId permissionId entryType).2 = true ↔
      ∃ e ∈ entriesOf required, matchesOn resourceAppId permissionId entryType e = true := by
  have hflag : (removeDeclaredAccess required resourceAppId permissionId entryType).2
      = required.any (fun r => r.resourceAppId == resourceAppId &&
          r.resourceAccess.any (matchesEntry permissionId entryType)) := by
    unfold removeDeclaredAccess
    by_cases hany : required.any (fun r => r.resourceAppId == resourceAppId &&
      r.resourceAccess.any (matchesEntry permissionId entryType)) = true
    · simp only [hany, if_true]
    · simp only [hany, Bool.false_eq_true, if_false]
  rw [hflag, List.any_eq_true]
  constructor
  · rintro ⟨r, hr, hhit⟩
    rw [Bool.and_eq_true, List.any_eq_true] at hhit
    obtain ⟨hresource, a, ha, hmatches⟩ := hhit
    refine ⟨(r.resourceAppId, a), mem_entriesOf.2 ⟨r, hr, rfl, ha⟩, ?_⟩
    unfold matchesOn
    rw [hresource, hmatches]
    rfl
  · rintro ⟨e, he, hmatches⟩
    obtain ⟨r, hr, hresource, ha⟩ := mem_entriesOf.1 he
    unfold matchesOn at hmatches
    rw [Bool.and_eq_true, hresource] at hmatches
    refine ⟨r, hr, ?_⟩
    rw [Bool.and_eq_true, List.any_eq_true]
    exact ⟨hmatches.1, e.2, ha, hmatches.2⟩

/-- The blocks after the filter of one resource, before empty blocks go. -/
theorem entriesOf_dropMatching (required : List RequiredResourceAccess)
    (resourceAppId permissionId : Text) (entryType : Option Text) :
    entriesOf (required.map (fun r =>
      if r.resourceAppId == resourceAppId then
        { r with resourceAccess :=
            r.resourceAccess.filter (fun a => !matchesEntry permissionId entryType a) }
      else r))
      = (entriesOf required).filter
          (fun e => !matchesOn resourceAppId permissionId entryType e) := by
  induction required with
  | nil => rfl
  | cons r rest ih =>
    unfold entriesOf at ih ⊢
    rw [List.map_cons, List.flatMap_cons, List.flatMap_cons, List.filter_append, ih]
    congr 1
    unfold RequiredResourceAccess.entries
    rw [List.filter_map]
    by_cases hr : (r.resourceAppId == resourceAppId) = true
    · rw [if_pos hr]
      congr 1
      apply List.filter_congr
      intro a _
      simp [matchesOn, hr]
    · rw [if_neg hr]
      congr 1
      symm
      apply List.filter_eq_self.2
      intro a _
      simp [matchesOn, hr]

theorem entriesOf_removeDeclaredAccess (required : List RequiredResourceAccess)
    (resourceAppId permissionId : Text) (entryType : Option Text) :
    entriesOf (removeDeclaredAccess required resourceAppId permissionId entryType).1
      = (entriesOf required).filter
          (fun e => !matchesOn resourceAppId permissionId entryType e) := by
  rw [← entriesOf_dropMatching]
  unfold removeDeclaredAccess
  simp only
  split
  · exact entriesOf_prune _
  · rfl

/-- Without a match no block changes. -/
theorem map_dropMatching_of_none {resourceAppId permissionId : Text} {entryType : Option Text}
    (h : ∀ e ∈ entriesOf required, matchesOn resourceAppId permissionId entryType e = false) :
    required.map (fun r =>
      if r.resourceAppId == resourceAppId then
        { r with resourceAccess :=
            r.resourceAccess.filter (fun a => !matchesEntry permissionId entryType a) }
      else r) = required := by
  conv_rhs => rw [← List.map_id required]
  apply List.map_congr_left
  intro r hr
  by_cases hresource : (r.resourceAppId == resourceAppId) = true
  · rw [if_pos hresource]
    have hkept : r.resourceAccess.filter (fun a => !matchesEntry permissionId entryType a)
        = r.resourceAccess := by
      apply List.filter_eq_self.2
      intro a ha
      have hno := h (r.resourceAppId, a) (mem_entriesOf.2 ⟨r, hr, rfl, ha⟩)
      unfold matchesOn at hno
      rw [hresource, Bool.true_and] at hno
      rw [hno]
      rfl
    rw [hkept]
    rfl
  · rw [if_neg hresource]
    rfl

/-- Without a match the manifest is as it was. -/
theorem removeDeclaredAccess_of_none {resourceAppId permissionId : Text} {entryType : Option Text}
    (h : ∀ e ∈ entriesOf required, matchesOn resourceAppId permissionId entryType e = false) :
    removeDeclaredAccess required resourceAppId permissionId entryType = (required, false) := by
  have hflag : (removeDeclaredAccess required resourceAppId permissionId entryType).2 = false := by
    rw [Bool.eq_false_iff]
    intro htrue
    obtain ⟨e, he, hmatches⟩ := (removeDeclaredAccess_snd ..).1 htrue
    rw [h e he] at hmatches
    exact Bool.noConfusion hmatches
  have hsame := map_dropMatching_of_none h
  unfold removeDeclaredAccess at hflag ⊢
  simp only at hflag ⊢
  split at hflag
  · exact absurd hflag Bool.noConfusion
  · next hany => rw [if_neg hany, hsame]

theorem matchesOn_role (resourceAppId permissionId : Text) (e : Entry) :
    matchesOn resourceAppId permissionId (some roleType) e = true ↔
      e = (resourceAppId, ⟨permissionId, roleType⟩) := by
  obtain ⟨resource, id, type⟩ := e
  simp [matchesOn, matchesEntry]
  tauto

theorem any_isEntry {accesses : List ResourceAccess} {id type : Text} :
    accesses.any (fun a => a.id == id && a.type == type) = true ↔ ⟨id, type⟩ ∈ accesses := by
  rw [List.any_eq_true]
  constructor
  · rintro ⟨⟨id', type'⟩, ha, hsame⟩
    simp only [Bool.and_eq_true, beq_iff_eq] at hsame
    obtain ⟨rfl, rfl⟩ := hsame
    exact ha
  · intro ha
    exact ⟨⟨id, type⟩, ha, by simp⟩

/-! ### The first block -/

theorem firstBlock_mem {resourceAppId : Text}
    {r : RequiredResourceAccess} (h : firstBlock required resourceAppId = some r) :
    r ∈ required ∧ r.resourceAppId = resourceAppId := by
  unfold firstBlock at h
  have hid := List.find?_some h
  exact ⟨List.mem_of_find?_eq_some h, eq_of_beq hid⟩

/-- The first block of the resource holds the access. -/
def InFirstBlock (required : List RequiredResourceAccess) (resourceAppId : Text)
    (a : ResourceAccess) : Prop :=
  ∃ r, firstBlock required resourceAppId = some r ∧ a ∈ r.resourceAccess

theorem InFirstBlock.mem {resourceAppId : Text}
    {a : ResourceAccess} (h : InFirstBlock required resourceAppId a) :
    (resourceAppId, a) ∈ entriesOf required := by
  obtain ⟨r, hfirst, ha⟩ := h
  obtain ⟨hr, hresource⟩ := firstBlock_mem hfirst
  exact mem_entriesOf.2 ⟨r, hr, hresource.symm, ha⟩

theorem inFirstBlock_pushAccess (resourceAppId : Text) (access : ResourceAccess)
    (required : List RequiredResourceAccess) :
    InFirstBlock (pushAccess resourceAppId access required) resourceAppId access := by
  unfold InFirstBlock firstBlock
  induction required with
  | nil => exact ⟨⟨resourceAppId, [access]⟩, by simp [pushAccess], by simp⟩
  | cons r rest ih =>
    unfold pushAccess
    by_cases hr : (r.resourceAppId == resourceAppId) = true
    · rw [if_pos hr]
      refine ⟨{ r with resourceAccess := r.resourceAccess ++ [access] }, ?_, by simp⟩
      rw [List.find?_cons_of_pos]
      exact hr
    · rw [if_neg hr]
      simp only [List.find?_cons, hr]
      exact ih

theorem declareResourceAccess_of_first {resourceAppId permissionId entryType : Text}
    (h : InFirstBlock required resourceAppId ⟨permissionId, entryType⟩) :
    declareResourceAccess required resourceAppId permissionId entryType = (required, false) := by
  obtain ⟨r, hfirst, ha⟩ := h
  unfold declareResourceAccess
  simp only [hfirst, Option.any_some]
  rw [if_pos (any_isEntry.2 ha)]

theorem declareResourceAccess_of_not_first {resourceAppId permissionId entryType : Text}
    (h : ¬ InFirstBlock required resourceAppId ⟨permissionId, entryType⟩) :
    declareResourceAccess required resourceAppId permissionId entryType
      = (pushAccess resourceAppId ⟨permissionId, entryType⟩ required, true) := by
  unfold declareResourceAccess
  simp only
  rw [if_neg]
  intro halready
  rw [Option.any_eq_true] at halready
  obtain ⟨r, hfirst, hany⟩ := halready
  exact h ⟨r, hfirst, any_isEntry.1 hany⟩

/-! ### The swap -/

theorem swapDeclaredRole_of_absent {resourceAppId broadId narrowId : Text}
    (h : (resourceAppId, ⟨broadId, roleType⟩) ∉ entriesOf required) :
    swapDeclaredRole required resourceAppId broadId narrowId = (required, false) := by
  have hnone : ∀ e ∈ entriesOf required,
      matchesOn resourceAppId broadId (some roleType) e = false := by
    intro e he
    rw [Bool.eq_false_iff]
    intro hmatches
    rw [(matchesOn_role ..).1 hmatches] at he
    exact h he
  unfold swapDeclaredRole
  simp only [removeDeclaredAccess_of_none hnone, Bool.not_false, if_true]

/-- The blocks the swap declares the narrow role in. -/
def withoutRole (required : List RequiredResourceAccess) (resourceAppId id : Text) :
    List RequiredResourceAccess :=
  (removeDeclaredAccess required resourceAppId id (some roleType)).1

theorem mem_withoutRole {resourceAppId id : Text} {e : Entry} :
    e ∈ entriesOf (withoutRole required resourceAppId id) ↔
      e ∈ entriesOf required ∧ e ≠ (resourceAppId, ⟨id, roleType⟩) := by
  unfold withoutRole
  rw [entriesOf_removeDeclaredAccess, List.mem_filter, Bool.not_eq_true', Bool.eq_false_iff, ne_eq,
    matchesOn_role]

/-- The narrow role is pushed unless some block declares it. -/
theorem swapDeclaredRole_of_present {resourceAppId broadId narrowId : Text}
    (h : (resourceAppId, ⟨broadId, roleType⟩) ∈ entriesOf required) :
    swapDeclaredRole required resourceAppId broadId narrowId
      = (if (resourceAppId, ⟨narrowId, roleType⟩)
            ∈ entriesOf (withoutRole required resourceAppId broadId) then
          withoutRole required resourceAppId broadId
        else pushAccess resourceAppId ⟨narrowId, roleType⟩
          (withoutRole required resourceAppId broadId), true) := by
  have hflag : (removeDeclaredAccess required resourceAppId broadId (some roleType)).2 = true :=
    (removeDeclaredAccess_snd ..).2 ⟨_, h, (matchesOn_role ..).2 rfl⟩
  have hdeclared : (withoutRole required resourceAppId broadId).any
      (fun r => r.resourceAppId == resourceAppId &&
        r.resourceAccess.any (fun a => a.id == narrowId && a.type == roleType)) = true ↔
      (resourceAppId, ⟨narrowId, roleType⟩)
        ∈ entriesOf (withoutRole required resourceAppId broadId) := by
    rw [List.any_eq_true, mem_entriesOf]
    constructor
    · rintro ⟨r, hr, hhit⟩
      rw [Bool.and_eq_true, any_isEntry] at hhit
      exact ⟨r, hr, (eq_of_beq hhit.1).symm, hhit.2⟩
    · rintro ⟨r, hr, hresource, ha⟩
      refine ⟨r, hr, ?_⟩
      rw [Bool.and_eq_true, any_isEntry]
      exact ⟨beq_iff_eq.2 hresource.symm, ha⟩
  unfold swapDeclaredRole
  simp only [hflag, Bool.not_true, Bool.false_eq_true, if_false]
  change (if (withoutRole required resourceAppId broadId).any _ = true then
    (withoutRole required resourceAppId broadId, true) else _) = _
  by_cases hnarrow : (resourceAppId, ⟨narrowId, roleType⟩)
      ∈ entriesOf (withoutRole required resourceAppId broadId)
  · rw [if_pos (hdeclared.2 hnarrow), if_pos hnarrow]
  · rw [if_neg (fun hany => hnarrow (hdeclared.1 hany)), if_neg hnarrow]
    rfl

theorem withoutRole_nonempty {resourceAppId id : Text}
    (h : (resourceAppId, ⟨id, roleType⟩) ∈ entriesOf required) :
    ∀ r ∈ withoutRole required resourceAppId id, r.resourceAccess ≠ [] := by
  intro r hr
  have hflag : (removeDeclaredAccess required resourceAppId id (some roleType)).2 = true :=
    (removeDeclaredAccess_snd ..).2 ⟨_, h, (matchesOn_role ..).2 rfl⟩
  unfold withoutRole removeDeclaredAccess at hr
  unfold removeDeclaredAccess at hflag
  simp only at hr hflag
  split at hflag
  · next hany =>
    rw [if_pos hany] at hr
    have hfull := (List.mem_filter.1 hr).2
    simpa using hfull
  · exact absurd hflag Bool.noConfusion

/-- Dropping what was pushed leads back, where no block was empty and none held it. -/
theorem withoutRole_pushAccess {resourceAppId id : Text} (hfull : ∀ r ∈ required, r.resourceAccess ≠ [])
    (hnone : (resourceAppId, ⟨id, roleType⟩) ∉ entriesOf required) :
    withoutRole (pushAccess resourceAppId ⟨id, roleType⟩ required) resourceAppId id = required := by
  have hflag : (removeDeclaredAccess (pushAccess resourceAppId ⟨id, roleType⟩ required)
      resourceAppId id (some roleType)).2 = true :=
    (removeDeclaredAccess_snd ..).2
      ⟨_, mem_entriesOf_pushAccess.2 (Or.inr rfl), (matchesOn_role ..).2 rfl⟩
  have hshape : withoutRole (pushAccess resourceAppId ⟨id, roleType⟩ required) resourceAppId id
      = ((pushAccess resourceAppId ⟨id, roleType⟩ required).map (fun r =>
        if r.resourceAppId == resourceAppId then
          { r with resourceAccess :=
              r.resourceAccess.filter (fun a => !matchesEntry id (some roleType) a) }
        else r)).filter (fun r => !r.resourceAccess.isEmpty) := by
    unfold withoutRole
    unfold removeDeclaredAccess at hflag ⊢
    simp only at hflag ⊢
    split at hflag
    · next hany => rw [if_pos hany]
    · exact absurd hflag Bool.noConfusion
  have hmatches : matchesEntry id (some roleType) ⟨id, roleType⟩ = true := by
    simp [matchesEntry]
  rw [hshape]
  clear hflag hshape
  induction required with
  | nil => simp [pushAccess, hmatches]
  | cons r rest ih =>
    have hrest : ∀ e ∈ entriesOf (r :: rest),
        matchesOn resourceAppId id (some roleType) e = false := by
      intro e he
      rw [Bool.eq_false_iff]
      intro hmatch
      rw [(matchesOn_role ..).1 hmatch] at he
      exact hnone he
    have hsame := map_dropMatching_of_none hrest
    rw [List.map_cons, List.cons.injEq] at hsame
    have hnonempty : (!r.resourceAccess.isEmpty) = true := by
      have := hfull r (List.mem_cons_self ..)
      cases haccess : r.resourceAccess with
      | nil => exact absurd haccess this
      | cons a as => rfl
    have hrestfull : rest.filter (fun r => !r.resourceAccess.isEmpty) = rest := by
      apply List.filter_eq_self.2
      intro r' hr'
      have := hfull r' (List.mem_cons_of_mem _ hr')
      cases haccess : r'.resourceAccess with
      | nil => exact absurd haccess this
      | cons a as => rfl
    unfold pushAccess
    by_cases hr : (r.resourceAppId == resourceAppId) = true
    · rw [if_pos hr] at hsame ⊢
      have hkept : r.resourceAccess.filter (fun a => !matchesEntry id (some roleType) a)
          = r.resourceAccess := congrArg RequiredResourceAccess.resourceAccess hsame.1
      rw [List.map_cons, if_pos hr, hsame.2]
      simp only [List.filter_append, hkept, hmatches, Bool.not_true, Bool.false_eq_true,
        not_false_eq_true, List.filter_cons_of_neg, List.filter_nil, List.append_nil]
      rw [List.filter_cons, if_pos hnonempty, hrestfull]
    · rw [if_neg hr] at hsame ⊢
      rw [List.map_cons, if_neg hr, List.filter_cons, if_pos hnonempty,
        ih (fun r' hr' => hfull r' (List.mem_cons_of_mem _ hr'))]
      intro hmem
      apply hnone
      unfold entriesOf at hmem ⊢
      rw [List.flatMap_cons]
      exact List.mem_append_right _ hmem

/-! ## Edits as operations on the set of entries -/

inductive Edit where
  | declare (resourceAppId permissionId entryType : Text)
  | remove (resourceAppId permissionId : Text) (entryType : Option Text)
  | swap (resourceAppId broadId narrowId : Text)

namespace Edit

/-- The code's edit: the manifest it leaves and what it returns. -/
def run : Edit → List RequiredResourceAccess → List RequiredResourceAccess × Bool
  | .declare resource id type, required => declareResourceAccess required resource id type
  | .remove resource id type, required => removeDeclaredAccess required resource id type
  | .swap resource broad narrow, required => swapDeclaredRole required resource broad narrow

/-- The edit has something to do. -/
def Due : Edit → Set Entry → Prop
  | .declare resource id type, s => (resource, ⟨id, type⟩) ∉ s
  | .remove resource id type, s => ∃ e ∈ s, matchesOn resource id type e = true
  | .swap resource broad _, s => (resource, ⟨broad, roleType⟩) ∈ s

/-- What the edit is on the set: an insertion, a removal, or a removal followed by an insertion
    where there was something to remove. -/
def onSet : Edit → Set Entry → Set Entry
  | .declare resource id type, s => insert (resource, ⟨id, type⟩) s
  | .remove resource id type, s => s \ {e | matchesOn resource id type e = true}
  | .swap resource broad narrow, s =>
    {e | ((resource, ⟨broad, roleType⟩) ∈ s →
          e ∈ insert (resource, ⟨narrow, roleType⟩)
            (s \ {e | matchesOn resource broad (some roleType) e = true})) ∧
        ((resource, ⟨broad, roleType⟩) ∉ s → e ∈ s)}

/-- The set of entries of a manifest. -/
def entrySet (required : List RequiredResourceAccess) : Set Entry := {e | e ∈ entriesOf required}

/-- The edit is the set operation on this manifest. -/
structure Exact (edit : Edit) (required : List RequiredResourceAccess) : Prop where
  flag : (edit.run required).2 = true ↔ edit.Due (entrySet required)
  unchanged : (edit.run required).2 = false → (edit.run required).1 = required
  result : entrySet (edit.run required).1 = edit.onSet (entrySet required)
  again : (edit.run (edit.run required).1).1 = (edit.run required).1
  noNewDuplicate : ∀ e, 2 ≤ (entriesOf (edit.run required).1).count e →
    2 ≤ (entriesOf required).count e

/-- A declaration that a later block of the resource holds and the first one does not. -/
def Shadowed : Edit → List RequiredResourceAccess → Prop
  | .declare resource id type, required =>
    (resource, ⟨id, type⟩) ∈ entriesOf required ∧ ¬ InFirstBlock required resource ⟨id, type⟩
  | _, _ => False

theorem count_remove_le (required : List RequiredResourceAccess) (resource id : Text)
    (type : Option Text) (e : Entry) :
    (entriesOf (removeDeclaredAccess required resource id type).1).count e
      ≤ (entriesOf required).count e := by
  rw [entriesOf_removeDeclaredAccess]
  exact (List.filter_sublist (p := _)).count_le e

theorem exact_declare {resource id type : Text} (h : ¬ (Edit.declare resource id type).Shadowed required) :
    (Edit.declare resource id type).Exact required := by
  by_cases hfirst : InFirstBlock required resource ⟨id, type⟩
  · have hrun : (Edit.declare resource id type).run required = (required, false) :=
      declareResourceAccess_of_first hfirst
    constructor
    · rw [hrun]
      constructor
      · intro hfalse
        exact absurd hfalse Bool.noConfusion
      · intro habsent
        exact absurd hfirst.mem habsent
    · rw [hrun]
      exact fun _ => rfl
    · rw [hrun]
      have hmem : (resource, ⟨id, type⟩) ∈ entrySet required := hfirst.mem
      exact (Set.insert_eq_of_mem hmem).symm
    · rw [hrun, hrun]
    · rw [hrun]
      exact fun _ hcount => hcount
  · have habsent : (resource, ⟨id, type⟩) ∉ entriesOf required :=
      fun hmem => h ⟨hmem, hfirst⟩
    have hrun : (Edit.declare resource id type).run required
        = (pushAccess resource ⟨id, type⟩ required, true) :=
      declareResourceAccess_of_not_first hfirst
    constructor
    · rw [hrun]
      exact ⟨fun _ => habsent, fun _ => rfl⟩
    · rw [hrun]
      intro htrue
      exact absurd htrue Bool.noConfusion
    · rw [hrun]
      ext e
      simp only [entrySet, Set.mem_ofPred_eq, mem_entriesOf_pushAccess, onSet, Set.mem_insert_iff]
      exact or_comm
    · rw [hrun]
      change (declareResourceAccess _ resource id type).1 = _
      rw [declareResourceAccess_of_first (inFirstBlock_pushAccess ..)]
    · rw [hrun]
      intro e hcount
      rw [count_entriesOf_pushAccess] at hcount
      by_cases he : (resource, (⟨id, type⟩ : ResourceAccess)) = e
      · have hzero : (entriesOf required).count e = 0 := List.count_eq_zero.2 (he ▸ habsent)
        rw [if_pos he] at hcount
        omega
      · rw [if_neg he] at hcount
        omega

theorem exact_remove (required : List RequiredResourceAccess) (resource id : Text)
    (type : Option Text) : (Edit.remove resource id type).Exact required := by
  constructor
  · exact removeDeclaredAccess_snd required resource id type
  · intro hfalse
    have hnone : ∀ e ∈ entriesOf required, matchesOn resource id type e = false := by
      intro e he
      rw [Bool.eq_false_iff]
      intro hmatches
      have htrue := (removeDeclaredAccess_snd required resource id type).2 ⟨e, he, hmatches⟩
      rw [show (removeDeclaredAccess required resource id type).2 = false from hfalse] at htrue
      exact Bool.noConfusion htrue
    exact congrArg Prod.fst (removeDeclaredAccess_of_none hnone)
  · ext e
    change e ∈ entriesOf (removeDeclaredAccess required resource id type).1 ↔ _
    rw [entriesOf_removeDeclaredAccess, List.mem_filter, Bool.not_eq_true', Bool.eq_false_iff]
    rfl
  · have hnone : ∀ e ∈ entriesOf (removeDeclaredAccess required resource id type).1,
        matchesOn resource id type e = false := by
      intro e he
      rw [entriesOf_removeDeclaredAccess] at he
      simpa using (List.mem_filter.1 he).2
    change (removeDeclaredAccess (removeDeclaredAccess required resource id type).1
      resource id type).1 = _
    rw [removeDeclaredAccess_of_none hnone]
    rfl
  · intro e hcount
    exact le_trans hcount (count_remove_le required resource id type e)

theorem exact_swap (required : List RequiredResourceAccess) (resource broad narrow : Text) :
    (Edit.swap resource broad narrow).Exact required := by
  by_cases hbroad : (resource, ⟨broad, roleType⟩) ∈ entriesOf required
  · have hrun : (Edit.swap resource broad narrow).run required = _ :=
      @swapDeclaredRole_of_present required resource broad narrow hbroad
    have hnobroad : (resource, ⟨broad, roleType⟩)
        ∉ entriesOf (withoutRole required resource broad) := fun hmem => (mem_withoutRole.1 hmem).2 rfl
    constructor
    · rw [hrun]
      exact ⟨fun _ => hbroad, fun _ => rfl⟩
    · rw [hrun]
      intro htrue
      exact absurd htrue Bool.noConfusion
    · rw [hrun]
      ext e
      have hset : e ∈ (Edit.swap resource broad narrow).onSet (entrySet required) ↔
          e = (resource, ⟨narrow, roleType⟩) ∨ e ∈ entriesOf (withoutRole required resource broad) := by
        simp only [onSet, entrySet, Set.mem_ofPred_eq, hbroad, forall_const, not_true_eq_false,
          false_implies, and_true, Set.mem_insert_iff, Set.mem_sdiff, matchesOn_role,
          mem_withoutRole, ne_eq]
      rw [hset]
      by_cases hnarrow : (resource, ⟨narrow, roleType⟩)
          ∈ entriesOf (withoutRole required resource broad)
      · rw [if_pos hnarrow]
        constructor
        · exact Or.inr
        · rintro (rfl | he)
          · exact hnarrow
          · exact he
      · rw [if_neg hnarrow]
        simp only [entrySet, Set.mem_ofPred_eq, mem_entriesOf_pushAccess]
        exact or_comm
    · rw [hrun]
      by_cases hnarrow : (resource, ⟨narrow, roleType⟩)
          ∈ entriesOf (withoutRole required resource broad)
      · rw [if_pos hnarrow]
        change (swapDeclaredRole _ resource broad narrow).1 = _
        rw [swapDeclaredRole_of_absent hnobroad]
      · rw [if_neg hnarrow]
        by_cases hsame : broad = narrow
        · subst hsame
          -- the broad role itself was put back: the second run takes it out and puts it back
          have hback := withoutRole_pushAccess (withoutRole_nonempty hbroad) hnarrow
          change (swapDeclaredRole _ resource broad broad).1 = _
          rw [swapDeclaredRole_of_present (mem_entriesOf_pushAccess.2 (Or.inr rfl)), hback,
            if_neg hnarrow]
        · have habsent : (resource, ⟨broad, roleType⟩) ∉ entriesOf (pushAccess resource
              ⟨narrow, roleType⟩ (withoutRole required resource broad)) := by
            intro hmem
            rcases mem_entriesOf_pushAccess.1 hmem with hmem | heq
            · exact hnobroad hmem
            · simp only [Prod.mk.injEq, ResourceAccess.mk.injEq, and_true, true_and] at heq
              exact hsame heq
          change (swapDeclaredRole _ resource broad narrow).1 = _
          rw [swapDeclaredRole_of_absent habsent]
    · rw [hrun]
      intro e hcount
      have hle := count_remove_le required resource broad (some roleType) e
      change (entriesOf (withoutRole required resource broad)).count e ≤ _ at hle
      by_cases hnarrow : (resource, ⟨narrow, roleType⟩)
          ∈ entriesOf (withoutRole required resource broad)
      · rw [if_pos hnarrow] at hcount
        exact le_trans hcount hle
      · rw [if_neg hnarrow, count_entriesOf_pushAccess] at hcount
        by_cases he : (resource, (⟨narrow, roleType⟩ : ResourceAccess)) = e
        · have hzero : (entriesOf (withoutRole required resource broad)).count e = 0 :=
            List.count_eq_zero.2 (he ▸ hnarrow)
          rw [if_pos he] at hcount
          omega
        · rw [if_neg he] at hcount
          omega
  · have hrun : (Edit.swap resource broad narrow).run required = (required, false) :=
      swapDeclaredRole_of_absent hbroad
    constructor
    · rw [hrun]
      constructor
      · intro hfalse
        exact absurd hfalse Bool.noConfusion
      · intro hpresent
        exact absurd hpresent hbroad
    · rw [hrun]
      exact fun _ => rfl
    · rw [hrun]
      ext e
      simp only [onSet, entrySet, Set.mem_ofPred_eq, hbroad, false_implies, true_and,
        not_false_eq_true, forall_const]
    · rw [hrun, hrun]
    · rw [hrun]
      exact fun _ hcount => hcount

end Edit

/-- An edit is the set operation it stands for unless it declares an entry that only a later block
    of its resource holds. -/
theorem manifest_edit_exact (edit : Edit) (required : List RequiredResourceAccess) :
    edit.Exact required ↔ ¬ edit.Shadowed required := by
  constructor
  · intro hexact hshadowed
    cases edit with
    | declare resource id type =>
      obtain ⟨hmem, hfirst⟩ := hshadowed
      have hrun : (Edit.declare resource id type).run required = _ :=
        declareResourceAccess_of_not_first hfirst
      have hflag := hexact.flag
      rw [hrun] at hflag
      exact hflag.1 rfl hmem
    | remove resource id type | swap resource broad narrow => exact hshadowed
  · intro hclear
    cases edit with
    | declare resource id type => exact Edit.exact_declare hclear
    | remove resource id type => exact Edit.exact_remove required resource id type
    | swap resource broad narrow => exact Edit.exact_swap required resource broad narrow

/-- Two blocks of one resource: the role of the second is declared once more, in the first. -/
theorem manifest_edit_not_exact :
    ¬ ∀ (edit : Edit) (required : List RequiredResourceAccess), edit.Exact required := by
  intro h
  have hexact := h (.declare "graph".toList "role-1".toList "Role".toList)
    [⟨"graph".toList, [⟨"scope-1".toList, "Scope".toList⟩]⟩,
      ⟨"graph".toList, [⟨"role-1".toList, "Role".toList⟩]⟩]
  have htwice := hexact.noNewDuplicate ("graph".toList, ⟨"role-1".toList, "Role".toList⟩)
    (by decide)
  exact absurd htwice (by decide)

end Remediation
