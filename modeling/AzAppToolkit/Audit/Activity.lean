import AzAppToolkit.Audit.Scoring
import AzAppToolkit.Graph.Errors
import AzAppToolkit.Lib.Grouping
import AzAppToolkit.Lib.Separators

set_option autoImplicit false

/-! # Two readings of the activity reports

The sign-in report folded by the audit and by the Activity tab, and the credential report folded by the
audit and by the Credentials tab. Of the sign-ins the audit keeps the last row of an application and the tab
the first; of a credential both keep the newest date. -/

namespace Audit

/-! ## Rows -/

structure SignInActivity where
  lastSignInDateTime : Option Timestamp

structure ServicePrincipalSignInActivity where
  appId : Option Text
  lastSignInActivity : Option SignInActivity

structure AppCredentialSignInActivity where
  appId : Option Text
  keyId : Option Text
  signInActivity : Option SignInActivity

def ServicePrincipalSignInActivity.date (row : ServicePrincipalSignInActivity) : Option Timestamp :=
  row.lastSignInActivity.bind SignInActivity.lastSignInDateTime

def AppCredentialSignInActivity.date (row : AppCredentialSignInActivity) : Option Timestamp :=
  row.signInActivity.bind SignInActivity.lastSignInDateTime

/-! ## Sign-ins -/

inductive AuditCoverageGap where
  | signInActivity

structure SignInPrefetch where
  available : Bool
  consentRequired : Bool
  signIns : Table Text (Option Timestamp)
  gap : Option AuditCoverageGap

/-- Of the rows of one application the map has the last. -/
def signInActivityOutcome (read : Except Graph.GraphError (List ServicePrincipalSignInActivity)) :
    SignInPrefetch :=
  match read with
  | .ok items =>
    ⟨true, false, Grouping.group Prod.fst (fun _ row => row.2)
      (items.filterMap fun a => a.appId.map fun id => (id, a.date)) ∅, none⟩
  | .error err => ⟨false, false, ∅, if err.isRetryable then some .signInActivity else none⟩

def lastSignInFor (prefetch : SignInPrefetch) (appId : Text) : Option (Option Timestamp) :=
  if prefetch.available then some ((prefetch.signIns.lookup appId).join) else none

def pickLastSignIn (items : List ServicePrincipalSignInActivity) (appId : Text) : Option Timestamp :=
  (items.find? fun a => a.appId == some appId).bind ServicePrincipalSignInActivity.date

/-! ## Credentials -/

inductive CredentialActivity where
  | unknown
  | never
  | lastSeen (date : Timestamp)

/-- The ids of a row that has both. -/
def AppCredentialSignInActivity.ids (row : AppCredentialSignInActivity) : Option (Text × Text) :=
  match row.appId, row.keyId with
  | some appId, some keyId => if appId.isEmpty || keyId.isEmpty then none else some (appId, keyId)
  | _, _ => none

/-- The rows that have both ids, with their dates. -/
def tracked (rows : List AppCredentialSignInActivity) : List ((Text × Text) × Option Timestamp) :=
  rows.filterMap fun row => row.ids.map fun ids => (ids, row.date)

def activityKey (ids : Text × Text) : Text := ids.1 ++ '|' :: ids.2

/-- The entry of a credential after one more row. -/
def CredentialActivity.after (entry : Option CredentialActivity) (date : Option Timestamp) :
    CredentialActivity :=
  match date with
  | none => entry.getD .never
  | some dt =>
    match entry.getD .never with
    | .lastSeen prev => if prev < dt then .lastSeen dt else .lastSeen prev
    | _ => .lastSeen dt

/-- The report's part of the run: whether it could be read, and the entries of the credentials. -/
def prefetchCredentialActivity (report : Option (List AppCredentialSignInActivity)) :
    Bool × Table Text CredentialActivity :=
  match report with
  | some rows =>
    (true, Grouping.group (fun row => activityKey row.1)
      (fun entry row => CredentialActivity.after entry row.2) (tracked rows) ∅)
  | none => (false, ∅)

def credentialActivityFor (prefetch : Bool × Table Text CredentialActivity) (appId keyId : Text) :
    CredentialActivity :=
  if prefetch.1 then (prefetch.2.lookup (activityKey (appId, keyId))).getD .unknown else .unknown

structure CredentialUsageRow where
  appId : Text
  keyId : Text
  lastUsed : Option Timestamp

/-- The date of a credential after one more row. -/
def usedAfter (entry : Option (Option Timestamp)) (date : Option Timestamp) : Option Timestamp :=
  match date with
  | none => entry.getD none
  | some dt =>
    match entry.getD none with
    | some prev => if dt ≤ prev then some prev else some dt
    | none => some dt

def CredentialUsageRow.before (a b : CredentialUsageRow) : Bool :=
  decide (a.appId < b.appId ∨ a.appId = b.appId ∧ a.keyId ≤ b.keyId)

def mergedUsage (rows : List AppCredentialSignInActivity) : Table (Text × Text) (Option Timestamp) :=
  Grouping.group Prod.fst (fun entry row => usedAfter entry row.2) (tracked rows) ∅

structure CredentialUsageDto where
  available : Bool
  rows : List CredentialUsageRow

def listCredentialUsage (report : Option (List AppCredentialSignInActivity)) : CredentialUsageDto :=
  match report with
  | some rows =>
    ⟨true, ((mergedUsage rows).entries.map fun e => ⟨e.1.1, e.1.2, e.2⟩).mergeSort CredentialUsageRow.before⟩
  | none => ⟨false, []⟩

/-- The date of a credential's cell after one more row of the answer. -/
def shownAfter (entry : Option (Option Timestamp)) (lastUsed : Option Timestamp) : Option Timestamp :=
  match lastUsed with
  | none => entry.getD none
  | some dt =>
    match entry.getD none with
    | none => some dt
    | some prev => if prev < dt then some dt else some prev

/-- The cells of the tab: no entry where nothing is known, an empty one where no use is recorded. -/
def usageLookup (usage : Option CredentialUsageDto) : Table (Text × Text) (Option Timestamp) :=
  match usage.filter CredentialUsageDto.available with
  | none => ∅
  | some dto =>
    Grouping.group (fun r => (r.appId, r.keyId)) (fun entry r => shownAfter entry r.lastUsed) dto.rows ∅

/-! ## What a principal's rows say -/

/-- The newest of the dates that are there. -/
def newest (dates : List (Option Timestamp)) : Option Timestamp := dates.reduceOption.max?

def signInDates (items : List ServicePrincipalSignInActivity) (appId : Text) : List (Option Timestamp) :=
  (items.filter fun a => a.appId == some appId).map ServicePrincipalSignInActivity.date

def credentialDates (rows : List AppCredentialSignInActivity) (appId keyId : Text) : List (Option Timestamp) :=
  (rows.filter fun row => row.appId == some appId && row.keyId == some keyId).map
    AppCredentialSignInActivity.date

section Newest

variable {dates : List (Option Timestamp)} {date : Option Timestamp}

theorem newest_eq_some_iff {d : Timestamp} :
    newest dates = some d ↔ some d ∈ dates ∧ ∀ e, some e ∈ dates → e ≤ d := by
  unfold newest
  rw [List.max?_eq_some_iff, List.reduceOption_mem_iff]
  simp only [List.reduceOption_mem_iff]

theorem newest_eq_none_iff : newest dates = none ↔ ∀ e, some e ∉ dates := by
  unfold newest
  rw [List.max?_eq_none_iff, List.eq_nil_iff_forall_not_mem]
  simp only [List.reduceOption_mem_iff]

theorem newest_of_mem_iff {other : Option Timestamp} (h : ∀ d, some d ∈ dates ↔ other = some d) :
    newest dates = other := by
  cases other with
  | none => exact newest_eq_none_iff.2 fun e he => nomatch (h e).1 he
  | some d =>
    refine newest_eq_some_iff.2 ⟨(h d).2 rfl, fun e he => ?_⟩
    obtain rfl := Option.some.inj ((h e).1 he)
    exact le_rfl

theorem newest_perm {dates' : List (Option Timestamp)} (h : dates'.Perm dates) :
    newest dates' = newest dates := by
  cases hnewest : newest dates with
  | none => exact newest_eq_none_iff.2 fun e he => newest_eq_none_iff.1 hnewest e (h.mem_iff.1 he)
  | some d =>
    obtain ⟨hmem, hle⟩ := newest_eq_some_iff.1 hnewest
    exact newest_eq_some_iff.2 ⟨h.mem_iff.2 hmem, fun e he => hle e (h.mem_iff.1 he)⟩

/-- One of the rows has the newest date if and only if none is dated later than it. -/
theorem eq_newest_iff (hmem : date ∈ dates) :
    date = newest dates ↔ ∀ d, some d ∈ dates → ∃ e, date = some e ∧ d ≤ e := by
  constructor
  · intro heq d hd
    cases hnewest : newest dates with
    | none => exact absurd hd (newest_eq_none_iff.1 hnewest d)
    | some e => exact ⟨e, heq.trans hnewest, (newest_eq_some_iff.1 hnewest).2 d hd⟩
  · intro h
    symm
    cases date with
    | none =>
      refine newest_eq_none_iff.2 fun d hd => ?_
      obtain ⟨e, he, -⟩ := h d hd
      cases he
    | some e =>
      refine newest_eq_some_iff.2 ⟨hmem, fun d hd => ?_⟩
      obtain ⟨e', he', hle⟩ := h d hd
      obtain rfl := Option.some.inj he'
      exact hle

end Newest

/-! ## The sign-ins -/

section SignIns

variable {items : List ServicePrincipalSignInActivity} {appId : Text}

theorem pickLastSignIn_eq : pickLastSignIn items appId = (signInDates items appId).head?.join := by
  unfold pickLastSignIn signInDates
  rw [← List.head?_filter, List.head?_map]
  cases (items.filter fun a => a.appId == some appId).head? <;> rfl

theorem signInDates_eq : signInDates items appId =
    ((items.filterMap fun a => a.appId.map fun id => (id, a.date)).filter fun row => row.1 = appId).map
      Prod.snd := by
  unfold signInDates
  induction items with
  | nil => rfl
  | cons a items ih =>
    cases hid : a.appId with
    | none => simp [hid, ih]
    | some id =>
      by_cases heq : id = appId
      · simp [hid, heq, ih]
      · simp [hid, heq, ih]

/-- Where later entries take the place of earlier ones, the last stays. -/
theorem foldl_last {α β : Type} (value : β → α) (rows : List β) (entry : Option α) :
    rows.foldl (fun _ row => some (value row)) entry = ((rows.map value).getLast?).or entry := by
  induction rows generalizing entry with
  | nil => rfl
  | cons row rows ih =>
    rw [List.foldl_cons, ih, List.map_cons, List.getLast?_cons]
    cases (rows.map value).getLast? <;> rfl

theorem lastSignInFor_eq : lastSignInFor (signInActivityOutcome (.ok items)) appId =
    some (signInDates items appId).getLast?.join := by
  unfold lastSignInFor signInActivityOutcome
  rw [if_pos rfl, Grouping.lookup_group, AList.lookup_empty, foldl_last Prod.snd, ← signInDates_eq,
    Option.or_none]

/-- No row of the application is dated later than its first one, or than its last one. -/
def EndsNewest (dates : List (Option Timestamp)) : Prop :=
  ∀ d, some d ∈ dates → (∃ e, dates.head? = some (some e) ∧ d ≤ e) ∧
    ∃ e, dates.getLast? = some (some e) ∧ d ≤ e

theorem end_newest_iff {dates : List (Option Timestamp)} {last : Option (Option Timestamp)}
    (hnil : dates = [] → last = none) (hmem : dates ≠ [] → ∃ date ∈ dates, last = some date) :
    last.join = newest dates ↔ ∀ d, some d ∈ dates → ∃ e, last = some (some e) ∧ d ≤ e := by
  by_cases hempty : dates = []
  · rw [hnil hempty, hempty]
    exact iff_of_true rfl fun d hd => absurd hd List.not_mem_nil
  · obtain ⟨date, hdate, rfl⟩ := hmem hempty
    rw [Option.join_some, eq_newest_iff hdate]
    simp only [Option.some.injEq]

theorem ends_newest_iff (dates : List (Option Timestamp)) :
    (dates.getLast?.join = newest dates ∧ dates.head?.join = newest dates) ↔ EndsNewest dates := by
  rw [end_newest_iff (fun h => by rw [h]; rfl)
      fun h => ⟨_, List.getLast_mem h, List.getLast?_eq_some_getLast h⟩,
    end_newest_iff (fun h => by rw [h]; rfl) fun h => ⟨_, List.head_mem h, List.head?_eq_some_head h⟩]
  exact ⟨fun h d hd => ⟨h.2 d hd, h.1 d hd⟩, fun h => ⟨fun d hd => (h d hd).2, fun d hd => (h d hd).1⟩⟩

theorem signInDates_perm {items' : List ServicePrincipalSignInActivity} (h : items'.Perm items) :
    (signInDates items' appId).Perm (signInDates items appId) :=
  (h.filter _).map _

/-- All rows of the application carry one date. -/
def OneDate (dates : List (Option Timestamp)) : Prop := ∀ date ∈ dates, ∀ date' ∈ dates, date = date'

theorem ends_of_oneDate {dates dates' : List (Option Timestamp)} (h : OneDate dates)
    (hperm : dates'.Perm dates) :
    dates'.head?.join = dates.head?.join ∧ dates'.getLast?.join = dates.getLast?.join := by
  by_cases hempty : dates = []
  · subst hempty
    rw [hperm.eq_nil]
    exact ⟨rfl, rfl⟩
  · have hempty' : dates' ≠ [] := fun hnil => hempty (hnil ▸ hperm).symm.eq_nil
    rw [List.head?_eq_some_head hempty, List.head?_eq_some_head hempty',
      List.getLast?_eq_some_getLast hempty, List.getLast?_eq_some_getLast hempty']
    exact ⟨h _ (hperm.mem_iff.1 (List.head_mem hempty')) _ (List.head_mem hempty),
      h _ (hperm.mem_iff.1 (List.getLast_mem hempty')) _ (List.getLast_mem hempty)⟩

/-- A row of the application that is moved to the front is the one the tab shows. -/
theorem pick_any_row {date : Option Timestamp} (hdate : date ∈ signInDates items appId) :
    ∃ items', items'.Perm items ∧ pickLastSignIn items' appId = date := by
  obtain ⟨row, hrow, rfl⟩ := List.mem_map.1 hdate
  obtain ⟨hmem, hid⟩ := List.mem_filter.1 hrow
  obtain ⟨front, back, rfl⟩ := List.append_of_mem hmem
  refine ⟨row :: (front ++ back), List.perm_middle.symm, ?_⟩
  unfold pickLastSignIn
  simp [hid]

theorem unordered_iff :
    (∀ items' : List ServicePrincipalSignInActivity, items'.Perm items →
      pickLastSignIn items' appId = pickLastSignIn items appId ∧
      lastSignInFor (signInActivityOutcome (.ok items')) appId =
        lastSignInFor (signInActivityOutcome (.ok items)) appId) ↔
      OneDate (signInDates items appId) := by
  constructor
  · intro h date hdate date' hdate'
    obtain ⟨items₁, hperm₁, rfl⟩ := pick_any_row hdate
    obtain ⟨items₂, hperm₂, rfl⟩ := pick_any_row hdate'
    exact (h items₁ hperm₁).1.trans (h items₂ hperm₂).1.symm
  · intro h items' hperm
    obtain ⟨hhead, hlast⟩ := ends_of_oneDate h (signInDates_perm hperm)
    rw [pickLastSignIn_eq, pickLastSignIn_eq, lastSignInFor_eq, lastSignInFor_eq, hhead, hlast]
    exact ⟨rfl, rfl⟩

end SignIns

/-! ## The credentials -/

/-- What is known of a credential that has rows, as the audit keeps it. -/
def seen : Option Timestamp → CredentialActivity
  | none => .never
  | some date => .lastSeen date

theorem after_eq (entry : Option (Option Timestamp)) (date : Option Timestamp) :
    CredentialActivity.after (entry.map seen) date = seen (Grouping.newer entry.join date) := by
  unfold CredentialActivity.after Grouping.newer
  cases date with
  | none => rcases entry with _ | _ | prev <;> rfl
  | some dt =>
    rcases entry with _ | _ | prev
    · rfl
    · rfl
    · change (if prev < dt then _ else _) = CredentialActivity.lastSeen (max prev dt)
      split
      · next h => rw [max_eq_right h.le]
      · next h => rw [max_eq_left (le_of_not_gt h)]

theorem usedAfter_eq (entry : Option (Option Timestamp)) (date : Option Timestamp) :
    usedAfter (entry.map id) date = id (Grouping.newer entry.join date) := by
  unfold usedAfter Grouping.newer
  cases date with
  | none => rcases entry with _ | _ | prev <;> rfl
  | some dt =>
    rcases entry with _ | _ | prev
    · rfl
    · rfl
    · change (if dt ≤ prev then _ else _) = some (max prev dt)
      split
      · next h => rw [max_eq_left h]
      · next h => rw [max_eq_right (le_of_not_ge h)]

theorem shownAfter_eq (entry : Option (Option Timestamp)) (date : Option Timestamp) :
    shownAfter (entry.map id) date = id (Grouping.newer entry.join date) := by
  unfold shownAfter Grouping.newer
  cases date with
  | none => rcases entry with _ | _ | prev <;> rfl
  | some dt =>
    rcases entry with _ | _ | prev
    · rfl
    · rfl
    · change (if prev < dt then _ else _) = some (max prev dt)
      split
      · next h => rw [max_eq_right h.le]
      · next h => rw [max_eq_left (le_of_not_gt h)]

section Credentials

variable {rows : List AppCredentialSignInActivity} {appId keyId : Text}

theorem ids_eq_iff {row : AppCredentialSignInActivity} (happ : appId ≠ []) (hkey : keyId ≠ []) :
    row.ids = some (appId, keyId) ↔ (row.appId == some appId && row.keyId == some keyId) = true := by
  unfold AppCredentialSignInActivity.ids
  rw [Bool.and_eq_true, beq_iff_eq, beq_iff_eq]
  cases row.appId with
  | none => simp
  | some app =>
    cases row.keyId with
    | none => simp
    | some key =>
      by_cases hempty : (app.isEmpty || key.isEmpty) = true
      · refine iff_of_false (by simp [hempty]) fun h => ?_
        obtain ⟨happ', hkey'⟩ := h
        rw [Option.some.inj happ', Option.some.inj hkey'] at hempty
        simp [happ, hkey] at hempty
      · simp [hempty]

/-- The rows of a credential are among the tracked ones. -/
theorem credentialDates_eq (happ : appId ≠ []) (hkey : keyId ≠ []) :
    credentialDates rows appId keyId =
      ((tracked rows).filter fun row => row.1 = (appId, keyId)).map Prod.snd := by
  unfold credentialDates tracked
  induction rows with
  | nil => rfl
  | cons row rows ih =>
    have hrow : row.ids = some (appId, keyId) ↔ _ := ids_eq_iff happ hkey
    cases hids : row.ids with
    | none =>
      have hno : (row.appId == some appId && row.keyId == some keyId) = false :=
        Bool.eq_false_iff.2 fun h => nomatch hids.symm.trans (hrow.2 h)
      simp only [List.filter_cons, hno, List.filterMap_cons, hids, Option.map_none]
      exact ih
    | some ids =>
      by_cases heq : ids = (appId, keyId)
      · subst heq
        simp only [List.filter_cons, hrow.1 hids, List.filterMap_cons, hids, Option.map_some,
          decide_true, if_true, List.map_cons, ih]
      · have hno : (row.appId == some appId && row.keyId == some keyId) = false :=
          Bool.eq_false_iff.2 fun h => heq (Option.some.inj (hids.symm.trans (hrow.2 h)))
        simp only [List.filter_cons, hno, List.filterMap_cons, hids, Option.map_some, heq,
          decide_false, Bool.false_eq_true, if_false, ih]

/-- Ids without a bar can be read back from their key. -/
theorem activityKey_inj {ids ids' : Text × Text} (h : '|' ∉ ids.1) (h' : '|' ∉ ids'.1) :
    activityKey ids = activityKey ids' ↔ ids = ids' := by
  refine ⟨fun heq => ?_, congrArg activityKey⟩
  obtain ⟨happ, hkey⟩ := Separators.append_sep_inj h h' heq
  exact Prod.ext happ hkey

theorem bar_notMem_of_tracked (hrows : ∀ row ∈ rows, ∀ id, row.appId = some id → '|' ∉ id)
    {row : (Text × Text) × Option Timestamp} (hrow : row ∈ tracked rows) : '|' ∉ row.1.1 := by
  obtain ⟨report, hreport, heq⟩ := List.mem_filterMap.1 hrow
  obtain ⟨ids, hids, rfl⟩ := Option.map_eq_some_iff.1 heq
  refine hrows report hreport ids.1 ?_
  unfold AppCredentialSignInActivity.ids at hids
  split at hids
  · next happ _ =>
    split at hids
    · cases hids
    · obtain rfl := Option.some.inj hids
      exact happ
  · cases hids

/-- The table the audit reads has the entry of the newest row of a credential. -/
theorem credentialActivityFor_eq (hrows : ∀ row ∈ rows, ∀ id, row.appId = some id → '|' ∉ id)
    (hbar : '|' ∉ appId) (happ : appId ≠ []) (hkey : keyId ≠ []) :
    credentialActivityFor (prefetchCredentialActivity (some rows)) appId keyId =
      if (credentialDates rows appId keyId).isEmpty then .unknown
      else seen (newest (credentialDates rows appId keyId)) := by
  have hsame : ((tracked rows).filter fun row => activityKey row.1 = activityKey (appId, keyId)) =
      (tracked rows).filter fun row => row.1 = (appId, keyId) := by
    refine List.filter_congr fun row hrow => decide_eq_decide.2 (activityKey_inj ?_ hbar)
    exact bar_notMem_of_tracked hrows hrow
  unfold credentialActivityFor prefetchCredentialActivity
  rw [if_pos rfl, Grouping.lookup_newest (fun row => activityKey row.1) Prod.snd seen CredentialActivity.after
    after_eq, hsame, credentialDates_eq happ hkey, List.isEmpty_map]
  unfold newest
  cases ((tracked rows).filter fun row => row.1 = (appId, keyId)).isEmpty <;> rfl

theorem mergedUsage_eq (happ : appId ≠ []) (hkey : keyId ≠ []) :
    (mergedUsage rows).lookup (appId, keyId) =
      if (credentialDates rows appId keyId).isEmpty then none
      else some (newest (credentialDates rows appId keyId)) := by
  unfold mergedUsage
  rw [Grouping.lookup_newest Prod.fst Prod.snd id usedAfter usedAfter_eq, credentialDates_eq happ hkey,
    List.isEmpty_map]
  rfl

/-- The tab is sent one row for a credential that has an entry. -/
theorem mem_listCredentialUsage {r : CredentialUsageRow} :
    r ∈ (listCredentialUsage (some rows)).rows ↔
      (mergedUsage rows).lookup (r.appId, r.keyId) = some r.lastUsed := by
  unfold listCredentialUsage
  rw [List.mem_mergeSort, List.mem_map, ← Option.mem_def, AList.mem_lookup_iff]
  constructor
  · rintro ⟨e, he, rfl⟩
    exact he
  · exact fun h => ⟨_, h, rfl⟩

theorem usageLookup_eq : (usageLookup (some (listCredentialUsage (some rows)))).lookup (appId, keyId) =
    (mergedUsage rows).lookup (appId, keyId) := by
  have hdates : ∀ date, date ∈ ((listCredentialUsage (some rows)).rows.filter fun r =>
    (r.appId, r.keyId) = (appId, keyId)).map CredentialUsageRow.lastUsed ↔
      (mergedUsage rows).lookup (appId, keyId) = some date := by
    intro date
    simp only [List.mem_map, List.mem_filter, decide_eq_true_eq, mem_listCredentialUsage]
    constructor
    · rintro ⟨r, ⟨hlookup, hids⟩, rfl⟩
      rw [← hids]
      exact hlookup
    · exact fun h => ⟨⟨appId, keyId, date⟩, ⟨h, rfl⟩, rfl⟩
  change (Grouping.group (fun r : CredentialUsageRow => (r.appId, r.keyId))
    (fun entry r => shownAfter entry r.lastUsed) (listCredentialUsage (some rows)).rows ∅).lookup _ = _
  rw [Grouping.lookup_newest _ CredentialUsageRow.lastUsed id shownAfter shownAfter_eq]
  cases hentry : (mergedUsage rows).lookup (appId, keyId) with
  | none =>
    have hnil := List.map_eq_nil_iff.1 <| List.eq_nil_iff_forall_not_mem.2 fun date hdate =>
      nomatch hentry.symm.trans ((hdates date).1 hdate)
    rw [hnil]
    rfl
  | some date =>
    have hmem := (hdates date).2 hentry
    have hsome := List.isEmpty_eq_false_iff.2 fun hnil => List.not_mem_nil ((congrArg (date ∈ ·)
      (List.map_eq_nil_iff.2 hnil)).mp hmem)
    have hnewest := newest_of_mem_iff fun d => (hdates (some d)).trans
      ⟨fun h => Option.some.inj (hentry.symm.trans h), fun h => hentry.trans (congrArg some h)⟩
    rw [if_neg (ne_true_of_eq_false hsome)]
    exact congrArg some hnewest

/-- What the surfaces say of one credential: the newest date of its rows, that no use is recorded where it
    has rows and none is dated, nothing where it has no row. -/
structure CredentialNewest (rows : List AppCredentialSignInActivity) (appId keyId : Text) : Prop where
  lastSeen : ∀ date,
    (credentialActivityFor (prefetchCredentialActivity (some rows)) appId keyId = .lastSeen date ↔
      newest (credentialDates rows appId keyId) = some date) ∧
    ((usageLookup (some (listCredentialUsage (some rows)))).lookup (appId, keyId) = some (some date) ↔
      newest (credentialDates rows appId keyId) = some date)
  never :
    (credentialActivityFor (prefetchCredentialActivity (some rows)) appId keyId = .never ↔
      credentialDates rows appId keyId ≠ [] ∧ ∀ date, some date ∉ credentialDates rows appId keyId) ∧
    ((usageLookup (some (listCredentialUsage (some rows)))).lookup (appId, keyId) = some none ↔
      credentialDates rows appId keyId ≠ [] ∧ ∀ date, some date ∉ credentialDates rows appId keyId)
  unknown :
    (credentialActivityFor (prefetchCredentialActivity (some rows)) appId keyId = .unknown ↔
      credentialDates rows appId keyId = []) ∧
    ((usageLookup (some (listCredentialUsage (some rows)))).lookup (appId, keyId) = none ↔
      credentialDates rows appId keyId = [])

theorem credentialNewest (hrows : ∀ row ∈ rows, ∀ id, row.appId = some id → '|' ∉ id) (hbar : '|' ∉ appId)
    (happ : appId ≠ []) (hkey : keyId ≠ []) : CredentialNewest rows appId keyId := by
  have haudit := credentialActivityFor_eq hrows hbar happ hkey
  have htab : (usageLookup (some (listCredentialUsage (some rows)))).lookup (appId, keyId) = _ :=
    usageLookup_eq.trans (mergedUsage_eq happ hkey)
  by_cases hempty : credentialDates rows appId keyId = []
  · rw [hempty] at haudit htab
    constructor <;> simp [haudit, htab, hempty, newest]
  · have hfull := List.isEmpty_eq_false_iff.2 hempty
    rw [hfull, if_neg Bool.false_ne_true] at haudit htab
    cases hnewest : newest (credentialDates rows appId keyId) with
    | none =>
      rw [hnewest] at haudit htab
      constructor <;> simp [haudit, htab, hempty, hnewest, seen, newest_eq_none_iff.1 hnewest]
    | some date =>
      have hdated := (newest_eq_some_iff.1 hnewest).1
      rw [hnewest] at haudit htab
      constructor <;> simp [haudit, htab, hempty, hnewest, seen]
      exact ⟨date, hdated⟩

theorem credentialDates_perm {rows' : List AppCredentialSignInActivity} (h : rows'.Perm rows) :
    (credentialDates rows' appId keyId).Perm (credentialDates rows appId keyId) :=
  (h.filter _).map _

theorem credential_unordered {rows' : List AppCredentialSignInActivity} (hperm : rows'.Perm rows)
    (hrows : ∀ row ∈ rows, ∀ id, row.appId = some id → '|' ∉ id) (hbar : '|' ∉ appId) (happ : appId ≠ [])
    (hkey : keyId ≠ []) :
    credentialActivityFor (prefetchCredentialActivity (some rows')) appId keyId =
        credentialActivityFor (prefetchCredentialActivity (some rows)) appId keyId ∧
      (usageLookup (some (listCredentialUsage (some rows')))).lookup (appId, keyId) =
        (usageLookup (some (listCredentialUsage (some rows)))).lookup (appId, keyId) := by
  have hrows' : ∀ row ∈ rows', ∀ id, row.appId = some id → '|' ∉ id :=
    fun row hrow => hrows row (hperm.mem_iff.1 hrow)
  have hdates : (credentialDates rows' appId keyId).Perm (credentialDates rows appId keyId) :=
    credentialDates_perm hperm
  rw [credentialActivityFor_eq hrows hbar happ hkey, credentialActivityFor_eq hrows' hbar happ hkey,
    usageLookup_eq, usageLookup_eq, mergedUsage_eq happ hkey, mergedUsage_eq happ hkey,
    hdates.isEmpty_eq, newest_perm hdates]
  exact ⟨rfl, rfl⟩

end Credentials

/-! ## The surfaces -/

/-- What the surfaces say of one application's sign-ins: the newest date of its rows. -/
structure SignInsNewest (items : List ServicePrincipalSignInActivity) (appId : Text) : Prop where
  audit : lastSignInFor (signInActivityOutcome (.ok items)) appId = some (newest (signInDates items appId))
  tab : pickLastSignIn items appId = newest (signInDates items appId)

/-- The surfaces show the newest use if and only if no sign-in row of the application is dated later than its
    first or its last one; they do not depend on the order of the rows if and only if all its sign-in rows
    carry one date. -/
theorem activity_newest_iff (items : List ServicePrincipalSignInActivity)
    (rows : List AppCredentialSignInActivity) (appId keyId : Text)
    (hrows : ∀ row ∈ rows, ∀ id, row.appId = some id → '|' ∉ id) (hbar : '|' ∉ appId) (happ : appId ≠ [])
    (hkey : keyId ≠ []) :
    (SignInsNewest items appId ∧ CredentialNewest rows appId keyId ↔ EndsNewest (signInDates items appId)) ∧
    ((∀ items' rows', items'.Perm items → rows'.Perm rows →
        (pickLastSignIn items' appId = pickLastSignIn items appId ∧
          lastSignInFor (signInActivityOutcome (.ok items')) appId =
            lastSignInFor (signInActivityOutcome (.ok items)) appId) ∧
        credentialActivityFor (prefetchCredentialActivity (some rows')) appId keyId =
          credentialActivityFor (prefetchCredentialActivity (some rows)) appId keyId ∧
        (usageLookup (some (listCredentialUsage (some rows')))).lookup (appId, keyId) =
          (usageLookup (some (listCredentialUsage (some rows)))).lookup (appId, keyId)) ↔
      OneDate (signInDates items appId)) := by
  have hends := ends_newest_iff (signInDates items appId)
  constructor
  · constructor
    · intro h
      refine hends.1 ⟨?_, pickLastSignIn_eq.symm.trans h.1.tab⟩
      exact Option.some.inj (lastSignInFor_eq.symm.trans h.1.audit)
    · intro h
      obtain ⟨hlast, hfirst⟩ := hends.2 h
      exact ⟨⟨lastSignInFor_eq.trans (congrArg some hlast), pickLastSignIn_eq.trans hfirst⟩,
        credentialNewest hrows hbar happ hkey⟩
  · rw [← unordered_iff]
    constructor
    · exact fun h items' hperm => (h items' rows hperm (List.Perm.refl rows)).1
    · exact fun h items' rows' hitems hperm =>
      ⟨h items' hitems, credential_unordered hperm hrows hbar happ hkey⟩

/-! ## Two flows of one application -/

def signInRow (appId : Text) (date : Option Timestamp) : ServicePrincipalSignInActivity :=
  ⟨some appId, some ⟨date⟩⟩

def credentialRow (appId keyId : Text) (date : Option Timestamp) : AppCredentialSignInActivity :=
  ⟨some appId, some keyId, some ⟨date⟩⟩

/-- Three rows of the application, the middle one older, and one of another. -/
def fourSignIns : List ServicePrincipalSignInActivity :=
  [signInRow "a".toList (some 5), signInRow "a".toList (some 3), signInRow "b".toList (some 9),
    signInRow "a".toList (some 5)]

def threeUses : List AppCredentialSignInActivity :=
  [credentialRow "a".toList "k".toList (some 3), credentialRow "a".toList "k".toList none,
    credentialRow "a".toList "k".toList (some 4)]

theorem activity_newest_iff_three_rows :
    SignInsNewest fourSignIns "a".toList ∧ CredentialNewest threeUses "a".toList "k".toList ∧
      newest (signInDates fourSignIns "a".toList) = some 5 := by
  have hends : EndsNewest (signInDates fourSignIns "a".toList) := by
    intro d hd
    have hdates : signInDates fourSignIns "a".toList = [some 5, some 3, some 5] := by decide
    rw [hdates] at hd ⊢
    have hle : d ≤ 5 := by
      simp only [List.mem_cons, Option.some.injEq, List.not_mem_nil, or_false] at hd
      rcases hd with rfl | rfl | rfl <;> decide
    exact ⟨⟨5, rfl, hle⟩, 5, rfl, hle⟩
  obtain ⟨hsignIns, huses⟩ := (activity_newest_iff fourSignIns threeUses "a".toList "k".toList
    (by simp [threeUses, credentialRow]) (by decide) (by decide) (by decide)).1.2 hends
  exact ⟨hsignIns, huses, by decide⟩

/-- Of two rows the audit reads the last and the tab the first. -/
theorem second_flow_lost :
    lastSignInFor (signInActivityOutcome (.ok [signInRow "a".toList (some 1), signInRow "a".toList (some 2)]))
        "a".toList = some (some 2) ∧
      pickLastSignIn [signInRow "a".toList (some 1), signInRow "a".toList (some 2)] "a".toList = some 1 ∧
      ¬ SignInsNewest [signInRow "a".toList (some 1), signInRow "a".toList (some 2)] "a".toList :=
  ⟨by decide, by decide, fun h => absurd h.tab (by decide)⟩

end Audit
