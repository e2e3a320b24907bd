import AzAppToolkit.Audit.FindingProofs

set_option autoImplicit false

/-! # What the findings mean

The finding `scoped_mailbox` is recognised by a part of a line. An app that holds no grant confined by
RBAC for Applications emits no line of that wording, so the marker can only come from a text a line
quotes: the literals around the quoted texts keep it from arising where two of them meet
(`Text.isBarrier`). This makes the quoted texts the exact condition under which the findings mean what
they say. -/

namespace Audit

open Exchange (ResourcePermission ScopeMechanism)

/-! ## Quoting -/

/-- The line holds the marker of the scoped mailbox finding. -/
def Marked (line : Text) : Prop := Issue.scopedViaRbac <:+: line

/-- The marker is in a line exactly when it is in one of the quoted texts. -/
def Quotes (issues quoted : List Text) : Prop :=
  (∃ line ∈ issues, Marked line) ↔ ∃ t ∈ quoted, Marked t

theorem Quotes.nil : Quotes [] [] := Iff.rfl

theorem Quotes.append {issues issues' quoted quoted' : List Text} (h : Quotes issues quoted)
    (h' : Quotes issues' quoted') : Quotes (issues ++ issues') (quoted ++ quoted') := by
  unfold Quotes at *
  simp only [List.mem_append, or_and_right, exists_or, h, h']

/-- Quoted texts that cannot hold the marker are left out. -/
theorem Quotes.clean {issues quoted : List Text} (h : Quotes issues quoted)
    (hclean : ∀ t ∈ quoted, ¬ Marked t) : Quotes issues [] := by
  refine h.trans ⟨?_, ?_⟩
  · rintro ⟨t, ht, hmarked⟩
    exact absurd hmarked (hclean t ht)
  · rintro ⟨t, ht, -⟩
    exact absurd ht (by simp)

theorem Quotes.congr {issues quoted quoted' : List Text} (h : Quotes issues quoted)
    (heq : (∃ t ∈ quoted, Marked t) ↔ ∃ t ∈ quoted', Marked t) : Quotes issues quoted' :=
  Iff.trans h heq

theorem Quotes.single {line : Text} {quoted : List Text}
    (h : Marked line ↔ ∃ t ∈ quoted, Marked t) : Quotes [line] quoted := by
  unfold Quotes
  simpa using h

theorem Quotes.fixed {line : Text} (h : ¬ Marked line) : Quotes [line] [] :=
  Quotes.single ⟨fun hmarked => absurd hmarked h, fun ⟨_, ht, _⟩ => absurd ht (by simp)⟩

/-- No text with the marker is empty. -/
theorem marker_ne_nil : Issue.scopedViaRbac ≠ [] := by
  unfold Issue.scopedViaRbac
  rw [String.toList_ofList]
  simp

theorem barrier_separator : Text.isBarrier Issue.scopedViaRbac listSeparator = true := by
  unfold Issue.scopedViaRbac listSeparator
  repeat rw [String.toList_ofList]
  decide

/-- A listing holds the marker when one of its names does. -/
theorem marked_join (l : List Text) : Marked (Text.join listSeparator l) ↔ ∃ t ∈ l, Marked t :=
  Text.infix_join barrier_separator marker_ne_nil l

theorem Quotes.listing {α : Type} {items : List α} {head : Text} {l : List Text}
    (h : Text.isBarrier Issue.scopedViaRbac head = true) (hnil : items = [] → l = []) :
    Quotes (lineFor items (head ++ Text.join listSeparator l)) l := by
  unfold Quotes
  simp only [mem_lineFor]
  constructor
  · rintro ⟨line, ⟨-, rfl⟩, hmarked⟩
    exact (marked_join _).1 ((Text.infix_barrier_append h).1 hmarked)
  · rintro ⟨t, ht, hmarked⟩
    refine ⟨_, ⟨?_, rfl⟩, (Text.infix_barrier_append h).2 ((marked_join _).2 ⟨t, ht, hmarked⟩)⟩
    intro hempty
    rw [hnil hempty] at ht
    exact absurd ht (by simp)

theorem Quotes.lineFor {α : Type} {items : List α} {head : Text} (f : α → Text)
    (h : Text.isBarrier Issue.scopedViaRbac head = true) :
    Quotes (lineFor items (head ++ Text.join listSeparator (items.map f))) (items.map f) :=
  Quotes.listing h (fun hempty => by rw [hempty, List.map_nil])

/-! ## The rules that quote nothing of the directory -/

theorem quotes_disabledByMicrosoft (status : Option Text) :
    Quotes (ruleDisabledByMicrosoft status).issues [] := by
  unfold ruleDisabledByMicrosoft
  split
  · exact Quotes.nil
  · refine Quotes.fixed ?_
    unfold Marked Issue.scopedViaRbac Issue.disabledByMicrosoft
    rw [← Text.contains_iff, String.toList_append]
    repeat rw [String.toList_ofList]
    decide

theorem quotes_adminConsent (perms : AppPermissions) : Quotes (ruleAdminConsent perms).issues [] := by
  unfold ruleAdminConsent
  split
  · refine Quotes.fixed ?_
    unfold Marked Issue.scopedViaRbac
    rw [← Text.contains_iff]
    repeat rw [String.toList_ofList]
    decide
  · exact Quotes.nil

theorem quotes_spDisabled (spEnabled : Option Bool) : Quotes (ruleSpDisabled spEnabled).issues [] := by
  unfold ruleSpDisabled
  split
  · refine Quotes.fixed ?_
    unfold Marked Issue.scopedViaRbac
    rw [← Text.contains_iff]
    repeat rw [String.toList_ofList]
    decide
  · exact Quotes.nil

/-- A number in a line cannot hold the marker. -/
theorem not_marked_decimal (n : Int) : ¬ Marked (Text.decimal n) := by
  have hmem : 's' ∈ Issue.scopedViaRbac := by
    unfold Issue.scopedViaRbac
    rw [String.toList_ofList]
    simp
  exact Text.not_infix_decimal hmem (by decide) (by decide) n

theorem barrier_staleApp : Text.isBarrier Issue.scopedViaRbac "Application created ".toList = true ∧
    Text.isBarrier Issue.scopedViaRbac " days ago - consider if still needed".toList = true := by
  unfold Issue.scopedViaRbac
  repeat rw [String.toList_ofList]
  decide

theorem quotes_staleApp (daysSinceCreated : Option Int) :
    Quotes (ruleStaleApp daysSinceCreated).issues [] := by
  unfold ruleStaleApp
  split
  · exact Quotes.nil
  · next days =>
    split
    · refine Quotes.fixed ?_
      unfold Marked
      rw [Text.infix_barrier_append barrier_staleApp.1, Text.infix_append_barrier barrier_staleApp.2]
      exact not_marked_decimal days
    · exact Quotes.nil

theorem not_marked_ownerLines : ¬ Marked "No owners assigned — ownership/accountability gap".toList ∧
    ¬ Marked "Single owner — vulnerable to owner departure".toList := by
  unfold Marked Issue.scopedViaRbac
  rw [← Text.contains_iff, ← Text.contains_iff]
  repeat rw [String.toList_ofList]
  decide

theorem quotes_ownerLines (owners : Option (List Text)) : Quotes (ownerLines owners) [] := by
  unfold ownerLines
  split
  · exact Quotes.nil
  · split
    · exact Quotes.fixed not_marked_ownerLines.1
    · split
      · exact Quotes.fixed not_marked_ownerLines.2
      · exact Quotes.nil

theorem Quotes.ite {issues : List Text} {b : Prop} [Decidable b] (h : Quotes issues []) :
    Quotes (if b then issues else []) [] := by
  split
  · exact h
  · exact Quotes.nil

theorem not_marked_hygiene : ¬ Marked (Issue.instanceLockDisabled ++
      " — credentials could be added to the service principal to abuse its permissions".toList) ∧
    ¬ Marked (Issue.publicClientCredentials ++
      (" — if this app is used only as a public/installed client, " ++
        "the credentials should be removed").toList) ∧
    ¬ Marked (Issue.preferCertOverSecret ++
      " — less secure than certificates or federated credentials".toList) := by
  unfold Marked Issue.scopedViaRbac Issue.instanceLockDisabled Issue.publicClientCredentials
    Issue.preferCertOverSecret
  rw [← Text.contains_iff, ← Text.contains_iff, ← Text.contains_iff, String.toList_append]
  repeat rw [String.toList_ofList]
  decide

theorem quotes_appHygiene (app : Application) (hasAppPermissions hasCredentials hasSecrets : Bool) :
    Quotes (ruleAppHygiene app hasAppPermissions hasCredentials hasSecrets).issues [] := by
  unfold ruleAppHygiene
  exact (((quotes_ownerLines app.owners).append (Quotes.ite (Quotes.fixed not_marked_hygiene.1))).append
    (Quotes.ite (Quotes.fixed not_marked_hygiene.2.1))).append (Quotes.ite (Quotes.fixed not_marked_hygiene.2.2))

theorem audienceReach_cases {audience : Text} {reach : String}
    (h : audienceReach audience = some reach) : reach = "any Entra tenant" ∨
      reach = "any Entra tenant and personal Microsoft accounts" ∨
      reach = "personal Microsoft accounts" := by
  have hsome : ∀ (a b c : String) (p q r : Prop) [Decidable p] [Decidable q] [Decidable r],
      (if p then some a else if q then some b else if r then some c else none) = some reach →
        reach = a ∨ reach = b ∨ reach = c := by
    intro a b c p q r _ _ _ hif
    split_ifs at hif with hp hq hr
    · exact Or.inl (Option.some.inj hif).symm
    · exact Or.inr (Or.inl (Option.some.inj hif).symm)
    · exact Or.inr (Or.inr (Option.some.inj hif).symm)
  exact hsome _ _ _ _ _ _ h

theorem not_marked_multitenant {audience : Text} {reach : String} (h : audienceReach audience = some reach) :
    ¬ Marked (Issue.multitenantAudience ++ (" — this app can be consented to from " ++ reach ++
      ", so its permissions and credentials are not confined to this directory").toList) := by
  unfold Marked Issue.scopedViaRbac Issue.multitenantAudience
  rw [← Text.contains_iff, String.toList_append, String.toList_append]
  rcases audienceReach_cases h with rfl | rfl | rfl
  all_goals
    clear h
    repeat rw [String.toList_ofList]
    decide

theorem not_marked_unverifiedPublisher : ¬ Marked (Issue.unverifiedPublisher ++
    (" — admins in other tenants cannot attribute this app " ++
      "to a verified author when consenting").toList) := by
  unfold Marked Issue.scopedViaRbac Issue.unverifiedPublisher
  rw [← Text.contains_iff, String.toList_append]
  repeat rw [String.toList_ofList]
  decide

theorem quotes_externalExposure (app : Application) (hasAppPermissions hasCredentials : Bool) :
    Quotes (ruleExternalExposure app hasAppPermissions hasCredentials).issues [] := by
  unfold ruleExternalExposure
  split
  · exact Quotes.nil
  · next reach h =>
    split
    · exact Quotes.nil
    · exact (Quotes.fixed (not_marked_multitenant h)).append
        (Quotes.ite (Quotes.fixed not_marked_unverifiedPublisher))

/-! ## The rules that quote fixed names -/

/-- The values of the risk lists. -/
theorem not_marked_riskLists : ∀ v ∈ tier0AppPermissions ++ highRiskAppPermissions ++
    mediumRiskAppPermissions, ¬ Marked v := by
  unfold Marked
  simp only [← Text.contains_iff]
  unfold Issue.scopedViaRbac tier0AppPermissions highRiskAppPermissions mediumRiskAppPermissions
  simp only [List.map_cons, List.map_nil]
  repeat rw [String.toList_ofList]
  decide

theorem not_marked_riskValue {v : Text} (h : tier0AppPermissions.contains v = true ∨
    highRiskAppPermissions.contains v = true ∨ mediumRiskAppPermissions.contains v = true) :
    ¬ Marked v := by
  refine not_marked_riskLists v ?_
  simp only [List.contains_iff_mem] at h
  rw [List.mem_append, List.mem_append, or_assoc]
  exact h

theorem quotes_values {items : List ResourcePermission} {head : Text}
    (h : Text.isBarrier Issue.scopedViaRbac head = true) :
    Quotes (lineFor items (head ++ joinValues items)) (items.map (·.value)) :=
  Quotes.lineFor ResourcePermission.value h

/-- The permissions of a tier, when none of them is confined by RBAC for Applications. -/
theorem quotes_scopedRiskIssues {tier : String} {confined : List ResourcePermission} {perms : AppPermissions}
    (h : Text.isBarrier Issue.scopedViaRbac
      (tier ++ " mailbox permissions confined by a legacy Application Access Policy " ++
        "(reduced risk): ").toList = true)
    (hrbac : ∀ g ∈ confined, perms.scopeMechanism g = some .legacyApplicationAccessPolicy)
    (hclean : ∀ g ∈ confined, ¬ Marked g.value) :
    Quotes (scopedRiskIssues tier confined perms) [] := by
  have hnone : confined.filter
      (fun g => perms.scopeMechanism g != some .legacyApplicationAccessPolicy) = [] := by
    refine List.filter_eq_nil_iff.2 (fun g hg => ?_)
    rw [hrbac g hg]
    simp
  unfold scopedRiskIssues
  dsimp only
  rw [hnone]
  refine (Quotes.append Quotes.nil (quotes_values h)).clean ?_
  intro t ht
  obtain ⟨g, hg, rfl⟩ := List.mem_map.1 ht
  exact hclean g (List.mem_of_mem_filter hg)

/-- Rules 1 and 2, when nothing is confined by RBAC for Applications. -/
theorem quotes_appPermissionRisk {perms : AppPermissions}
    (hrbac : ∀ g ∈ perms.appRoleGrants, perms.scopeMechanism g ≠ some .rbac) :
    Quotes (ruleAppPermissionRisk perms).issues [] := by
  have hbarriers :
      Text.isBarrier Issue.scopedViaRbac "High-risk application permissions: ".toList = true ∧
      Text.isBarrier Issue.scopedViaRbac "Medium-risk application permissions: ".toList = true ∧
      Text.isBarrier Issue.scopedViaRbac
        ("High-risk" ++ " mailbox permissions confined by a legacy Application Access Policy " ++
          "(reduced risk): ").toList = true ∧
      Text.isBarrier Issue.scopedViaRbac
        ("Medium-risk" ++ " mailbox permissions confined by a legacy Application Access Policy " ++
          "(reduced risk): ").toList = true := by
    unfold Issue.scopedViaRbac
    repeat rw [String.toList_append]
    repeat rw [String.toList_ofList]
    decide
  obtain ⟨hhigh, hmedium, hhighLegacy, hmediumLegacy⟩ := hbarriers
  have hlegacy : ∀ g ∈ perms.appRoleGrants, perms.isScoped g = true →
      perms.scopeMechanism g = some .legacyApplicationAccessPolicy := by
    intro g hg hscoped
    obtain ⟨mechanism, hm⟩ := Option.isSome_iff_exists.1 hscoped
    cases mechanism with
    | rbac => exact absurd hm (hrbac g hg)
    | legacyApplicationAccessPolicy => exact hm
  -- a tier: the values come from a risk list
  have hvalues : ∀ (p q : ResourcePermission → Bool) (head : Text),
      Text.isBarrier Issue.scopedViaRbac head = true → (∀ g, p g = true → ¬ Marked g.value) →
      Quotes (lineFor ((perms.appRoleGrants.filter p).filter q)
        (head ++ joinValues ((perms.appRoleGrants.filter p).filter q))) [] := by
    intro p q head hbarrier hclean
    refine (quotes_values hbarrier).clean ?_
    intro t ht
    obtain ⟨g, hg, rfl⟩ := List.mem_map.1 ht
    exact hclean g (List.mem_filter.1 (List.mem_of_mem_filter hg)).2
  have hscopedTier : ∀ (tier : String) (p : ResourcePermission → Bool),
      Text.isBarrier Issue.scopedViaRbac
        (tier ++ " mailbox permissions confined by a legacy Application Access Policy " ++
          "(reduced risk): ").toList = true → (∀ g, p g = true → ¬ Marked g.value) →
      Quotes (scopedRiskIssues tier ((perms.appRoleGrants.filter p).filter perms.isScoped) perms)
        [] := by
    intro tier p hbarrier hclean
    refine quotes_scopedRiskIssues hbarrier ?_ ?_
    · intro g hg
      exact hlegacy g (List.mem_of_mem_filter (List.mem_of_mem_filter hg)) (List.mem_filter.1 hg).2
    · intro g hg
      exact hclean g (List.mem_filter.1 (List.mem_of_mem_filter hg)).2
  have htier0Line : Quotes (lineFor (perms.appRoleGrants.filter
      (fun g => tier0AppPermissions.contains g.value)) (Issue.highRiskAppPerms ++
        (" tier-0 (a direct path to Global Administrator): ".toList ++ joinValues
          (perms.appRoleGrants.filter (fun g => tier0AppPermissions.contains g.value))))) [] := by
    rw [← List.append_assoc]
    refine (quotes_values ?_).clean ?_
    · unfold Issue.scopedViaRbac Issue.highRiskAppPerms
      repeat rw [String.toList_ofList]
      decide
    · intro t ht
      obtain ⟨g, hg, rfl⟩ := List.mem_map.1 ht
      exact not_marked_riskValue (Or.inl (List.mem_filter.1 hg).2)
  unfold ruleAppPermissionRisk
  exact ((((htier0Line.append (hvalues _ _ _ hhigh (fun g hg => not_marked_riskValue (Or.inr (Or.inl hg))))).append
    (hscopedTier _ _ hhighLegacy (fun g hg => not_marked_riskValue (Or.inr (Or.inl hg))))).append
    (hvalues _ _ _ hmedium (fun g hg => not_marked_riskValue (Or.inr (Or.inr hg))))).append
    (hscopedTier _ _ hmediumLegacy (fun g hg => not_marked_riskValue (Or.inr (Or.inr hg)))))

end Audit
