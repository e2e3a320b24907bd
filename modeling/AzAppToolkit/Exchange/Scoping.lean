import AzAppToolkit.Lib.Text

set_option autoImplicit false

/-! # Which permissions can be scoped

The predicates of `azapptoolkit-core/src/scoping.rs` and `azapptoolkit-exchange/src/roles.rs` over an
application permission: the Exchange role that grants the same capability, whether a legacy
Application Access Policy could govern it, and what a composite role bundles. A permission is a value
on a resource; the same value on two resources is two permissions. -/

namespace Exchange

def microsoftGraphAppId : Text := "00000003-0000-0000-c000-000000000000".toList

def office365ExchangeOnlineAppId : Text := "00000002-0000-0ff1-ce00-000000000000".toList

def ewsFullAccessAsApp : Text := "full_access_as_app".toList

def ewsAccessAsAppRole : Text := "Application EWS.AccessAsApp".toList

/-- The arms of `graph_mail_role`. -/
def graphMailRoles : List (String × String) := [
  ("Mail.Read", "Application Mail.Read"),
  ("Mail.ReadBasic", "Application Mail.ReadBasic"),
  ("Mail.ReadBasic.All", "Application Mail.ReadBasic"),
  ("Mail.ReadWrite", "Application Mail.ReadWrite"),
  ("Mail.Send", "Application Mail.Send"),
  ("MailboxSettings.Read", "Application MailboxSettings.Read"),
  ("MailboxSettings.ReadWrite", "Application MailboxSettings.ReadWrite"),
  ("Calendars.Read", "Application Calendars.Read"),
  ("Calendars.ReadWrite", "Application Calendars.ReadWrite"),
  ("Contacts.Read", "Application Contacts.Read"),
  ("Contacts.ReadWrite", "Application Contacts.ReadWrite"),
  ("MailboxFolder.Read.All", "Application MailboxFolder.Read"),
  ("MailboxFolder.ReadWrite.All", "Application MailboxFolder.ReadWrite"),
  ("MailboxItem.Read.All", "Application MailboxItem.Read"),
  ("MailboxItem.ReadWrite.All", "Application MailboxItem.ReadWrite"),
  ("MailboxItem.Export.All", "Application MailboxItem.Export"),
  ("MailboxItem.ImportExport.All", "Application MailboxItem.ImportExport"),
  ("MailboxConfigItem.Read", "Application MailboxConfigItem.Read"),
  ("MailboxConfigItem.ReadWrite", "Application MailboxConfigItem.ReadWrite"),
  ("MailTips.ReadBasic.All", "Application MailTips.ReadBasic.All"),
  ("Mail-Advanced.ReadWrite.All", "Application Mail-Advanced.ReadWrite.All")]

/-- The Exchange application role for a Microsoft Graph mailbox permission. -/
def graphMailRole (value : Text) : Option Text :=
  (graphMailRoles.find? (fun r => r.1.toList == value)).map (·.2.toList)

/-- The Microsoft Graph permissions an Application Access Policy could confine. -/
def aapConfinableGraphPermissions : List Text :=
  ["Mail.Read", "Mail.ReadBasic", "Mail.ReadBasic.All", "Mail.ReadWrite", "Mail.Send",
    "MailboxSettings.Read", "MailboxSettings.ReadWrite", "Calendars.Read", "Calendars.ReadWrite",
    "Contacts.Read", "Contacts.ReadWrite"].map String.toList

/-- The Exchange application role that grants what `value` on `resourceAppId` grants. -/
def exchangeRoleForResourcePermission (resourceAppId value : Text) : Option Text :=
  if resourceAppId = microsoftGraphAppId then graphMailRole value
  else if resourceAppId = office365ExchangeOnlineAppId then
    if value = ewsFullAccessAsApp then some ewsAccessAsAppRole else none
  else none

def isAapConfinablePermission (resourceAppId value : Text) : Bool :=
  let aapNamed :=
    if resourceAppId = microsoftGraphAppId then aapConfinableGraphPermissions.contains value
    else if resourceAppId = office365ExchangeOnlineAppId then value == ewsFullAccessAsApp
    else false
  aapNamed && (exchangeRoleForResourcePermission resourceAppId value).isSome

def isScopableExchangeResourcePermission (resourceAppId : Option Text) (value : Text) : Bool :=
  match resourceAppId with
  | none => false
  | some id => (exchangeRoleForResourcePermission id value).isSome

/-- A grant that reaches every mailbox whichever permission is being examined. -/
def isBlanketMailboxGrant (value : Text) : Bool := value == ewsFullAccessAsApp

/-- The composite roles and the permissions each one bundles. -/
def compositeRoles : List (Text × List Text) := [
  ("Application Mail Full Access".toList, ["Mail.ReadWrite", "Mail.Send"].map String.toList),
  ("Application Exchange Full Access".toList,
    ["Mail.ReadWrite", "Mail.Send", "MailboxSettings.ReadWrite", "Calendars.ReadWrite",
      "Contacts.ReadWrite"].map String.toList)]

def compositeRoleConfers (role value : Text) : Bool :=
  compositeRoles.any (fun r => r.1.eqIgnoreAsciiCase role.trim &&
    r.2.any (fun v => v.eqIgnoreAsciiCase value.trim))

/-- A permission together with the resource that exposes it, if that could be resolved. -/
structure ResourcePermission where
  resourceAppId : Option Text
  value : Text
deriving DecidableEq

/-- A permission the mailbox-scope resolver probes for. -/
structure ScopableMailPermission where
  value : Text
  exchangeRole : Text
  aapConfinable : Bool
deriving DecidableEq

namespace ScopableMailPermission

def onResource (resourceAppId value : Text) : Option ScopableMailPermission :=
  (exchangeRoleForResourcePermission resourceAppId value).map
    (fun role => ⟨value, role, isAapConfinablePermission resourceAppId value⟩)

/-- The audit's resource-aware gate over the grants. -/
def ofGrant (g : ResourcePermission) : Option ScopableMailPermission :=
  match g.resourceAppId with
  | none => none
  | some resource => onResource resource g.value

end ScopableMailPermission

/-! ## A scopable value names one permission -/

/-- What only Office 365 Exchange Online exposes. -/
theorem graphMailRole_ews : graphMailRole ewsFullAccessAsApp = none := by decide

/-- The two resources map disjoint sets of values. -/
theorem exchangeRole_resource {resource resource' value : Text}
    (h : (exchangeRoleForResourcePermission resource value).isSome)
    (h' : (exchangeRoleForResourcePermission resource' value).isSome) : resource = resource' := by
  have hcases : ∀ r : Text, (exchangeRoleForResourcePermission r value).isSome →
      (r = microsoftGraphAppId ∧ (graphMailRole value).isSome) ∨
      (r = office365ExchangeOnlineAppId ∧ value = ewsFullAccessAsApp) := by
    intro r hr
    unfold exchangeRoleForResourcePermission at hr
    split at hr
    · next hgraph => exact Or.inl ⟨hgraph, hr⟩
    · split at hr
      · next hews =>
        split at hr
        · next hvalue => exact Or.inr ⟨hews, hvalue⟩
        · exact absurd hr (by simp)
      · exact absurd hr (by simp)
  rcases hcases resource h with ⟨rfl, hrole⟩ | ⟨rfl, rfl⟩
  · rcases hcases resource' h' with ⟨rfl, -⟩ | ⟨rfl, rfl⟩
    · rfl
    · rw [graphMailRole_ews] at hrole
      exact absurd hrole (by simp)
  · rcases hcases resource' h' with ⟨rfl, hrole⟩ | ⟨rfl, -⟩
    · rw [graphMailRole_ews] at hrole
      exact absurd hrole (by simp)
    · rfl

/-- Two scopable grants of one value are the same permission, so a map keyed by the value alone is
    unambiguous. -/
theorem ScopableMailPermission.ofGrant_value_inj {g g' : ResourcePermission}
    {p p' : ScopableMailPermission} (h : ofGrant g = some p) (h' : ofGrant g' = some p')
    (hvalue : g.value = g'.value) : g = g' ∧ p = p' := by
  obtain ⟨r, v⟩ := g
  obtain ⟨r', v'⟩ := g'
  obtain rfl : v = v' := hvalue
  cases r with
  | none => exact absurd h (by simp [ofGrant])
  | some r =>
    cases r' with
    | none => exact absurd h' (by simp [ofGrant])
    | some r' =>
      simp only [ofGrant, onResource] at h h'
      have hsome : (exchangeRoleForResourcePermission r v).isSome := by
        obtain ⟨role, hrole, -⟩ := Option.map_eq_some_iff.1 h
        rw [hrole]
        rfl
      have hsome' : (exchangeRoleForResourcePermission r' v).isSome := by
        obtain ⟨role, hrole, -⟩ := Option.map_eq_some_iff.1 h'
        rw [hrole]
        rfl
      obtain rfl := exchangeRole_resource hsome hsome'
      rw [h] at h'
      exact ⟨rfl, Option.some.inj h'⟩

theorem ScopableMailPermission.ofGrant_value {g : ResourcePermission} {p : ScopableMailPermission}
    (h : ofGrant g = some p) : p.value = g.value := by
  obtain ⟨r, v⟩ := g
  cases r with
  | none => exact absurd h (by simp [ofGrant])
  | some r =>
    obtain ⟨role, -, rfl⟩ := Option.map_eq_some_iff.1 h
    rfl

end Exchange
