import AzAppToolkit.Cache.Guarded
import AzAppToolkit.Cache.Departure
import AzAppToolkit.Graph.Replay
import AzAppToolkit.Graph.PartitionPin
import AzAppToolkit.Audit.Meaning
import AzAppToolkit.Remediation.RedundantProofs
import AzAppToolkit.Auth.Accounts
import AzAppToolkit.Auth.Purge
import AzAppToolkit.Auth.SignOut
import AzAppToolkit.App.ClientsProofs
import AzAppToolkit.Sweeps.SitesProofs
import AzAppToolkit.Sweeps.VaultsProofs
import AzAppToolkit.Auth.LoopbackProofs
import AzAppToolkit.Settings.Durability
import AzAppToolkit.Sharepoint.ConversionProofs
import AzAppToolkit.Keyvault.RotationProofs
import AzAppToolkit.Cache.Stored
import AzAppToolkit.Exchange.OpathBytesProofs
import AzAppToolkit.Exchange.AuditKey
import AzAppToolkit.Exchange.PolicyBatches
import AzAppToolkit.Exchange.References
import AzAppToolkit.Exchange.PolicyRemoval
import AzAppToolkit.Exchange.Consolidation
import AzAppToolkit.Graph.Paging
import AzAppToolkit.Audit.ScoreLaws
import AzAppToolkit.Auth.Deletion
import AzAppToolkit.Bulk.Throttle
import AzAppToolkit.Remediation.RedundantFinding
import AzAppToolkit.Restore.AdoptionProofs
import AzAppToolkit.Restore.Principals
import AzAppToolkit.Restore.ReferencesProofs
import AzAppToolkit.Export.Csv
import AzAppToolkit.Federation.Issuer
import AzAppToolkit.Permissions.ConsentProofs
import AzAppToolkit.Sso.RolloverRows
import AzAppToolkit.Tester.MailboxProofs
import AzAppToolkit.Tester.SiteProofs
import AzAppToolkit.Bulk.Freshness
import AzAppToolkit.App.ConditionalAccess
import AzAppToolkit.Search.Ranking
import AzAppToolkit.Workspace.DockRuns
import AzAppToolkit.Definitions.Stale
import AzAppToolkit.Sharepoint.Walks
import AzAppToolkit.Changelog.Inline
import AzAppToolkit.Audit.Activity
import AzAppToolkit.Audit.AppPolicy
import AzAppToolkit.Sweeps.WorkspacesProofs
import AzAppToolkit.App.CertUpload
import AzAppToolkit.App.KeyCredentials
import AzAppToolkit.App.Owners
import AzAppToolkit.Permissions.Downgrade
import AzAppToolkit.Permissions.Rows
import AzAppToolkit.Sso.ClaimsWriteProofs
import AzAppToolkit.Sso.SignInFormsProofs
import AzAppToolkit.Sso.MetadataProofs
import AzAppToolkit.Sharepoint.ItemScopesProofs
import AzAppToolkit.Graph.Retries
