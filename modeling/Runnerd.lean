import Runnerd.GoText
import Runnerd.RunnerState
import Runnerd.Interaction
import Runnerd.Interleaving
import Runnerd.Versioned
import Runnerd.RequestStore
import Runnerd.Decisions
import Runnerd.SandboxService
import Runnerd.Effects
import Runnerd.SandboxStart
import Runnerd.Lifecycle
import Runnerd.Loops
import Runnerd.Webhooks
import Runnerd.Goroutines
import Runnerd.Footprints
import Runnerd.Transitions
import Runnerd.StopConduct
import Runnerd.StartConduct
import Runnerd.Conduct
import Runnerd.RowSteps
import Runnerd.Coherence
import Runnerd.Custody
import Runnerd.Roles
import Runnerd.RoleConduct
import Runnerd.Changes
import Runnerd.Ownership
import Runnerd.CriticalSections
import Runnerd.ManualRetry
import Runnerd.LostUpdate
import Runnerd.Limits
import Runnerd.ClaimedStarts
import Runnerd.ExitAttribution
import Runnerd.Verdicts
import Runnerd.JobOwnership
import Runnerd.RetryBudget
import Runnerd.Completed
import Runnerd.Timestamps
import Runnerd.IdleSweep
import Runnerd.KeptRunners
import Runnerd.FailureOrigins
import Runnerd.Rejections
import Runnerd.ServiceResolution
import Runnerd.Credentials
import Runnerd.Leases
import Runnerd.Statements
import Runnerd.RetryEffect
import Runnerd.SortedPages
import Runnerd.RepositoryAccess
import Runnerd.Listing
import Runnerd.JobGroups
import Runnerd.SessionPolicy
import Runnerd.CacheScopes
import Runnerd.CacheIsolation
import Runnerd.CachePrefixes
import Runnerd.Precedence
import Runnerd.ServiceTables
import Runnerd.ServicePrecedence
import Runnerd.Numerals
import Runnerd.ServiceReadiness
import Runnerd.Admissions
import Runnerd.BestFirst
import Runnerd.ProfileMatching
import Runnerd.KeyedTable
import Runnerd.SpecTable
import Runnerd.CatalogReconciliation
import Runnerd.SpecWrites
import Runnerd.SpecRequests
import Runnerd.SpecVersions
import Runnerd.ManagedSpecs
import Runnerd.Channels
import Runnerd.TerminalHub
import Runnerd.TerminalSafety
import Runnerd.TerminalClosing
import Runnerd.TerminalCreation
import Runnerd.TerminalHandover
import Runnerd.TerminalOutput
import Runnerd.AccessCache
import Runnerd.AccessConduct
import Runnerd.AccessCoherence
import Runnerd.AccountStore
import Runnerd.AccountSaves
import Runnerd.AccountCommits
import Runnerd.AccountRoles
import Runnerd.AccountIdentities
import Runnerd.Doubles
import Runnerd.KeyedGroups
import Runnerd.BrowserGroups
import Runnerd.ServerGroups
import Runnerd.JobPartition
import Runnerd.NewestCommit
import Runnerd.Pagination
import Runnerd.NextPages
import Runnerd.RecoveryLedger
import Runnerd.RecoveryDispatch
import Runnerd.RecoverySchedule
import Runnerd.RetryBodies
import Runnerd.GitHubLogs
import Runnerd.LossyText
import Runnerd.TerminalText
import Runnerd.CompletionOrders
import Runnerd.Replay
import Runnerd.RecoveryGuards
import Runnerd.RecoveryOwnership
import Runnerd.BrowserAgreement
import Runnerd.GroupsAlike
import Runnerd.RetryDelays
import Runnerd.LinkHeaders
import Runnerd.RunnerNames
import Runnerd.RunnerLogs
import Runnerd.CacheDeletion
import Runnerd.GitHubContextBackfill
import Runnerd.Urls
import Runnerd.PasswordFields
import Runnerd.Redaction
import Runnerd.Base64
import Runnerd.SealedBytes
import Runnerd.StartScript
import Runnerd.SecretBox
import Runnerd.ConfigSecrets
import Runnerd.Sessions
import Runnerd.Paths
import Runnerd.Redirects
import Runnerd.GitHubClient
import Runnerd.RegistrationTokens
import Runnerd.Patterns
import Runnerd.UriText
import Runnerd.JobAddresses
import Runnerd.JobLinks
import Runnerd.CredentialProvenance
import Runnerd.SettingsServed
import Runnerd.StartTemplate
