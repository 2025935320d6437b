import Valor.Lib.Program
import Valor.Lib.Interleave
import Valor.Lib.ReadCommitted
import Valor.Lib.Table
import Valor.Python.Datetime
import Valor.Python.Text
import Valor.Python.Uuid
import Valor.ManagementAudit
import Valor.Python.Decimal
import Valor.Postgres
import Valor.Credential
import Valor.ManagementIdentity.Domain
import Valor.ManagementIdentity.Store
import Valor.ManagementIdentity.Service
import Valor.ManagementIdentity.LastManager
import Valor.ManagementIdentity.Rules
import Valor.ManagementIdentity.Recovery
import Valor.ManagementIdentity.ScopeReplacement
import Valor.IdentityTenancy
import Valor.Security
import Valor.AssetRegistry
import Valor.PolicyRisk
import Valor.Settings
import Valor.CredentialEvidence
import Valor.Lib.Serial
import Valor.RuntimeIdentity.Domain
import Valor.ManagementIdentity.Authentication
import Valor.Lib.Transaction
import Valor.Lib.Path
import Valor.ManagementIdentity.Routes
import Valor.ManagementIdentity.Commits
import Valor.ManagementIdentity.CredentialHistory
import Valor.ManagementIdentity.TokenLifecycle
import Valor.ManagementIdentity.OneBootstrap
import Valor.Lib.Retention
import Valor.ManagementIdentity.AuthenticationEvidence
import Valor.Lib.Embedding
import Valor.Lib.Waiting
import Valor.RuntimeIdentity.Store
import Valor.RuntimeIdentity.Service
import Valor.RuntimeIdentity.Commits
import Valor.RuntimeIdentity.Lifecycle
import Valor.RuntimeIdentity.Continuity
import Valor.RuntimeIdentity.Claims
import Valor.RuntimeIdentity.Exclusivity
import Valor.RuntimeIdentity.CredentialEvidence
import Valor.Lib.Tiles
import Valor.Lib.Sql
import Valor.RuntimeGateway.Usage
import Valor.RuntimeGateway.Invocation
import Valor.RuntimeGateway.Repository
import Valor.RuntimeGateway.Readers
import Valor.UtcDays
import Valor.RuntimeAuthentication
import Valor.ValidatedRange
import Valor.BearerBoundaries
import Valor.Errors
import Valor.Lib.Rounding
import Valor.Python.DecimalValue
import Valor.Python.Casefold
import Valor.Lib.Grouping
import Valor.ManagementIdentity.Inventory
import Valor.Lib.Quiet
import Valor.RuntimeGateway.CreateInvocation
import Valor.ControlPlane.Store
import Valor.ControlPlane.Names
import Valor.RuntimeGateway.CostAttribution
import Valor.RuntimeGateway.Persistence
import Valor.RuntimeGateway.Limits
import Valor.ControlPlane.Service
import Valor.ControlPlane.Commits
import Valor.ControlPlane.Invocations
import Valor.ControlPlane.PermissionOrder
import Valor.ControlPlane.PermissionAudit
import Valor.ControlPlane.PolicyHistory
import Valor.ControlPlane.Correspondence
import Valor.RuntimeGateway.Reporting
import Valor.RuntimeIdentity.Manageable
import Valor.RuntimeGateway.OpenaiProvider
import Valor.RuntimeGateway.ReportSnapshots
import Valor.Lib.Lines
import Valor.Fingerprints
import Valor.RuntimeIdentity.Preflight
import Valor.RuntimeIdentity.Ledger
import Valor.Lib.Automaton
import Valor.Lib.Answers
import Valor.Lib.Overshoot
import Valor.Lib.Isolation
import Valor.Lib.Glance
import Valor.ControlPlane.LedgerReads
import Valor.ControlPlane.Ownership
import Valor.ControlPlane.Overshoot
import Valor.RuntimeGateway.Gates
import Valor.RuntimeGateway.RecordedSpend
import Valor.ControlPlane.Loading
import Valor.ControlPlane.Scope
import Valor.ControlPlane.Isolation
import Valor.ControlPlane.GetRoutes
import Valor.ControlPlane.Replies
