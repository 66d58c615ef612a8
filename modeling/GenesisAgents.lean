import GenesisAgents.ToolGate
import GenesisAgents.ReplayProtection
import GenesisAgents.EnvelopeBinding
import GenesisAgents.TerminalStatus
import GenesisAgents.CallbackAgreement
import GenesisAgents.EscrowExclusivity
import GenesisAgents.EscrowOwnership
import GenesisAgents.LegacyChains
import GenesisAgents.ChainSnapshots
import GenesisAgents.AnchorRuns
import GenesisAgents.VerificationCriteria
import GenesisAgents.VerificationFinality
import GenesisAgents.AuditBeforeEffect
import GenesisAgents.GrantContext
import GenesisAgents.JobLog
import GenesisAgents.JobClaims
import GenesisAgents.TickRuns
import GenesisAgents.Disputes
import GenesisAgents.MigrationLedger
import GenesisAgents.MigrationDrift
import GenesisAgents.InternalSecret
import GenesisAgents.XeroPosts
import GenesisAgents.DelegationBudget
import GenesisAgents.CreateRaces
import GenesisAgents.ResolvedRows
import GenesisAgents.SpentNonces
import GenesisAgents.SuccessEnvelope
import GenesisAgents.ProhibitionEdits
import GenesisAgents.ProofBridge
import GenesisAgents.AnchorStores
import GenesisAgents.AnthropicTurns
import GenesisAgents.MerkleRoots
import GenesisAgents.XeroScope
import GenesisAgents.XeroAllowlist
import GenesisAgents.FullModeConsent
import GenesisAgents.AnthropicFixpoints
import GenesisAgents.PrincipalTokens
import GenesisAgents.EnvelopeAgreement
import GenesisAgents.TransactionScan
import GenesisAgents.SuccessCriteria
import GenesisAgents.ResultSummary
import GenesisAgents.LoopReturns
import GenesisAgents.DurableSessions
import GenesisAgents.PathConfinement
import GenesisAgents.Workspaces
import GenesisAgents.FinanceReport
import GenesisAgents.FinanceTotals
import GenesisAgents.RevopsReport
import GenesisAgents.RevopsTotals
import GenesisAgents.ReportLimits
import GenesisAgents.ReportErrors
import GenesisAgents.ExactRatios
import GenesisAgents.EvalClient
import GenesisAgents.JudgeReplies
import GenesisAgents.EmbeddedFailures
import GenesisAgents.UrlGuards
import GenesisAgents.GuardAgreement
import GenesisAgents.JsonLines
import GenesisAgents.JsonlStore
import GenesisAgents.BalancedObjects
import GenesisAgents.AuditRedaction
import GenesisAgents.AuditSecrets
import GenesisAgents.TraceSecrets
import GenesisAgents.StoreConnections
import GenesisAgents.BrowserBridge
import GenesisAgents.SessionVault
import GenesisAgents.Negotiations
import GenesisAgents.ProofTokens
import GenesisAgents.AuditExport
import GenesisAgents.SandboxLaunch
import GenesisAgents.EventLog
import GenesisAgents.SyncRuns
import GenesisAgents.DelegationAccounts
import GenesisAgents.ArtifactLinks
