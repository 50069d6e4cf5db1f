import Registrar.Library.StableSort
import Registrar.Store.AuditChain
import Registrar.Store.AuditVerify
import Registrar.Library.Trim
import Registrar.Schema.Common
import Registrar.Schema.Records
import Registrar.Library.Table
import Registrar.Library.Transition
import Registrar.Store.AuditRepository
import Registrar.Store.ConcurrentInserts
import Registrar.Store.ExceptionManifest
import Registrar.Store.NoLaundering
import Registrar.Common.Environment
import Registrar.Library.Program
import Registrar.Store.Store
import Registrar.Policy.Rules
import Registrar.Policy.Pipeline
import Registrar.Policy.Supersession
import Registrar.Curator.Sensitivity
import Registrar.Curator.Promoter
import Registrar.Curator.MergeGate
import Registrar.Curator.MergeCommutes
import Registrar.Store.MergeVerify
import Registrar.Curator.MergeVerifies
import Registrar.Curator.Hold
import Registrar.Curator.Curator
import Registrar.Curator.NarrowAudience
import Registrar.Curator.RedactMemory
import Registrar.Curator.ResolveHold
import Registrar.Api.MemoryService
import Registrar.Api.PromotionService
import Registrar.Library.TwoPhase
import Registrar.Concurrency.Maintenance
import Registrar.Concurrency.AudienceNarrows
import Registrar.Concurrency.RedactionStays
import Registrar.Concurrency.Lifecycles
import Registrar.Runs.Mergeable
import Registrar.Library.ChainCommitment
import Registrar.Store.AuditAnchor
import Registrar.Store.RowRewrites
import Registrar.Runs.SupersessionGraph
import Registrar.Runs.TenantLinks
import Registrar.Curator.MergeAtomicity
import Registrar.Curator.MergeJudgements
import Registrar.Curator.MergeTenants
import Registrar.Curator.Decisions
import Registrar.Curator.HoldBooks
import Registrar.Curator.HoldSteps
import Registrar.Library.Stages
import Registrar.Concurrency.Holds
import Registrar.Library.Coupling
import Registrar.Curator.Attribution
import Registrar.Curator.PromotionPaths
import Registrar.Daemon.Lock
import Registrar.Curator.CurationKeeps
import Registrar.Curator.SpoolIntake
import Registrar.Daemon.Cycle
import Registrar.Curator.SpoolArrivals
import Registrar.Daemon.Stranding
import Registrar.Daemon.OwnTenant
import Registrar.Api.ApprovalSteps
import Registrar.Concurrency.DecisionStages
import Registrar.Concurrency.FinalDecisions
import Registrar.Common.Snapshots
import Registrar.Curator.ReviewedStaleness
import Registrar.Store.LifecycleReplay
import Registrar.Concurrency.ExplainedLifecycles
import Registrar.Concurrency.LedgerStages
import Registrar.Library.JsString
import Registrar.Store.CandidateRows
import Registrar.Curator.CandidateIntake
import Registrar.Runs.AuditedIntake
import Registrar.Auth.TokenRegistry
import Registrar.Auth.ApiKeyAuth
import Registrar.Auth.RevokedActors
import Registrar.Export.Formatter
import Registrar.Export.Exporter
import Registrar.Export.Turns
import Registrar.Export.IncrementalExport
import Registrar.Export.RestrictedFiles
import Registrar.Export.Convergence
import Registrar.Export.TenantFiles
import Registrar.Export.SharedTree
import Registrar.Index.EnsureFresh
import Registrar.Index.SafeSweeps
import Registrar.Index.SweepInvariant
import Registrar.Index.SweepTransactions
import Registrar.Index.SweepRuns
import Registrar.Index.Mirror
import Registrar.Index.ExportTruth
import Registrar.Index.IndexScrub
import Registrar.Index.ScrubClean
import Registrar.Index.NextSweep
import Registrar.Index.ScrubThenSweep
import Registrar.Graph.GraphReads
import Registrar.Graph.ScopedTraversal
import Registrar.Library.IsoTime
import Registrar.Curator.NewerTruth
import Registrar.Curator.RedactionTrail
import Registrar.Curator.RedactionsInStep
import Registrar.Curator.RedactionRuns
import Registrar.Library.JsonStrings
import Registrar.Store.RawCandidates
import Registrar.Curator.WikiLinks
import Registrar.Library.Fts5
import Registrar.Curator.WikiLinkSearch
import Registrar.Policy.ContradictionPhase
import Registrar.Curator.DryRunVerdicts
import Registrar.Common.DisclosureFilter
import Registrar.Common.StandingMatches
import Registrar.Common.EscapedTerms
import Registrar.Curator.ImportPipeline
import Registrar.Curator.ProvenanceWalk
import Registrar.Curator.WalkInvariant
import Registrar.Runs.GovernedWalks
import Registrar.Common.DerivedIds
import Registrar.Policy.Verdicts
import Registrar.Store.FragmentScan
import Registrar.Store.TwoWalks
import Registrar.Library.JsValue
import Registrar.Store.AnchorLog
import Registrar.Store.AnchorLogReports
import Registrar.Store.AnchorLogLines
import Registrar.Curator.Brainignore
import Registrar.Search.QmdOutput
import Registrar.Search.PlacedDocs
import Registrar.Search.RankFusion
import Registrar.Search.NativeSearch
import Registrar.Search.DenseIndexer
import Registrar.Search.QueryScope
import Registrar.Library.YamlScalars
import Registrar.Library.YamlMapping
import Registrar.Export.FrontmatterReads
import Registrar.Library.LeftmostMatches
import Registrar.Library.Captures
import Registrar.Library.CodeUnits
import Registrar.Library.ByteTexts
import Registrar.Runtime.SecretPatterns
import Registrar.Runtime.SourceContext
import Registrar.Runtime.SecretScanner
import Registrar.Runtime.LineScan
import Registrar.Runtime.ProseCredentials
import Registrar.Library.JsonText
import Registrar.Library.JsonSame
import Registrar.Library.JsonSchema
import Registrar.Curator.RecoverySchemas
import Registrar.Curator.RecoveryPlan
import Registrar.Curator.RecoveryProposals
import Registrar.Curator.RecoveryEntries
import Registrar.Curator.RecoveryAgreement
import Registrar.Library.ReciprocalRanks
import Registrar.Search.ReciprocalRank
import Registrar.Library.JsonQuotes
import Registrar.Store.RowTexts
import Registrar.Search.RerankRuns
import Registrar.Curator.ContradictionPairs
import Registrar.Daemon.RemoteNormalForms
import Registrar.Daemon.RemoteIdentity
import Registrar.Curator.WikiLinkResolution
import Registrar.Library.Loops
import Registrar.Search.DenseTables
import Registrar.Search.EmbedClient
import Registrar.Library.JsNumbers
import Registrar.Search.DenseWrites
import Registrar.Search.DenseSync
import Registrar.Search.DenseMirror
import Registrar.Search.CleanSyncs
import Registrar.Search.DenseRuns
import Registrar.Runs.StalenessReplays
