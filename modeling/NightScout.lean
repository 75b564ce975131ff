import NightScout.Cli.AuthorizationRuns
import NightScout.Core.FairBatch
import NightScout.Core.LifecycleRuns
import NightScout.Core.ReadyTasks
import NightScout.Core.SanitizedUrls
import NightScout.Core.WorkConservation
import NightScout.Exporters.SensitiveExports
import NightScout.Exporters.SurfaceHtmlFaithful
import NightScout.Intelligence.BudgetInspector
import NightScout.Intelligence.ClosestHypotheses
import NightScout.Intelligence.ConfidenceGrowth
import NightScout.Intelligence.ConvergenceRaces
import NightScout.Intelligence.CvePagination
import NightScout.Intelligence.GenomeFingerprint
import NightScout.Intelligence.MergedCorpus
import NightScout.Intelligence.NoveltyOrder
import NightScout.Policy.RateLedger
import NightScout.Policy.RatePlan
import NightScout.Policy.Restrictions
import NightScout.Policy.RetryHint
import NightScout.Policy.SeedPlans
import NightScout.Policy.UrlRules
import NightScout.Runtime.PublishRuns
import NightScout.Scripts.SyncConvergence
import NightScout.Storage.BudgetStoreAgreement
import NightScout.Storage.LineageQueries
import NightScout.Storage.ReviewGateRuns
import NightScout.Storage.ReviewStoreAgreement
import NightScout.Storage.SnapshotRuns
import NightScout.Storage.TaskStoreAgreement
import NightScout.Storage.UtcDateTime
import NightScout.Storage.WorkspaceRuns
import NightScout.Storage.YieldStoreAgreement
import NightScout.Surface.Hierarchy
import NightScout.Surface.Subgraph
import NightScout.Workers.ArchiveExtraction
import NightScout.Workers.ContainedPermutations
import NightScout.Workers.ExtraArgs
import NightScout.Workers.HostBlindRuns
import NightScout.Workers.ParameterSelection
import NightScout.Workers.SecretFindings
import NightScout.Workers.StrayQuotes
import NightScout.Workers.TotalParsers
import NightScout.Workers.VHostAuthority
import NightScout.Workers.VHostExploration
