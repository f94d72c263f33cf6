import FaultLane.CrashRequestModes
import FaultLane.Symbolication
import FaultLane.ProcessingContract
import FaultLane.BoundedHistory
import FaultLane.ProcessingResult
import FaultLane.ProcessingProducer
import FaultLane.ProcessingHistory
import FaultLane.GroupingText
import FaultLane.SortDedup
import FaultLane.Grouping
import FaultLane.GroupingDigest
import FaultLane.GroupingVolatile
import FaultLane.GroupingTemplate
import FaultLane.GroupingGenericErrors
import FaultLane.SymCacheResolution
import FaultLane.Redaction
import FaultLane.CrashIngest
import FaultLane.TransitionSystem
import FaultLane.BundleLifecycle
import FaultLane.CrashIngestBundles
import FaultLane.CrashIngestRegistry
import FaultLane.CrashIngestSafety
import FaultLane.CrashJob
import FaultLane.CrashJobSafety
import FaultLane.JobQueue
import FaultLane.Reprocessing
import FaultLane.ReprocessingRequests
import FaultLane.PartialIndex
import FaultLane.SymbolUpload
import FaultLane.SymbolUploadIndexing
import FaultLane.SymbolUploadObjects
import FaultLane.SymbolUploadRetries
import FaultLane.TableTotals
import FaultLane.UsageAccounting
import FaultLane.UsageRetention
import FaultLane.LeaseFencing
import FaultLane.ProjectConcurrency
import FaultLane.IssuePublications
import FaultLane.SymbolArrivalOrder
import FaultLane.KeysetPage
import FaultLane.SymbolWakeupsRuns
import FaultLane.RawSchedulingRuns
import FaultLane.MembershipsRuns
import FaultLane.AlertDeliveriesRuns
import FaultLane.RequestStatusRuns
import FaultLane.RulesPublicationRuns
import FaultLane.DailyRollupsRepair
import FaultLane.RollupRepairRuns
import FaultLane.IssueTransitionsRuns
import FaultLane.LogTailWindow
import FaultLane.LogTailSpec
import FaultLane.TemplateSubstitution
import FaultLane.ArtifactMatching
import FaultLane.FrameComponents
import FaultLane.PublishedText
import FaultLane.WaiterSelection
import FaultLane.SymbolCachesSafety
import FaultLane.DashboardOverviewSwitch
import FaultLane.SourceAddress
import FaultLane.FixedParts
import FaultLane.BodyUpload
import FaultLane.ArtifactLimits
import FaultLane.SymbolSelection
import FaultLane.UsageFades
import FaultLane.UsageRecency
import FaultLane.UsageSettled
import FaultLane.IssueSampling
import FaultLane.IssueSamplingRuns
import FaultLane.JobRetries
import FaultLane.PagedBytes
import FaultLane.PdbDebugHeaderReads
import FaultLane.SymbolRenegotiation
import FaultLane.RepeatedReprocessing
import FaultLane.MultipartAgreement
import FaultLane.CacheIdentities
import FaultLane.ProjectRollupsRepair
import FaultLane.QuietHours
import FaultLane.PublicDestinations
import FaultLane.MemberRemoval
import FaultLane.InvitationConflicts
import FaultLane.IssuePages
import FaultLane.CommandLines
import FaultLane.RemediationCommand
import FaultLane.RuleRotationRuns
import FaultLane.UsageAdmissionRuns
import FaultLane.SymbolicationAgreement
import FaultLane.DetailViewsShown
import FaultLane.AlertEvaluationLate
import FaultLane.ReprocessingSizesSample
