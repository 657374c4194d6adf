import Kernloom.Program
import Kernloom.Transition
import Kernloom.GoValue
import Kernloom.Action
import Kernloom.Lease
import Kernloom.KeyedTable
import Kernloom.LeaseStore
import Kernloom.BrokerOps
import Kernloom.LeaseMetadata
import Kernloom.Broker
import Kernloom.BrokerWorld
import Kernloom.SourceExecutor
import Kernloom.RelationshipTarget
import Kernloom.BrokeredPEP
import Kernloom.BrokeredExecutor
import Kernloom.BrokerRules
import Kernloom.ExecutionRecord
import Kernloom.LeaseCoherence
import Kernloom.SourceRules
import Kernloom.SourceCoherence
import Kernloom.SourceApply
import Kernloom.SourceRuns
import Kernloom.HeldEnforcement
import Kernloom.HeldRuns
import Kernloom.LeaseJournal
import Kernloom.FencedPEP
import Kernloom.FencingRuns
import Kernloom.RenewalRace
import Kernloom.RuntimeContracts
import Kernloom.GoText
import Kernloom.RuntimePolicy
import Kernloom.Conformance
import Kernloom.Lifecycle
import Kernloom.PolicyResolver
import Kernloom.ManagedBundle
import Kernloom.BundleHistory
import Kernloom.BundleCeilings
import Kernloom.PathIndependence
import Kernloom.PolicyFile
import Kernloom.PackHandoff
import Kernloom.LastKnownGood
import Kernloom.Relationship
import Kernloom.LearningGuard
import Kernloom.Learner
import Kernloom.LearnerRuns
import Kernloom.LearnedCounts
import Kernloom.OperatorDecisions
import Kernloom.GuardedLearning
import Kernloom.ExclusionRuns
import Kernloom.RuntimeFacts
import Kernloom.ShieldPacket
import Kernloom.TokenBucket
import Kernloom.ShieldRateLimit
import Kernloom.Shield
import Kernloom.ShieldAccounting
import Kernloom.EdgeEnforcement
import Kernloom.ShieldLimits
import Kernloom.RateWindows
import Kernloom.BucketRuns
import Kernloom.FixedRate
import Kernloom.FlowPoll
import Kernloom.NetIP
import Kernloom.RelationshipDeny
import Kernloom.LeaseStrength
import Kernloom.AuthorisedActions
import Kernloom.TargetCodec
import Kernloom.RelationshipExecutor
import Kernloom.RuntimeDecision
import Kernloom.EnforcedTargets
import Kernloom.RelationshipGroup
import Kernloom.CanonicalTarget
import Kernloom.EdgeLeases
import Kernloom.NetworkExtractor
import Kernloom.EdgeAllowlist
import Kernloom.MetricBaseline
import Kernloom.GraphPipeline
import Kernloom.AntiPoisoning
import Kernloom.JsonText
import Kernloom.JsonRoundTrip
import Kernloom.ZonedTime
import Kernloom.JsonCodec
import Kernloom.JsonMap
import Kernloom.JsonNumber
import Kernloom.StateFile
import Kernloom.StateWrites
import Kernloom.StateUpdates
import Kernloom.AgentRestarts
import Kernloom.RollbackProtection
import Kernloom.Fsm
import Kernloom.LevelChanges
import Kernloom.SourceTable
import Kernloom.TrackedLevels
import Kernloom.Netfilter
import Kernloom.NetfilterThreads
import Kernloom.FirstMatch
import Kernloom.NetfilterRender
import Kernloom.NetfilterVerdicts
import Kernloom.IptablesBackend
import Kernloom.IptablesRuns
import Kernloom.Sidecar
import Kernloom.SidecarRuns
import Kernloom.WriteBehind
import Kernloom.FlushResult
import Kernloom.BaselineTable
import Kernloom.LearnerFlush
import Kernloom.MetricFlush
import Kernloom.SourceBaseline
import Kernloom.SourceFlush
import Kernloom.FlushRuns
import Kernloom.ReceiptDelivery
import Kernloom.ReactionState
import Kernloom.SnapshotWrites
import Kernloom.ReactionRuns
import Kernloom.RefillBounds
import Kernloom.FsmTicks
import Kernloom.FsmMonotone
import Kernloom.FsmRuns
import Kernloom.RuleSelection
import Kernloom.RankAgreement
import Kernloom.TargetReadback
import Kernloom.TextOrder
import Kernloom.TimeOrder
import Kernloom.StoredTimes
import Kernloom.JsonCompact
import Kernloom.TimeReading
import Kernloom.StoredLeases
import Kernloom.LeaseRoundTrip
import Kernloom.NestedMap
import Kernloom.NestedFacts
import Kernloom.SourceMaps
import Kernloom.SourceReverts
import Kernloom.SourceFeedback
import Kernloom.ResponseConformance
import Kernloom.PromotionSoundness
import Kernloom.GraphPhases
import Kernloom.ActionDurations
import Kernloom.ProgramCalls
import Kernloom.ActionPrerequisites
import Kernloom.RenewalBudget
import Kernloom.ReceiptAgreement
import Kernloom.TransitionAgreement
import Kernloom.TuningFrame
import Kernloom.RelationshipLeases
import Kernloom.Base64
import Kernloom.PolicySignature
import Kernloom.Autotuner
import Kernloom.TuningBounds
import Kernloom.CounterRates
import Kernloom.MovingAverage
import Kernloom.BaselineBounds
import Kernloom.ReactionWindows
import Kernloom.ReceiptRoundTrip
import Kernloom.BaselineRestore
import Kernloom.BaselineRestarts
import Kernloom.NetfilterLimiters
import Kernloom.Conntrack
import Kernloom.ConntrackDeltas
import Kernloom.ConntrackLines
import Kernloom.IdleSources
import Kernloom.BootstrapPhases
import Kernloom.ProtectedSubjects
import Kernloom.EdgeKeys
import Kernloom.KeyTexts
import Kernloom.ShieldCommands
import Kernloom.AccessPolicies
import Kernloom.EventBus
import Kernloom.LocalRisk
import Kernloom.SignalWindows
import Kernloom.GraphStrikes
import Kernloom.SourceWhitelist
import Kernloom.ShieldSensor
import Kernloom.ReservoirFairness
import Kernloom.TuningSamples
import Kernloom.EdgeSignals
import Kernloom.WhitelistGuard
