import AgenticDynamics.Control.OutboxRace
import AgenticDynamics.Control.RowHistory
import AgenticDynamics.Control.UnitCaps
import AgenticDynamics.Fleet.LaunchSafety
import AgenticDynamics.Context.Soundness
import AgenticDynamics.Context.Tightening
import AgenticDynamics.Context.Advisory
import AgenticDynamics.Context.Preconditions
import AgenticDynamics.Context.ApplyingRouter
import AgenticDynamics.Experiment.RuleGate
import AgenticDynamics.Experiment.CompiledDag
import AgenticDynamics.Experiment.CellMatrix
import AgenticDynamics.Knowledge.PoisonEntry
import AgenticDynamics.Knowledge.DeadLetters
import AgenticDynamics.Knowledge.FlagSafety
import AgenticDynamics.Knowledge.ScopeAgreement
import AgenticDynamics.Knowledge.OutcomeCounts
import AgenticDynamics.Knowledge.RegistryDrain
import AgenticDynamics.Control.QueueBalance
import AgenticDynamics.Control.ControlEpoch
import AgenticDynamics.Control.ProjectionWatermarks
import AgenticDynamics.Experiment.RunIndex
import AgenticDynamics.Control.AwaitingRuns
import AgenticDynamics.Control.FactIdentity
import AgenticDynamics.Execution.PreparedStep
import AgenticDynamics.Fleet.ExecutedMounts
import AgenticDynamics.Fleet.RequestKeys
import AgenticDynamics.Control.WatchSafety
import AgenticDynamics.Control.OfferAcceptance
import AgenticDynamics.Control.ApprovalRoundTrip
import AgenticDynamics.Execution.PaidInvocations
import AgenticDynamics.Execution.PlanExpansion
import AgenticDynamics.Execution.FindingEmission
import AgenticDynamics.Execution.VerifierGate
import AgenticDynamics.Control.OrphanSweep
import AgenticDynamics.Control.QuarantineLedger
import AgenticDynamics.Knowledge.BeliefArithmetic
import AgenticDynamics.Knowledge.RedundancyCollapse
import AgenticDynamics.Knowledge.EvidenceExpansion
import AgenticDynamics.Knowledge.ContextRoute
import AgenticDynamics.Knowledge.VectorSearch
import AgenticDynamics.Control.Publication
import AgenticDynamics.Fleet.BrokerReplies
import AgenticDynamics.Fleet.EnvelopeRecovery
import AgenticDynamics.Fleet.SubmitSurvival
import AgenticDynamics.Fleet.StaleSweep
import AgenticDynamics.Knowledge.BindingTree
import AgenticDynamics.Knowledge.CloseThenOpen
import AgenticDynamics.Knowledge.Identities
import AgenticDynamics.Knowledge.ConstraintOrigin
import AgenticDynamics.Knowledge.ConstructionKey
import AgenticDynamics.Knowledge.HonestHistory
import AgenticDynamics.Knowledge.DamageTolerance
import AgenticDynamics.Execution.TranscriptTail
import AgenticDynamics.Execution.JsoncReading
import AgenticDynamics.Control.RoutedChoice
import AgenticDynamics.Experiment.BestArm
