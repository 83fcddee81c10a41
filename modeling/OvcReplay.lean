import OvcReplay.C2Csm.Accounting
import OvcReplay.C2Csm.SuccessionLog
import OvcReplay.C2Csm.Telescoping
import OvcReplay.C2Vnext.Crossings
import OvcReplay.C2Vnext.Invalidation
import OvcReplay.C2Vnext.Jsonl
import OvcReplay.C2Vnext.NoRepaint
import OvcReplay.C2Vnext.ParentSelection
import OvcReplay.C2Vnext.Population
import OvcReplay.C2Vnext.ScopeWindows
import OvcReplay.C2e.Agreement
import OvcReplay.C2e.Atomicity
import OvcReplay.C2e.CanonicalDecimal
import OvcReplay.C2e.RecordCodec
import OvcReplay.C2e.Resharding
import OvcReplay.C2e.ResolverNaming
import OvcReplay.C2e.TopologyRuns
import OvcReplay.C2p.LedgerLaws
import OvcReplay.C2p.Rs0.Restart
import OvcReplay.C2p.SnapshotTimes
import OvcReplay.Esl.CanonicalBytes
import OvcReplay.Esl.OccurrenceOrder
import OvcReplay.EvidenceStore.Accounting
import OvcReplay.MarketGrammar.ClockAlignment
import OvcReplay.MarketGrammar.Episodes
import OvcReplay.P1cdi.Generations
import OvcReplay.P1cdi.Replay
import OvcReplay.P2cti.Disclosure
import OvcReplay.PatternDiscovery.Clustering
import OvcReplay.PatternDiscovery.WindowInvariants
import OvcReplay.Prsc.Multiplicity
import OvcReplay.ResearchOps.Governance
import OvcReplay.SharedSystems.Invalidation
import OvcReplay.SharedSystems.Resumption
import OvcReplay.Skills.LivePilotExclusivity
import OvcReplay.Skills.MaterialisationIntents
import OvcReplay.Skills.QueueRebuild
import OvcReplay.Skills.Reconstruction
import OvcReplay.Skills.Staleness
import OvcReplay.Skills.SupervisorDeliveries
import OvcReplay.Skills.SupervisorOwnership
import OvcReplay.Skills.SupervisorPhases
import OvcReplay.Skills.TerminalStates
import OvcReplay.Skills.VitPayloads
import OvcReplay.Skills.VitRecovery
import OvcReplay.Srfd.CapacityPlan
import OvcReplay.Srfd.Conservation
import OvcReplay.Srfd.DirectionalChange
import OvcReplay.Srfd.DistanceBatch
import OvcReplay.Srfd.DistanceSurface
import OvcReplay.Srfd.ExactAgreement
import OvcReplay.Srfd.Interruptions
import OvcReplay.Srfd.MedoidStarVersions
import OvcReplay.Srfd.StreamedAnalysis
