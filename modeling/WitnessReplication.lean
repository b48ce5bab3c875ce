import WitnessReplication.Description
import WitnessReplication.Server
import WitnessReplication.SweptCache
import WitnessReplication.Kv.Store
import WitnessReplication.Replica.Creation
import WitnessReplication.Transport.Uri
import WitnessReplication.Simulation.SessionBench
import WitnessReplication.Simulation.CourierBench
import WitnessReplication.Simulation.ForwarderBench
import WitnessReplication.Simulation.Deployment
import WitnessReplication.Proofs.CacheLaws
import WitnessReplication.Proofs.ReplicaRuns
import WitnessReplication.Proofs.LoggedMachine
import WitnessReplication.Proofs.ExactlyOnce
import WitnessReplication.Proofs.Durability
import WitnessReplication.Proofs.CourierSteps
import WitnessReplication.Proofs.SessionRuns
import WitnessReplication.Proofs.AttemptHistory
import WitnessReplication.Proofs.OpeningRuns
import WitnessReplication.Proofs.WitnessQuorum
import WitnessReplication.Proofs.AnswerOrigin
import WitnessReplication.Proofs.MemberRuns
import WitnessReplication.Proofs.ClientIds
import WitnessReplication.Proofs.WitnessLaws
import WitnessReplication.Proofs.SyncedNames
import WitnessReplication.Proofs.FollowerRuns
import WitnessReplication.Proofs.OneLeader
import WitnessReplication.Proofs.Acknowledged
import WitnessReplication.Proofs.WitnessDrain
import WitnessReplication.Proofs.InterruptedRequests
import WitnessReplication.Proofs.TrackedExecutions
import WitnessReplication.Proofs.WitnessRuns
import WitnessReplication.Proofs.FieldLaws
import WitnessReplication.Proofs.KvLaws
import WitnessReplication.Proofs.WitnessHistory
import WitnessReplication.Proofs.Reordering
import WitnessReplication.Proofs.Speculation
import WitnessReplication.Proofs.SharedCache
import WitnessReplication.Proofs.ConcurrentSweeps
import WitnessReplication.Proofs.TendedCache
import WitnessReplication.Proofs.CollectorTiming
import WitnessReplication.Proofs.LoopQuiescence
import WitnessReplication.Proofs.Executions
import WitnessReplication.Proofs.BegunCommands
import WitnessReplication.Proofs.EndToEnd
import WitnessReplication.Proofs.CommitTiming
import WitnessReplication.Proofs.ErrandSteps
import WitnessReplication.Proofs.SoleCalls
import WitnessReplication.Proofs.ExactAttempts
import WitnessReplication.Proofs.FastPath
import WitnessReplication.Proofs.AttemptRulings
import WitnessReplication.Proofs.SoleRuns
import WitnessReplication.Proofs.WireRoundTrip
import WitnessReplication.Proofs.SlotLines
import WitnessReplication.Proofs.LineRuns
import WitnessReplication.Proofs.SteadyCourier
import WitnessReplication.Proofs.SteadyCalls
import WitnessReplication.Proofs.StableCluster
import WitnessReplication.Proofs.ExactCollection
import WitnessReplication.Proofs.CourierRuns
import WitnessReplication.Proofs.LeaderSearch
import WitnessReplication.Proofs.LeaderConvergence
import WitnessReplication.Proofs.PoolClosing
import WitnessReplication.Proofs.SessionEvents
import WitnessReplication.Proofs.ClosedSessions
import WitnessReplication.Proofs.EitherOrder
import WitnessReplication.Proofs.KeyConflicts
import WitnessReplication.Proofs.StoreHistory
import WitnessReplication.Proofs.RetryRounds
import WitnessReplication.Proofs.RetryContract
import WitnessReplication.Proofs.ForwardedRounds
import WitnessReplication.Proofs.ServedRequests
import WitnessReplication.Proofs.LearnedTerms
import WitnessReplication.Proofs.CommandIdentities
