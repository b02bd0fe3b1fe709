import MnemoKV.ListSequences
import MnemoKV.PlannedWrites
import MnemoKV.RebalanceRounds
import MnemoKV.LinkedSortedSets
import MnemoKV.ExpiringRuns
import MnemoKV.ShardInterleavings
import MnemoKV.StandaloneAnswers
import MnemoKV.AuditedWrites
import MnemoKV.RequestForwarding
import MnemoKV.ExpiredKeys
import MnemoKV.AccessCounts
import MnemoKV.FailedWrites
import MnemoKV.RestartedLeaders
import MnemoKV.RequestStreams
import MnemoKV.PeerConnections
import MnemoKV.PlanResumption
import MnemoKV.InitialTables
import MnemoKV.RepeatedObservations
import MnemoKV.RecoveredAnswers
import MnemoKV.SignedRequests
import MnemoKV.QuorumSelection
