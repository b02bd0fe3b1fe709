/-!
# Errors of the cluster layer

The sentinel errors of `internal/cluster/errors.go` together with the two
anonymous errors that the manager builds in place and the reply of a server
whose parser refuses a request.  `text` is what `Error()` returns, because
replication replies are classified by their text.
-/

namespace MnemoKV

/-- The errors of `metadata.go` and of replication. -/
inductive ClusterError
  | staleTerm
  | notLeader
  | notReplica
  | replicaUnavailable
  | sequenceGap
  | slotOutOfRange
  | unknownNode (nodeID : String)
  | replicaIsLeader
  | clusterMismatch
  | staleMetadata
  | noReplicaAssigned
  | engineDetached
  | emptyRecord
  | replicatedCommandFailed
  | restoreFailed
  | protocolError
  deriving DecidableEq, Repr

namespace ClusterError

def text : ClusterError → String
  | staleTerm => "stale term"
  | notLeader => "not the leader for this slot"
  | notReplica => "not the replica for this slot"
  | replicaUnavailable => "slot replica is unavailable or not synchronized"
  | sequenceGap => "replication sequence gap"
  | slotOutOfRange => "slot is out of range"
  | unknownNode nodeID => "unknown cluster node: " ++ nodeID
  | replicaIsLeader => "replica cannot be the slot leader"
  | clusterMismatch => "cluster metadata does not match this cluster"
  | staleMetadata => "cluster metadata version is stale"
  | noReplicaAssigned => "slot has no assigned replica to promote"
  | engineDetached => "cluster engine is not attached"
  | emptyRecord => "replication record has no command"
  | replicatedCommandFailed => "replicated command failed"
  | restoreFailed => "restore failed"
  | protocolError => "Protocol error"

end ClusterError
end MnemoKV
