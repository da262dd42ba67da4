import TopicSync.Failure

/-!
The error codes of the brokers, and the failures they stand for.
-/
namespace TopicSync

structure BrokerCode where
  val : Int
  deriving DecidableEq, Repr

namespace BrokerCode

/-- Name and description of the codes that have a text here, in the words of the client library. The
library has words for more codes; those are left out, and all of them read as one unknown error. -/
def descriptions : List (Int × String × String) :=
  [(1, "OffsetOutOfRange", "Broker: Offset out of range"),
   (2, "InvalidMessage", "Broker: Invalid message"),
   (5, "LeaderNotAvailable", "Broker: Leader not available"),
   (6, "NotLeaderForPartition", "Broker: Not leader for partition"),
   (8, "BrokerNotAvailable", "Broker: Broker not available"),
   (9, "ReplicaNotAvailable", "Broker: Replica not available"),
   (13, "NetworkException", "Broker: Broker disconnected before response received"),
   (14, "CoordinatorLoadInProgress", "Broker: Coordinator load in progress"),
   (15, "CoordinatorNotAvailable", "Broker: Coordinator not available"),
   (16, "NotCoordinator", "Broker: Not coordinator"),
   (17, "InvalidTopic", "Broker: Invalid topic"),
   (29, "TopicAuthorizationFailed", "Broker: Topic authorization failed"),
   (30, "GroupAuthorizationFailed", "Broker: Group authorization failed"),
   (31, "ClusterAuthorizationFailed", "Broker: Cluster authorization failed"),
   (35, "UnsupportedVersion", "Broker: API version not supported"),
   (37, "InvalidPartitions", "Broker: Invalid number of partitions"),
   (38, "InvalidReplicationFactor", "Broker: Invalid replication factor"),
   (39, "InvalidReplicaAssignment", "Broker: Invalid replica assignment"),
   (40, "InvalidConfig", "Broker: Configuration is invalid"),
   (41, "NotController", "Broker: Not controller for cluster"),
   (42, "InvalidRequest", "Broker: Invalid request"),
   (44, "PolicyViolation", "Broker: Policy violation"),
   (72, "ListenerNotFound", "Broker: No matching listener"),
   (73, "TopicDeletionDisabled", "Broker: Topic deletion is disabled"),
   (74, "FencedLeaderEpoch", "Broker: Leader epoch is older than broker epoch"),
   (89, "ThrottlingQuotaExceeded", "Broker: Throttling quota has been exceeded")]

/-- Name and description in one; codes without their own are unknown errors. -/
def text (c : BrokerCode) : String :=
  match descriptions.find? (·.1 = c.val) with
  | some (_, name, description) => s!"{name} ({description})"
  | none => "Unknown (Unknown broker error)"

/-- The topic does not exist, as a broker or the client itself says. -/
def isUnknownTopic (c : BrokerCode) : Bool := c.val = 3 || c.val = -188

def isTimeout (c : BrokerCode) : Bool := c.val = 7 || c.val = -185

/-- The failure of an operation on a topic that was answered with this code. -/
def error (topic : String) (c : BrokerCode) : BrokerError :=
  if c.val = 36 then .topicExists topic
  else if c.isUnknownTopic then .unknownTopic topic
  else if c.isTimeout then .timeout s!"admin operation on '{topic}'"
  else .admin topic c.text

end BrokerCode

end TopicSync
