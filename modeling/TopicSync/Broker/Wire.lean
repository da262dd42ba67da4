import TopicSync.Broker.Code
import TopicSync.Program
import TopicSync.TextMap

/-!
The requests that are made to the brokers, and the form of their answers.
-/
namespace TopicSync

/-- A topic as the brokers' metadata describe it. -/
structure BrokerTopic where
  name : String
  partitions : Nat
  /-- The number of replicas of the first partition. -/
  replicas : Nat
  error : Option BrokerCode
  deriving DecidableEq, Repr

namespace BrokerTopic

def isHealthy (t : BrokerTopic) : Bool := t.error.isNone

/-- The brokers do not say that the topic is unknown. -/
def isKnown (t : BrokerTopic) : Bool := !t.error.any BrokerCode.isUnknownTopic

end BrokerTopic

/-- Where the value of a configuration entry comes from. -/
inductive ConfigSource where
  | dynamicTopic
  | dynamicBroker
  | dynamicDefaultBroker
  | staticBroker
  | default
  | unknown
  deriving DecidableEq, Repr

structure ConfigEntry where
  name : String
  value : Option String
  source : ConfigSource
  deriving DecidableEq, Repr

inductive WireCall where
  | metadata
  | describeConfigs (names : List String)
  | createTopic (name : String) (partitions replicas : Nat) (config : TextMap String)
  | deleteTopic (name : String)
  | alterConfig (name : String) (config : TextMap String)
  | createPartitions (name : String) (count : Nat)
  deriving DecidableEq, Repr

namespace WireCall

/-- What is answered: a result for each name asked about, or the result for the one topic, which
the brokers may leave out. -/
def Value : WireCall → Type
  | metadata => List BrokerTopic
  | describeConfigs _ => List (Except BrokerCode (List ConfigEntry))
  | createTopic .. | deleteTopic _ | alterConfig .. | createPartitions .. =>
    Option (Except BrokerCode Unit)

abbrev Answer (c : WireCall) : Type := Except BrokerError c.Value

/-- The greatest counts that can be asked for. -/
def maxPartitions : Nat := 100000
def maxReplicas : Nat := 10000

/-- A failure to put a request together. -/
def malformed (reason : String) : Option BrokerError :=
  some (.client ("Admin operation creation error: " ++ reason))

def hasNul (s : String) : Bool := s.toList.contains (Char.ofNat 0)

/-- A text with a NUL cannot be sent. -/
def unsendable (texts : List String) : Option BrokerError :=
  if texts.any hasNul then some (.client "FFI nul error") else none

/-- Why a request cannot be put together, if it cannot: a count is out of range, a text cannot be
sent, or an entry of a changed configuration has no name. -/
def obstacle? : WireCall → Option BrokerError
  | createTopic _ partitions replicas config =>
    if maxPartitions < partitions then
      malformed s!"num_partitions out of expected range 1..{maxPartitions} or -1 for broker default"
    else if maxReplicas < replicas then
      malformed s!"replication_factor out of expected range -1..{maxReplicas}"
    else unsendable (config.keys ++ config.values)
  | alterConfig _ config =>
    (unsendable (config.keys ++ config.values)).or
      (if config.keys.contains "" then malformed "" else none)
  | createPartitions _ count =>
    if maxPartitions < count then
      malformed s!"new_total_cnt out of expected range 1..{maxPartitions}"
    else none
  | metadata | describeConfigs _ | deleteTopic _ => none

/-- The failure of a request to which no answer comes. -/
def unanswered : WireCall → BrokerError
  | metadata =>
    .client "Meta data fetch error: BrokerTransportFailure (Local: Broker transport failure)"
  | describeConfigs _ => .timeout "describe_configs timed out"
  | createTopic .. => .timeout "create_topics timed out"
  | deleteTopic _ => .timeout "delete_topics timed out"
  | alterConfig .. => .timeout "alter_configs timed out"
  | createPartitions .. => .timeout "create_partitions timed out"

end WireCall

abbrev wireInterface : Interface := ⟨WireCall, WireCall.Answer⟩

end TopicSync
