import TopicSync.Broker.Wire

/-!
A broker that holds certain topics and never changes. It answers changes with one given code, or
accepts them without effect; if it cannot be reached, it answers nothing at all.
-/
namespace TopicSync.Memory

/-- A topic, its configuration, and the code with which its metadata are reported. -/
structure FixedTopic where
  metadata : BrokerTopic
  config : List ConfigEntry
  deriving DecidableEq, Repr

structure FixedBroker where
  topics : List FixedTopic
  reachable : Bool
  /-- The answer to a change of a topic. -/
  refusal : Option BrokerCode
  /-- The requests so far, without those for metadata, the latest first. -/
  requests : List WireCall
  deriving DecidableEq, Repr

namespace FixedBroker

/-- The configuration of the first topic with this name. -/
def configOf (b : FixedBroker) (name : String) : Except BrokerCode (List ConfigEntry) :=
  match b.topics.find? (·.metadata.name = name) with
  | none => .error ⟨3⟩
  | some t => .ok t.config

def verdict (b : FixedBroker) : Except BrokerCode Unit :=
  match b.refusal with
  | none => .ok ()
  | some c => .error c

/-- What is answered to a request that arrives. -/
def respond : (c : WireCall) → FixedBroker → c.Answer × FixedBroker
  | .metadata, b => (.ok (b.topics.map FixedTopic.metadata), b)
  | .describeConfigs names, b =>
    (.ok (names.map b.configOf), { b with requests := .describeConfigs names :: b.requests })
  | .createTopic name partitions replicas config, b =>
    (.ok (some b.verdict),
     { b with requests := .createTopic name partitions replicas config :: b.requests })
  | .deleteTopic name, b =>
    (.ok (some b.verdict), { b with requests := .deleteTopic name :: b.requests })
  | .alterConfig name config, b =>
    (.ok (some (.ok ())), { b with requests := .alterConfig name config :: b.requests })
  | .createPartitions name count, b =>
    (.ok (some b.verdict), { b with requests := .createPartitions name count :: b.requests })

def answer (c : WireCall) (b : FixedBroker) : c.Answer × FixedBroker :=
  if b.reachable then respond c b else (.error c.unanswered, b)

end FixedBroker

end TopicSync.Memory
