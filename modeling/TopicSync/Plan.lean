import TopicSync.Topic.Diff
import TopicSync.Selector

/-!
What to do about one topic, given the snapshot last converged on, the one its resource describes
and the one the brokers hold. With all three present, independent edits are merged; in every other
case the missing sides decide.
-/
namespace TopicSync

inductive Action where
  | createKafkaTopic (t : Topic)
  | deleteKafkaTopic (name : TopicName)
  | changeReplicationFactor (t : Topic)
  | updateKafkaConfig (t : Topic)
  | increaseKafkaPartitions (t : Topic)
  | createResource (t : Topic)
  | updateResource (t : Topic)
  | deleteResource (name : ResourceName)
  | createStored (t : Topic)
  | updateStored (t : Topic)
  | deleteStored (name : TopicName)
  | warn (reason : String) (message : String)
  deriving DecidableEq, Repr

/-- Which of the cases a plan is for. -/
inductive Decision where
  | nothing
  | createResource
  | createKafkaTopic
  | recordConverged
  | kafkaWins
  | forgetStored
  | deleteKafkaTopic
  | deleteResource
  | merge
  deriving DecidableEq, Repr

def Decision.text : Decision → String
  | nothing => "nothing"
  | createResource => "create-resource"
  | createKafkaTopic => "create-kafka-topic"
  | recordConverged => "record-converged"
  | kafkaWins => "kafka-wins"
  | forgetStored => "forget-stored"
  | deleteKafkaTopic => "delete-kafka-topic"
  | deleteResource => "delete-resource"
  | merge => "merge"

structure Plan where
  decision : Decision
  actions : List Action
  deriving DecidableEq, Repr

namespace Plan

/-- The warning about a resource that gives way to a topic which exists already. -/
def overwriteWarning (resource kafka : Topic) (diff : TopicDiff) : Action :=
  .warn "ResourceOverwritten"
    (s!"KafkaTopic {resource.resourceName.text} differs from existing topic '{kafka.name.text}' " ++
      s!"({diff.text}); the resource was updated to match Kafka")

/-- Merge the edits of both sides since the stored snapshot. The brokers are only asked for what
they do not hold already, and the record is written last. -/
def mergeActions (stored resource kafka : Topic) : Except Failure (List Action) :=
  let kafkaEdits := TopicDiff.between stored kafka
  let resourceEdits := TopicDiff.between stored resource
  match kafkaEdits.conflict? resourceEdits with
  | some changes => .error (.conflict stored.name.text changes)
  | none =>
    let edits := kafkaEdits.merge resourceEdits
    if edits.isEmpty then .ok []
    else
      let result := { edits.apply stored with resourceName := resource.resourceName }
      if edits.partitionDelta < 0 then
        .error (.partitionDecrease stored.name.text stored.partitions.val result.partitions.val)
      else .ok <|
        (if edits.changesReplicationFactor ∧ kafka.replicationFactor ≠ result.replicationFactor
          then [.changeReplicationFactor result] else []) ++
        [.updateResource result] ++
        (if edits.changesConfig ∧ kafka.config ≠ result.config
          then [.updateKafkaConfig result] else []) ++
        (if 0 < edits.partitionDelta ∧ kafka.partitions.val < result.partitions.val
          then [.increaseKafkaPartitions result] else []) ++
        [.updateStored result]

/-- The plan for one topic, from the stored snapshot, that of the resource and that of the
brokers. -/
def make (managed : Selector) : Option Topic → Option Topic → Option Topic → Except Failure Plan
  | none, none, none => .ok ⟨.nothing, []⟩
  | none, none, some kafka =>
    let t := { kafka with labels := some managed.labels }
    .ok ⟨.createResource, [.createResource t, .createStored t]⟩
  | none, some resource, none =>
    .ok ⟨.createKafkaTopic, [.createKafkaTopic resource, .createStored resource]⟩
  | none, some resource, some kafka =>
    let diff := TopicDiff.between resource kafka
    if diff.isEmpty then .ok ⟨.recordConverged, [.createStored resource]⟩
    else
      let t := { kafka with
        resourceName := resource.resourceName
        labels := resource.labels.or kafka.labels }
      .ok ⟨.kafkaWins,
        [.updateResource t, overwriteWarning resource kafka diff, .createStored t]⟩
  | some stored, none, none => .ok ⟨.forgetStored, [.deleteStored stored.name]⟩
  | some stored, none, some kafka =>
    .ok ⟨.deleteKafkaTopic, [.deleteKafkaTopic kafka.name, .deleteStored stored.name]⟩
  | some stored, some resource, none =>
    .ok ⟨.deleteResource, [.deleteResource resource.resourceName, .deleteStored stored.name]⟩
  | some stored, some resource, some kafka =>
    match mergeActions stored resource kafka with
    | .ok actions => .ok ⟨.merge, actions⟩
    | .error e => .error e

end Plan

end TopicSync
