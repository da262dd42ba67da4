import TopicSync.Topic.Name

/-!
Triggers: what tells the operator that a topic, or everything, should be looked at again.
-/
namespace TopicSync

inductive Trigger where
  | kafkaTopicCreated (topic : TopicName)
  | kafkaTopicDeleted (topic : TopicName)
  | kafkaTopicChanged (topic : TopicName)
  | resourceAdded (topic : TopicName) (resource : ResourceName)
  | resourceModified (topic : TopicName) (resource : ResourceName)
  | resourceDeleted (topic : TopicName) (resource : ResourceName)
  /-- A resource that describes no legal topic. -/
  | resourceRejected (resource : ResourceName) (reason : String)
  | resync (topic : TopicName) (resource : Option ResourceName)
  /-- Look at every topic that is known anywhere. -/
  | sweep
  deriving DecidableEq, Repr

namespace Trigger

def cause : Trigger → String
  | kafkaTopicCreated _ => "KafkaTopicCreated"
  | kafkaTopicDeleted _ => "KafkaTopicDeleted"
  | kafkaTopicChanged _ => "KafkaTopicChanged"
  | resourceAdded .. => "ResourceAdded"
  | resourceModified .. => "ResourceModified"
  | resourceDeleted .. => "ResourceDeleted"
  | resourceRejected .. => "ResourceRejected"
  | resync .. => "Resync"
  | sweep => "Sweep"

/-- The topic to look at, if the trigger is about one. -/
def topic? : Trigger → Option TopicName
  | kafkaTopicCreated t | kafkaTopicDeleted t | kafkaTopicChanged t
  | resourceAdded t _ | resourceModified t _ | resourceDeleted t _ | resync t _ => some t
  | resourceRejected .. | sweep => none

/-- The resource that the trigger names. -/
def resource? : Trigger → Option ResourceName
  | resourceAdded _ r | resourceModified _ r | resourceDeleted _ r | resourceRejected r _ => some r
  | resync _ r => r
  | _ => none

/-- Order by cause, then topic, then resource; what is not named comes first. -/
def le (a b : Trigger) : Bool :=
  let key (t : Trigger) : String × String × String :=
    (t.cause, (t.topic?.map TopicName.text).getD "", (t.resource?.map ResourceName.text).getD "")
  let x := key a
  let y := key b
  if x.1 ≠ y.1 then decide (x.1 < y.1)
  else if x.2.1 ≠ y.2.1 then decide (x.2.1 < y.2.1)
  else decide (x.2.2 ≤ y.2.2)

def sort (ts : List Trigger) : List Trigger := ts.mergeSort le

end Trigger

end TopicSync
