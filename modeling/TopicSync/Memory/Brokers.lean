import TopicSync.Operator.Gateways

/-!
Brokers kept in memory. They can be told to lag behind with the metadata of new topics, to have a
topic unavailable, and to let someone else win the next creation.
-/
namespace TopicSync.Memory

structure Brokers where
  topics : TextMap Topic
  /-- How many more reads of a new topic find nothing. -/
  hidden : TextMap Nat
  unavailable : TextMap Unit
  /-- How many reads of a topic created from now on will find nothing. -/
  lag : Nat
  losesRace : Bool
  deriving DecidableEq, Repr

namespace Brokers

def empty : Brokers := ⟨.empty, .empty, .empty, 0, false⟩

/-- What brokers know of a topic: no labels, and no resource but the derived one. -/
def known (t : Topic) : Topic := { t with resourceName := t.name.resourceName, labels := none }

def put (b : Brokers) (t : Topic) : Brokers :=
  { b with topics := b.topics.insert t.name.text (known t) }

def remove (b : Brokers) (name : TopicName) : Brokers :=
  { b with topics := b.topics.erase name.text }

def setUnavailable (b : Brokers) (name : TopicName) (on : Bool) : Brokers :=
  { b with unavailable :=
      if on then b.unavailable.insert name.text () else b.unavailable.erase name.text }

def read (b : Brokers) (name : TopicName) : Except Failure (Option Topic) × Brokers :=
  if b.unavailable.contains name.text then
    (.error (.broker (.admin name.text "Broker: Leader not available")), b)
  else
    match b.hidden.get? name.text with
    | some (n + 1) => (.ok none, { b with hidden := b.hidden.insert name.text n })
    | _ => (.ok (b.topics.get? name.text), b)

def create (b : Brokers) (t : Topic) : Except Failure Unit × Brokers :=
  if b.losesRace then
    (.error (.broker (.topicExists t.name.text)), { b.put t with losesRace := false })
  else if b.topics.contains t.name.text then (.error (.broker (.topicExists t.name.text)), b)
  else (.ok (), { b.put t with hidden := b.hidden.insert t.name.text b.lag })

def delete (b : Brokers) (name : TopicName) : Except Failure Unit × Brokers :=
  if b.topics.contains name.text then (.ok (), b.remove name)
  else (.error (.broker (.unknownTopic name.text)), b)

/-- Change one field of a topic that exists. -/
def change (b : Brokers) (name : TopicName) (f : Topic → Topic) : Except Failure Unit × Brokers :=
  match b.topics.get? name.text with
  | some t => (.ok (), { b with topics := b.topics.insert name.text (f t) })
  | none => (.error (.broker (.unknownTopic name.text)), b)

def describe (b : Brokers) : TopicListing :=
  let ts := b.topics.values
  ⟨ts.filter fun t => !b.unavailable.contains t.name.text,
   (ts.filter fun t => b.unavailable.contains t.name.text).map Topic.name⟩

def answer : (c : BrokerCall) → Brokers → c.Answer × Brokers
  | .read name, b => b.read name
  | .create t, b => b.create t
  | .delete name, b => b.delete name
  | .updateConfig t, b => b.change t.name fun u => { u with config := t.config }
  | .increasePartitions t, b => b.change t.name fun u => { u with partitions := t.partitions }
  | .changeReplicationFactor t, b =>
    b.change t.name fun u => { u with replicationFactor := t.replicationFactor }
  | .describe, b => (.ok b.describe, b)
  | .list, b => (.ok (b.describe.topics.map Topic.name ++ b.describe.unavailable), b)

end Brokers

end TopicSync.Memory
