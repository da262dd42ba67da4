import TopicSync.Topic.Basic
import TopicSync.Trigger

/-!
What the brokers were last seen to hold, and the triggers that follow from a new listing. A topic
that is only listed as unavailable keeps the snapshot it was last seen with.
-/
namespace TopicSync

/-- What the brokers report: the topics they describe, and the names of others that exist. -/
structure TopicListing where
  topics : List Topic
  unavailable : List TopicName
  deriving DecidableEq, Repr

/-- The topics last seen; `none` before the first listing. -/
structure TopicView where
  seen : Option (TextMap Topic)
  deriving DecidableEq, Repr

namespace TopicView

def empty : TopicView := ⟨none⟩

/-- The topics of a listing by name, without internal ones; the last description counts. -/
def described (l : TopicListing) : TextMap Topic :=
  TextMap.ofList ((l.topics.filter fun t => !t.name.isInternal).map fun t => (t.name.text, t))

/-- The snapshots of the unavailable names that were known before. -/
def retained (before : TextMap Topic) (l : TopicListing) : TextMap Topic :=
  TextMap.ofList (l.unavailable.filterMap fun n => (before.get? n.text).map (n.text, ·))

/-- What is known after a listing. -/
def known (v : TopicView) (l : TopicListing) : TextMap Topic :=
  match v.seen with
  | none => described l
  | some before => (described l).union (retained before l)

/-- The triggers for going from one set of snapshots to another. -/
def triggers (before after : TextMap Topic) : List Trigger :=
  after.values.filterMap (fun t =>
    match before.get? t.name.text with
    | none => some (.kafkaTopicCreated t.name)
    | some b => if b = t then none else some (.kafkaTopicChanged t.name)) ++
  before.values.filterMap fun t =>
    if after.contains t.name.text then none else some (.kafkaTopicDeleted t.name)

/-- Take in a listing. The first one gives no triggers. -/
def observe (v : TopicView) (l : TopicListing) : List Trigger × TopicView :=
  let after := v.known l
  (match v.seen with
    | none => []
    | some before => triggers before after, ⟨some after⟩)

def size (v : TopicView) : Nat := (v.seen.map TextMap.size).getD 0

def isEmpty (v : TopicView) : Bool := v.size = 0

end TopicView

end TopicSync
