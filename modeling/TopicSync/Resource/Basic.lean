import TopicSync.Metadata.Basic
import TopicSync.Selector
import TopicSync.Topic.Basic

/-!
The custom resource that describes a topic: its parts, the topic it names, and how it maps to and
from a snapshot.
-/
namespace TopicSync

structure Spec where
  topicName : Option String
  partitions : Int
  replicas : Int
  config : TextMap String
  deriving DecidableEq, Repr

structure Condition where
  type : String
  status : String
  reason : String
  message : String
  lastTransitionTime : String
  deriving DecidableEq, Repr

structure Status where
  phase : String
  message : String
  observedGeneration : Int
  conditions : List Condition
  lastSyncTime : Option String
  deriving DecidableEq, Repr

structure Resource where
  metadata : Metadata
  spec : Spec
  status : Option Status
  deriving DecidableEq, Repr

namespace Spec

/-- The complaint about the first entry, in key order, whose key or value has a wrong size. -/
def configComplaint? : List (String × String) → Option String
  | [] => none
  | (k, v) :: es =>
    if k.isEmpty ∨ 255 < k.utf8ByteSize then some "config keys must be 1-255 characters"
    else if 4096 < v.utf8ByteSize then some s!"value of '{k}' exceeds 4096 characters"
    else configComplaint? es

def topicNameComplaint? (s : Spec) : Option String :=
  match s.topicName with
  | none => none
  | some n => if 1 ≤ n.length ∧ n.length ≤ 249 then none
    else some "topic name must be 1-249 characters"

def partitionsComplaint? (s : Spec) : Option String :=
  if 1 ≤ s.partitions ∧ s.partitions ≤ 100000 then none
  else some "partitions must be at least 1"

def replicasComplaint? (s : Spec) : Option String :=
  if 1 ≤ s.replicas ∧ s.replicas ≤ 32767 then none
  else some "replication factor must be at least 1"

/-- Each field with its complaint, if there is one. -/
def complaints (s : Spec) : List (String × String) :=
  [("config", configComplaint? s.config.toList), ("partitions", s.partitionsComplaint?),
   ("replicas", s.replicasComplaint?), ("topic_name", s.topicNameComplaint?)].filterMap
    fun f => f.2.map (f.1, ·)

def complaintText (c : String × String) : String :=
  c.1 ++ ": Some(" ++ Text.quoted c.2 ++ ")"

end Spec

namespace Resource

def apiGroup : String := "kafka.operator.io"
def apiVersion : String := "kafka.operator.io/v1beta1"
def kind : String := "KafkaTopic"

/-- The name, or the one that the server would generate from, or no text. -/
def nameText (r : Resource) : String := (r.metadata.name.or r.metadata.generateName).getD ""

def labels (r : Resource) : TextMap String := r.metadata.labels.getD .empty

/-- The text of the topic name that the resource describes. -/
def topicText (r : Resource) : String := r.spec.topicName.getD r.nameText

def topicName (r : Resource) : Except Failure TopicName := TopicName.ofText r.topicText

/-- The snapshot that the resource describes, if all of it is legal. -/
def toTopic (r : Resource) : Except Failure Topic :=
  match r.spec.complaints with
  | c :: cs => .error <| .invalidResource r.nameText <|
      "; ".intercalate ((c :: cs).map Spec.complaintText)
  | [] =>
    match r.topicName with
    | .error e => .error (.invalidResource r.nameText e.message)
    | .ok name =>
      -- A snapshot keeps the number of replicas in 16 bits, a specification in 32.
      if r.spec.replicas < -32768 ∨ 32767 < r.spec.replicas then
        .error (.invalidResource r.nameText s!"replicas {r.spec.replicas} out of range")
      else
        match Topic.create name r.spec.partitions r.spec.replicas with
        | .error e => .error (.invalidResource r.nameText e.message)
        | .ok t => .ok { t with
            resourceName := ⟨r.nameText⟩, config := r.spec.config, labels := some r.labels }

/-- The specification for a snapshot; the topic is only named if its name is not the resource's. -/
def specOf (t : Topic) : Spec where
  topicName := if t.name.text = t.resourceName.text then none else some t.name.text
  partitions := t.partitions.val
  replicas := t.replicationFactor.val
  config := t.config

/-- A new resource for a snapshot. -/
def ofTopic (t : Topic) (ns : String) : Resource where
  metadata := { Metadata.empty with
    name := some t.resourceName.text
    «namespace» := some ns
    labels := t.labels }
  spec := specOf t
  status := none

/-- The resource with the specification of a snapshot, and its labels if the snapshot knows them;
all else stays. -/
def withTopic (r : Resource) (t : Topic) : Resource :=
  { r with
    metadata := { r.metadata with labels := t.labels.or r.metadata.labels }
    spec := specOf t }

/-- Whether a selector takes in the resource. -/
def isManaged (r : Resource) (p : Selector) : Bool := p.holds r.labels

/-- The generation, where a missing one counts as the first. -/
def generation (r : Resource) : Int := r.metadata.generation.getD 0

end Resource

end TopicSync
