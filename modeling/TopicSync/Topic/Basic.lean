import TopicSync.TextMap
import TopicSync.Topic.Name

/-!
Snapshots of a topic. The brokers know no labels, so a snapshot read from them has `none` there,
which is not the same as having no labels.
-/
namespace TopicSync

/-- A number of partitions: at least one, and no more than fit into a signed 32-bit word. -/
structure PartitionCount where
  val : Nat
  pos : 0 < val
  le : val ≤ 2147483647
  deriving DecidableEq, Repr

namespace PartitionCount

theorem ext {a b : PartitionCount} (h : a.val = b.val) : a = b := by
  cases a; cases b; cases h; rfl

def ofInt? (n : Int) : Option PartitionCount :=
  if h : 0 < n ∧ n ≤ 2147483647 then some ⟨n.toNat, by omega, by omega⟩ else none

theorem ofInt?_val (p : PartitionCount) : ofInt? p.val = some p := by
  have := p.pos
  have := p.le
  rw [ofInt?, dif_pos (by omega)]
  rfl

end PartitionCount

/-- A number of replicas: at least one, and no more than fit into a signed 16-bit word. -/
structure ReplicationFactor where
  val : Nat
  pos : 0 < val
  le : val ≤ 32767
  deriving DecidableEq, Repr

namespace ReplicationFactor

theorem ext {a b : ReplicationFactor} (h : a.val = b.val) : a = b := by
  cases a; cases b; cases h; rfl

def ofInt? (n : Int) : Option ReplicationFactor :=
  if h : 0 < n ∧ n ≤ 32767 then some ⟨n.toNat, by omega, by omega⟩ else none

theorem ofInt?_val (r : ReplicationFactor) : ofInt? r.val = some r := by
  have := r.pos
  have := r.le
  rw [ofInt?, dif_pos (by omega)]
  rfl

end ReplicationFactor

structure Topic where
  name : TopicName
  resourceName : ResourceName
  partitions : PartitionCount
  replicationFactor : ReplicationFactor
  config : TextMap String
  labels : Option (TextMap String)
  deriving DecidableEq, Repr

namespace Topic

/-- A snapshot with the derived resource name, no configuration and unknown labels. -/
def create (name : TopicName) (partitions replicas : Int) : Except Failure Topic :=
  match PartitionCount.ofInt? partitions with
  | none => .error <| .invalidConfig
      s!"topic '{name.text}' must have at least one partition, got {partitions}"
  | some p =>
    match ReplicationFactor.ofInt? replicas with
    | none => .error <| .invalidConfig
        s!"topic '{name.text}' must have a replication factor of at least one, got {replicas}"
    | some r => .ok ⟨name, name.resourceName, p, r, .empty, none⟩

/-- The labels, where unknown ones read as none. -/
def labelsOrEmpty (t : Topic) : TextMap String := t.labels.getD .empty

end Topic

end TopicSync
