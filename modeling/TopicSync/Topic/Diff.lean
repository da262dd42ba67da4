import TopicSync.Topic.Basic

/-!
Differences between snapshots, field by field: computing them, finding conflicts between two of
them, uniting them, and applying them to a snapshot.
-/
namespace TopicSync

structure Change (α : Type) where
  before : α
  after : α
  deriving DecidableEq, Repr

/-- The change of one entry of a map. -/
inductive EntryChange where
  | set (value : String)
  | removed
  deriving DecidableEq, Repr

def EntryChange.text : EntryChange → String
  | set v => s!"'{v}'"
  | removed => "<removed>"

def EntryChange.value? : EntryChange → Option String
  | set v => some v
  | removed => none

namespace TextMap

/-- The changes that turn the first map into the second. -/
def changes (base other : TextMap String) : TextMap EntryChange :=
  union (other.filterMap fun k v => if base.get? k = some v then none else some (.set v))
    (base.filterMap fun k _ => if other.contains k then none else some .removed)

/-- The map after the changes. -/
def applyChanges (m : TextMap String) (cs : TextMap EntryChange) : TextMap String :=
  union (cs.filterMap fun _ c => c.value?) (m.filter fun k _ => !cs.contains k)

end TextMap

structure TopicDiff where
  partitions : Option (Change PartitionCount)
  replicationFactor : Option (Change ReplicationFactor)
  config : TextMap EntryChange
  labels : TextMap EntryChange
  deriving DecidableEq, Repr

/-- A field that two differences set to different values. -/
inductive Clash where
  | partitions (mine theirs : PartitionCount)
  | replicationFactor (mine theirs : ReplicationFactor)
  | config (key : String) (mine theirs : EntryChange)
  | label (key : String) (mine theirs : EntryChange)
  deriving DecidableEq, Repr

def Clash.text : Clash → String
  | partitions a b => s!"partitions ({a.val} vs {b.val})"
  | replicationFactor a b => s!"replicationFactor ({a.val} vs {b.val})"
  | config k a b => s!"config.{k} ({a.text} vs {b.text})"
  | label k a b => s!"labels.{k} ({a.text} vs {b.text})"

def changeOf [DecidableEq α] (before after : α) : Option (Change α) :=
  if before = after then none else some ⟨before, after⟩

/-- The clash of two changes of one field that aim at different values. -/
def scalarClash [DecidableEq α] (make : α → α → Clash) :
    Option (Change α) → Option (Change α) → List Clash
  | some a, some b => if a.after = b.after then [] else [make a.after b.after]
  | _, _ => []

/-- The keys that both maps change, to different ends. -/
def entryClashes (make : String → EntryChange → EntryChange → Clash)
    (mine theirs : TextMap EntryChange) : List Clash :=
  mine.toList.filterMap fun e =>
    match theirs.get? e.1 with
    | some c => if c = e.2 then none else some (make e.1 e.2 c)
    | none => none

namespace TopicDiff

/-- The changes that turn `base` into `other`; its labels count only if `other` knows any. -/
def between (base other : Topic) : TopicDiff where
  partitions := changeOf base.partitions other.partitions
  replicationFactor := changeOf base.replicationFactor other.replicationFactor
  config := base.config.changes other.config
  labels :=
    match other.labels with
    | some ls => base.labelsOrEmpty.changes ls
    | none => .empty

def isEmpty (d : TopicDiff) : Bool :=
  d.partitions.isNone && d.replicationFactor.isNone && d.config.isEmpty && d.labels.isEmpty

/-- Every field that both differences change to different values. -/
def clashes (d e : TopicDiff) : List Clash :=
  scalarClash .partitions d.partitions e.partitions ++
    scalarClash .replicationFactor d.replicationFactor e.replicationFactor ++
    entryClashes .config d.config e.config ++
    entryClashes .label d.labels e.labels

/-- The clashes in words, if there are any. -/
def conflict? (d e : TopicDiff) : Option String :=
  match d.clashes e with
  | [] => none
  | cs => some (", ".intercalate (cs.map Clash.text))

/-- The changes of both; where both change a field, that of the first. -/
def merge (d e : TopicDiff) : TopicDiff where
  partitions := d.partitions.or e.partitions
  replicationFactor := d.replicationFactor.or e.replicationFactor
  config := d.config.union e.config
  labels := d.labels.union e.labels

/-- The snapshot after the changes; unknown labels stay unknown unless a label changes. -/
def apply (d : TopicDiff) (t : Topic) : Topic :=
  { t with
    partitions := (d.partitions.map Change.after).getD t.partitions
    replicationFactor := (d.replicationFactor.map Change.after).getD t.replicationFactor
    config := t.config.applyChanges d.config
    labels := if d.labels.isEmpty then t.labels else some (t.labelsOrEmpty.applyChanges d.labels) }

/-- By how much the number of partitions grows. -/
def partitionDelta (d : TopicDiff) : Int :=
  match d.partitions with
  | some c => (c.after.val : Int) - c.before.val
  | none => 0

def changesReplicationFactor (d : TopicDiff) : Bool := d.replicationFactor.isSome

def changesConfig (d : TopicDiff) : Bool := !d.config.isEmpty

def text (d : TopicDiff) : String :=
  let parts :=
    (d.partitions.toList.map fun c => s!"partitions: {c.before.val} -> {c.after.val}") ++
    (d.replicationFactor.toList.map fun c =>
      s!"replicationFactor: {c.before.val} -> {c.after.val}") ++
    (d.config.toList.map fun e => s!"config.{e.1}: {e.2.text}") ++
    (d.labels.toList.map fun e => s!"labels.{e.1}: {e.2.text}")
  if parts.isEmpty then "<no changes>" else ", ".intercalate parts

end TopicDiff

end TopicSync
