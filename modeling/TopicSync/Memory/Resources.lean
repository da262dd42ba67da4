import TopicSync.Operator.Gateways

/-!
Resources kept in memory, by name. Every change of a specification starts a new generation.
-/
namespace TopicSync.Memory

structure Resources where
  byName : TextMap Resource
  deriving DecidableEq, Repr

namespace Resources

def empty : Resources := ⟨.empty⟩

/-- The namespace of the resources that are created here. -/
def homeNamespace : String := "kafka"

/-- The time of every status that is written here. -/
def epoch : String := "1970-01-01T00:00:00+00:00"

def put (s : Resources) (r : Resource) : Resources := ⟨s.byName.insert r.nameText r⟩

def remove (s : Resources) (name : ResourceName) : Resources := ⟨s.byName.erase name.text⟩

def withGeneration (r : Resource) (g : Int) : Resource :=
  { r with metadata := { r.metadata with generation := some g } }

def create (s : Resources) (t : Topic) (generation : Int) : Resources :=
  ⟨s.byName.insert t.resourceName.text
    (withGeneration (Resource.ofTopic t homeNamespace) generation)⟩

def update (s : Resources) (t : Topic) : Resources :=
  let current := (s.byName.get? t.resourceName.text).getD (Resource.ofTopic t homeNamespace)
  ⟨s.byName.insert t.resourceName.text
    (withGeneration (current.withTopic t) (current.generation + 1))⟩

def updateStatus (s : Resources) (name : ResourceName) (report : Report) : Resources :=
  match s.byName.get? name.text with
  | some r => ⟨s.byName.insert name.text { r with status := some (report.status epoch) }⟩
  | none => s

def answer : (c : ResourceCall) → Resources → c.Answer × Resources
  | .get name, s => (.ok (s.byName.get? name.text), s)
  | .list, s => (.ok s.byName.values, s)
  | .create t, s => (.ok (), s.create t 1)
  | .update t, s => (.ok (), s.update t)
  | .delete name, s => (.ok (), s.remove name)
  | .updateStatus name report, s => (.ok (), s.updateStatus name report)

end Resources

end TopicSync.Memory
