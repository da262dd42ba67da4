import TopicSync.Operator.Reconcile

/-!
A sweep: every topic that the brokers, the store or a managed resource knows, each once, with the
resource that describes it. A source that cannot be listed is left out.
-/
namespace TopicSync

namespace Sweep

/-- Topics by name, each with the resource that describes it, if one does. -/
abbrev Found : Type := TextMap (TopicName × Option ResourceName)

/-- Add a topic of which nothing else is known, unless it is there. -/
def note (f : Found) (name : TopicName) : Found :=
  if f.contains name.text then f else f.insert name.text (name, none)

/-- Add the topic of a managed resource, along with the resource. -/
def noteResource (managed : Selector) (f : Found) (r : Resource) : Found :=
  if r.isManaged managed then
    match TopicName.ofText? r.topicText with
    | some name => f.insert name.text (name, some ⟨r.nameText⟩)
    | none => f
  else f

/-- What the sources know, in name order. -/
def subjects (managed : Selector) (brokers stored : List TopicName) (resources : List Resource) :
    List (TopicName × Option ResourceName) :=
  let f := (brokers.filter fun n => !n.isInternal).foldl note TextMap.empty
  let f := stored.foldl note f
  (resources.foldl (noteResource managed) f).values

/-- What a source lists, or nothing if it fails. -/
def listed : Except ε (List α) → List α
  | .ok as => as
  | .error _ => []

end Sweep

def Operator.sweep (o : Operator) : Task (List (TopicName × Option ResourceName)) :=
  (Task.broker .list).bind fun brokers =>
  (Task.store .list).bind fun stored =>
  (Task.resource .list).bind fun resources =>
    .done (Sweep.subjects o.managed (Sweep.listed brokers) (Sweep.listed stored)
      (Sweep.listed resources))

end TopicSync
