import TopicSync.Resource.Basic
import TopicSync.Trigger

/-!
The managed resources that have been seen, with the topic and generation of each, and the triggers
that follow from the events of a watch.
-/
namespace TopicSync

/-- An event of a watch. A complete listing is framed by `start` and `finished`. -/
inductive WatchEvent where
  | start
  | listed (r : Resource)
  | finished
  | applied (r : Resource)
  | deleted (r : Resource)
  deriving DecidableEq, Repr

structure Seen where
  topic : TopicName
  generation : Option Int
  deriving DecidableEq, Repr

structure ResourceView where
  managed : Selector
  seen : TextMap Seen
  /-- The names listed so far, while a listing is under way. -/
  listing : Option (List String)
  deriving DecidableEq, Repr

namespace ResourceView

def create (managed : Selector) : ResourceView := ⟨managed, .empty, none⟩

/-- Take in the present state of a resource. -/
def apply (v : ResourceView) (r : Resource) : Option Trigger × ResourceView :=
  let name : ResourceName := ⟨r.nameText⟩
  if !r.isManaged v.managed then (none, v)
  else
    match r.topicName with
    | .error e => (some (.resourceRejected name e.message), v)
    | .ok topic =>
      let now : Seen := ⟨topic, r.metadata.generation⟩
      (match v.seen.get? name.text with
        | none => some (.resourceAdded topic name)
        | some before => if before = now then none else some (.resourceModified topic name),
       { v with seen := v.seen.insert name.text now })

/-- Take in that a resource is gone. -/
def remove (v : ResourceView) (r : Resource) : Option Trigger × ResourceView :=
  let name : ResourceName := ⟨r.nameText⟩
  let topic? := match v.seen.get? name.text with
    | some s => some s.topic
    | none => TopicName.ofText? r.topicText
  (topic?.map (.resourceDeleted · name), { v with seen := v.seen.erase name.text })

/-- Close a listing: what was seen and is not in it is gone. -/
def finish (v : ResourceView) : List Trigger × ResourceView :=
  match v.listing with
  | none => ([], v)
  | some names =>
    (v.seen.toList.filterMap fun e =>
        if names.contains e.1 then none else some (.resourceDeleted e.2.topic ⟨e.1⟩),
     { v with seen := v.seen.filter fun name _ => names.contains name, listing := none })

def observe (v : ResourceView) : WatchEvent → List Trigger × ResourceView
  | .start => ([], { v with listing := some [] })
  | .listed r =>
    let v := { v with listing := v.listing.map (r.nameText :: ·) }
    let (t, v) := v.apply r
    (t.toList, v)
  | .applied r =>
    let (t, v) := v.apply r
    (t.toList, v)
  | .deleted r =>
    let (t, v) := v.remove r
    (t.toList, v)
  | .finished => v.finish

def size (v : ResourceView) : Nat := v.seen.size

def isEmpty (v : ResourceView) : Bool := v.seen.isEmpty

end ResourceView

end TopicSync
