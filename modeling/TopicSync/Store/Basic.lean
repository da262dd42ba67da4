import TopicSync.Program
import TopicSync.Topic.Basic

/-!
The store of converged topics as an interface: one record per topic name.
-/
namespace TopicSync

inductive StoreCall where
  | read (name : TopicName)
  | create (t : Topic)
  | update (t : Topic)
  | delete (name : TopicName)
  | list
  deriving DecidableEq, Repr

namespace StoreCall

/-- What a call yields when it succeeds. -/
def Value : StoreCall → Type
  | read _ => Option Topic
  | create _ | update _ | delete _ => Unit
  | list => List TopicName

abbrev Answer (c : StoreCall) : Type := Except StoreError c.Value

end StoreCall

abbrev storeInterface : Interface := ⟨StoreCall, StoreCall.Answer⟩

end TopicSync
