import TopicSync.TextMap

/-!
Failures arranged in advance: for each operation, by name, a queue of outcomes for its next
invocations, each a failure or none.
-/
namespace TopicSync

structure Faults (ε : Type) where
  queues : TextMap (List (Option ε))

namespace Faults

variable {ε : Type}

def none : Faults ε := ⟨.empty⟩

/-- Add outcomes for an operation after those that are still waiting. -/
def add (f : Faults ε) (operation : String) (outcomes : List (Option ε)) : Faults ε :=
  ⟨f.queues.insert operation ((f.queues.get? operation).getD [] ++ outcomes)⟩

/-- The outcome arranged for this invocation, if any, and what remains. -/
def next (f : Faults ε) (operation : String) : Option ε × Faults ε :=
  match f.queues.get? operation with
  | some (o :: os) => (o, ⟨f.queues.insert operation os⟩)
  | _ => (Option.none, f)

end Faults

end TopicSync
