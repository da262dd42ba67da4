import TopicSync.Faults
import TopicSync.Store.NodeTree

/-!
A tree of nodes whose calls may be arranged to fail.
-/
namespace TopicSync.Memory

structure FaultyTree where
  tree : NodeTree
  faults : Faults NodeError

/-- Fail as arranged for this kind of call, without effect, or do what the tree does. -/
def FaultyTree.answer (c : TreeCall) (t : FaultyTree) : c.Answer × FaultyTree :=
  match t.faults.next c.name with
  | (some e, faults) => (.error e, ⟨t.tree, faults⟩)
  | (none, faults) =>
    let (r, tree) := NodeTree.answer c t.tree
    (r, ⟨tree, faults⟩)

end TopicSync.Memory
