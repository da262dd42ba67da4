import TopicSync.Proofs.Store.Root

/-!
What the calls on a store do to the tree of nodes that it is kept in. Besides the record that a call
is about, only the nodes that lead to the root can change; and a call that fails leaves all records
as they are.
-/
namespace TopicSync

namespace NodeTree

variable {t : NodeTree} {path data : String}

theorem get?_of_guarded {version : Option Int} {n : Node} (h : t.guarded path version = .ok n) :
    t.nodes.get? path = some n := by
  rw [guarded] at h
  cases hp : t.nodes.get? path with
  | none =>
    rw [hp] at h
    cases h
  | some m =>
    rw [hp] at h
    cases version with
    | none => exact congrArg some (Except.ok.inj h)
    | some v =>
      dsimp only at h
      split at h
      · exact congrArg some (Except.ok.inj h)
      · cases h

/-- Writing what has just been read succeeds. -/
theorem set_of_get? {node : Node} (h : t.nodes.get? path = some node) :
    t.set path data (some node.version) =
      (.ok (node.version + 1), ⟨t.nodes.insert path ⟨data, node.version + 1⟩⟩) := by
  simp [set, guarded, h]

end NodeTree

namespace HierarchicalStore

variable {s s' : HierarchicalStore} {tree tree' : NodeTree} {c : StoreCall} {q : String}

/-- Making sure of the root touches no node but those that lead to it. -/
theorem get?_ensureRoot (h : q ∉ rootPaths s.root) (tree : NodeTree) :
    (s.ensureRoot.run NodeTree.answer tree).2.nodes.get? q = tree.nodes.get? q := by
  rw [(s.run_ensureRoot tree).2, if_neg fun hway => h hway.2, Option.or_none]

theorem root_of_ensureRoot (h : (s.ensureRoot.run NodeTree.answer tree).1 = .ok s') :
    s'.root = s.root := by
  rw [(s.run_ensureRoot tree).1] at h
  cases h
  rfl

theorem run_readNode (s : HierarchicalStore) (name : TopicName) (tree : NodeTree) :
    (s.readNode name).run NodeTree.answer tree =
      (match tree.nodes.get? (s.path name) with
        | none => .ok none
        | some node => (Record.decodeText name node.data).map some, tree) := by
  have hget : NodeTree.answer (.get (s.path name)) tree =
      (.ok (tree.nodes.get? (s.path name)), tree) := rfl
  rw [readNode, Program.run_ask, hget]
  cases tree.nodes.get? (s.path name) <;> rfl

theorem run_createNode (s : HierarchicalStore) (t : Topic) (tree : NodeTree) :
    (s.createNode t).run NodeTree.answer tree =
      if tree.nodes.contains (s.path t.name) then
        (.error (.alreadyExists t.name.text), tree)
      else
        match (parentOf? (s.path t.name)).filter fun parent => !tree.nodes.contains parent with
        | some parent => (.error (backend (.noNode parent)), tree)
        | none => (.ok (), ⟨tree.nodes.insert (s.path t.name) ⟨Record.encode t, 0⟩⟩) := by
  have hcreate : NodeTree.answer (.create (s.path t.name) (Record.encode t)) tree =
      tree.create (s.path t.name) (Record.encode t) := rfl
  rw [createNode, Program.run_ask, hcreate, NodeTree.create]
  by_cases hold : tree.nodes.contains (s.path t.name) = true
  · simp [hold]
  · cases hparent : parentOf? (s.path t.name) with
    | none => simp [hold]
    | some parent =>
      by_cases hc : tree.nodes.contains parent = true <;> simp [hold, hc, Option.filter]

theorem run_updateNode (s : HierarchicalStore) (t : Topic) (tree : NodeTree) :
    (s.updateNode t).run NodeTree.answer tree =
      match tree.nodes.get? (s.path t.name) with
      | none => (.error (.notFound t.name.text), tree)
      | some node =>
        (.ok (), ⟨tree.nodes.insert (s.path t.name) ⟨Record.encode t, node.version + 1⟩⟩) := by
  have hget : NodeTree.answer (.get (s.path t.name)) tree =
      (.ok (tree.nodes.get? (s.path t.name)), tree) := rfl
  rw [updateNode, Program.run_ask, hget]
  cases hnode : tree.nodes.get? (s.path t.name) with
  | none => rfl
  | some node =>
    have hset : NodeTree.answer (.set (s.path t.name) (Record.encode t) (some node.version)) tree =
        tree.set (s.path t.name) (Record.encode t) (some node.version) := rfl
    dsimp only
    rw [Program.run_ask, hset, NodeTree.set_of_get? hnode]
    rfl

theorem run_deleteNode (s : HierarchicalStore) (name : TopicName) (tree : NodeTree) :
    (s.deleteNode name).run NodeTree.answer tree =
      if tree.nodes.contains (s.path name) then
        if (tree.childNames (s.path name)).isEmpty then (.ok (), ⟨tree.nodes.erase (s.path name)⟩)
        else (.error (backend (.notEmpty (s.path name))), tree)
      else (.error (.notFound name.text), tree) := by
  have hdelete : NodeTree.answer (.delete (s.path name) none) tree =
      tree.delete (s.path name) none := rfl
  rw [deleteNode, Program.run_ask, hdelete, NodeTree.delete, NodeTree.guarded]
  cases hnode : tree.nodes.get? (s.path name) with
  | none => simp [TextMap.contains, hnode]
  | some node =>
    by_cases hleaf : (tree.childNames (s.path name)).isEmpty = true <;>
      simp [TextMap.contains, hnode, hleaf]

theorem run_listNodes (s : HierarchicalStore) (tree : NodeTree) :
    s.listNodes.run NodeTree.answer tree =
      (if tree.nodes.contains s.root then
        .ok ((tree.childNames s.root).filterMap TopicName.ofText?)
      else .error (backend (.noNode s.root)), tree) := by
  have hchildren : NodeTree.answer (.children s.root) tree = (tree.children s.root, tree) := rfl
  rw [listNodes, Program.run_ask, hchildren, NodeTree.children]
  by_cases hroot : tree.nodes.contains s.root = true <;> simp [hroot]

/-- Once the root is there, a call that fails changes nothing. -/
theorem tree_access_of_error {e : StoreError}
    (h : ((s.access c).run NodeTree.answer tree).1 = .error e) :
    ((s.access c).run NodeTree.answer tree).2 = tree := by
  cases c with
  | read name => exact congrArg Prod.snd (s.run_readNode name tree)
  | create t =>
    change ((s.createNode t).run NodeTree.answer tree).1 = _ at h
    change ((s.createNode t).run NodeTree.answer tree).2 = _
    rw [run_createNode] at h ⊢
    by_cases hold : tree.nodes.contains (s.path t.name) = true
    · rw [if_pos hold]
    · rw [if_neg hold] at h ⊢
      cases hp : (parentOf? (s.path t.name)).filter fun parent => !tree.nodes.contains parent with
      | some parent => rfl
      | none =>
        rw [hp] at h
        cases h
  | update t =>
    change ((s.updateNode t).run NodeTree.answer tree).1 = _ at h
    change ((s.updateNode t).run NodeTree.answer tree).2 = _
    rw [run_updateNode] at h ⊢
    cases hnode : tree.nodes.get? (s.path t.name) with
    | none => rfl
    | some node =>
      rw [hnode] at h
      cases h
  | delete name =>
    change ((s.deleteNode name).run NodeTree.answer tree).1 = _ at h
    change ((s.deleteNode name).run NodeTree.answer tree).2 = _
    rw [run_deleteNode] at h ⊢
    by_cases hold : tree.nodes.contains (s.path name) = true
    · rw [if_pos hold] at h ⊢
      by_cases hleaf : (tree.childNames (s.path name)).isEmpty = true
      · rw [if_pos hleaf] at h
        cases h
      · rw [if_neg hleaf]
    · rw [if_neg hold]
  | list => exact congrArg Prod.snd (s.run_listNodes tree)

/-- A call that fails, or only reads, keeps the nodes of all records. -/
theorem perform_keeps (s : HierarchicalStore) (tree : NodeTree) (name : TopicName)
    (h : (∃ e, ((s.perform c).run NodeTree.answer tree).1.1 = .error e) ∨
      (∃ n, c = .read n) ∨ c = .list) :
    ((s.perform c).run NodeTree.answer tree).1.2.root = s.root ∧
      ((s.perform c).run NodeTree.answer tree).2.nodes.get? (s.path name) =
        tree.nodes.get? (s.path name) := by
  have hroot := get?_ensureRoot (s.path_not_mem_rootPaths name) tree
  rw [perform, Program.bind_run] at h ⊢
  cases hready : (s.ensureRoot.run NodeTree.answer tree).1 with
  | error e => exact ⟨rfl, hroot⟩
  | ok s₁ =>
    rw [hready] at h
    dsimp only at h ⊢
    rw [Program.bind_run] at h ⊢
    refine ⟨root_of_ensureRoot hready, Eq.trans ?_ hroot⟩
    refine congrArg (fun tree : NodeTree => tree.nodes.get? (s.path name)) ?_
    rcases h with ⟨e, he⟩ | ⟨n, rfl⟩ | rfl
    · exact tree_access_of_error he
    · exact congrArg Prod.snd (s₁.run_readNode n _)
    · exact congrArg Prod.snd (s₁.run_listNodes _)

end HierarchicalStore

end TopicSync
