import TopicSync.Memory.World
import TopicSync.Proofs.Store.Tree

/-!
What the calls on the world in memory tell of it, and what they leave alone. Reads tell what is
there, and a record that was read is read again.
-/
namespace TopicSync

namespace HierarchicalStore

variable {s s' : HierarchicalStore} {tree tree' : NodeTree} {name : TopicName}

theorem rootReady_of_ensureRoot (h : (s.ensureRoot.run NodeTree.answer tree).1 = .ok s') :
    s'.rootReady = true := by
  rw [(s.run_ensureRoot tree).1] at h
  cases h
  rfl

theorem tree_access_read (s : HierarchicalStore) (name : TopicName) (tree : NodeTree) :
    ((s.access (.read name)).run NodeTree.answer tree).2 = tree :=
  congrArg Prod.snd (s.run_readNode name tree)

/-- Reading under a root that is there changes nothing. -/
theorem run_read_of_rootReady (h : s.rootReady = true) (name : TopicName) (tree : NodeTree) :
    ∃ r, (s.perform (.read name)).run NodeTree.answer tree = ((r, s), tree) := by
  rw [perform, ensureRoot, if_pos h]
  change ∃ r, (s.access (.read name) >>= fun r => .done (r, s)).run NodeTree.answer tree = _
  rw [Program.run_bind]
  rw [tree_access_read]
  exact ⟨_, rfl⟩

/-- What was read is there to be read again. -/
theorem run_read_again {r : Option Topic}
    (h : (s.perform (.read name)).run NodeTree.answer tree = ((.ok r, s'), tree')) :
    (s'.perform (.read name)).run NodeTree.answer tree' = ((.ok r, s'), tree') := by
  have hp := h
  rw [perform] at hp
  change (s.ensureRoot >>= _).run NodeTree.answer tree = _ at hp
  rw [Program.run_bind] at hp
  cases he : (s.ensureRoot.run NodeTree.answer tree).1 with
  | error e =>
    rw [he] at hp
    cases hp
  | ok s₁ =>
    have hready := rootReady_of_ensureRoot he
    have hfirst : (s₁.perform (.read name)).run NodeTree.answer
        (s.ensureRoot.run NodeTree.answer tree).2 = ((.ok r, s'), tree') := by
      rw [perform, ensureRoot, if_pos hready]
      rw [he] at hp
      exact hp
    obtain ⟨r', hr'⟩ := run_read_of_rootReady hready name (s.ensureRoot.run NodeTree.answer tree).2
    have hsame := hr'.symm.trans hfirst
    obtain ⟨⟨hr, hs⟩, ht⟩ : (r' = .ok r ∧ s₁ = s') ∧ _ = tree' := by simpa using hsame
    subst hs ht
    exact hfirst

end HierarchicalStore

namespace Memory

/-- Finding a topic is finding it where topics are kept, and leaves all topics there. -/
theorem Brokers.topics_of_read {b b' : Brokers} {name : TopicName} {t : Topic}
    (h : b.read name = (.ok (some t), b')) : b'.topics.get? name.text = some t := by
  rw [read] at h
  by_cases hu : b.unavailable.contains name.text = true
  · rw [if_pos hu] at h
    cases h
  · rw [if_neg hu] at h
    split at h
    · cases h
    · simp only [Prod.mk.injEq, Except.ok.injEq] at h
      obtain ⟨ht, rfl⟩ := h
      exact ht

namespace World

variable {w w' : World} {name : TopicName}

/-- Nothing that the operator works on differs between two worlds. -/
structure SameState (w w' : World) : Prop where
  brokers : w'.brokers = w.brokers
  resources : w'.resources = w.resources
  store : w'.store = w.store
  tree : w'.tree = w.tree

/-- Noting a call and looking for a failure that was arranged for it touches nothing else. -/
theorem sameState_nextFault (w : World) (c : OperatorCall) (operation : String) :
    SameState w ((w.note c).nextFault operation).2 :=
  ⟨rfl, rfl, rfl, rfl⟩

/-- What a read of the store finds. -/
def record (w : World) (name : TopicName) : Except StoreError (Option Topic) :=
  (w.performStore (.read name)).1

theorem record_congr (hs : w'.store = w.store) (ht : w'.tree = w.tree) (name : TopicName) :
    w'.record name = w.record name := by
  rw [record, record, performStore, performStore, hs, ht]

theorem record_of_read {r : Option Topic}
    (h : answer (.store (.read name)) w = (.ok r, w')) : w'.record name = .ok r := by
  rw [answer] at h
  split at h
  next => cases h
  next w₁ he =>
    obtain ⟨⟨⟨found, store⟩, tree⟩, hp⟩ :
        ∃ x, (w₁.store.perform (.read name)).run NodeTree.answer w₁.tree = x := ⟨_, rfl⟩
    rw [performStore, hp] at h
    cases h
    rw [record, performStore, HierarchicalStore.run_read_again hp]
    rfl

theorem resource_of_get {n : ResourceName} {r : Option Resource}
    (h : answer (.resource (.get n)) w = (.ok r, w')) :
    w'.resources.byName.get? n.text = r ∧ w'.store = w.store ∧ w'.tree = w.tree := by
  rw [answer] at h
  have hs := sameState_nextFault w (.resource (.get n)) (resourceOperation (.get n))
  split at h
  next => cases h
  next w₁ he =>
    rw [he] at hs
    cases h
    exact ⟨rfl, hs.store, hs.tree⟩

theorem topic_of_read {t : Topic}
    (h : answer (.broker (.read name)) w = (.ok (some t), w')) :
    w'.brokers.topics.get? name.text = some t ∧ w'.resources = w.resources ∧
      w'.store = w.store ∧ w'.tree = w.tree := by
  rw [answer] at h
  have hs := sameState_nextFault w (.broker (.read name)) (brokerOperation (.read name))
  split at h
  next => cases h
  next w₁ he =>
    rw [he] at hs
    cases hb : w₁.brokers.read name with
    | mk found brokers =>
      simp only [Brokers.answer, hb] at h
      cases h
      exact ⟨Brokers.topics_of_read hb, hs.resources, hs.store, hs.tree⟩

end World

end Memory

end TopicSync
