import TopicSync.Proofs.Operator.View

/-!
The world in memory as one that the operator can rely on. Its resources and topics are kept under
their own names, and records are read back under the name that they are asked for by.
-/
namespace TopicSync

theorem Topic.name_of_create {name : TopicName} {partitions replicas : Int} {t : Topic}
    (h : create name partitions replicas = .ok t) : t.name = name := by
  rw [create] at h
  split at h
  · cases h
  · split at h
    · cases h
    · cases h
      rfl

theorem Record.name_of_decodeText {name : TopicName} {text : String} {t : Topic}
    (h : decodeText name text = .ok t) : t.name = name := by
  rw [decodeText, decode] at h
  split at h
  · cases h
  · split at h
    · cases h
    next u hu =>
      cases h
      have hname : u.name = name := Topic.name_of_create hu
      exact hname

theorem HierarchicalStore.name_of_readNode {s : HierarchicalStore} {tree : NodeTree}
    {name : TopicName} {t : Topic}
    (h : ((s.readNode name).run NodeTree.answer tree).1 = .ok (some t)) : t.name = name := by
  have hget : NodeTree.answer (.get (s.path name)) tree =
      (.ok (tree.nodes.get? (s.path name)), tree) := rfl
  rw [readNode, Program.run_ask, hget] at h
  cases hnode : tree.nodes.get? (s.path name) with
  | none =>
    rw [hnode] at h
    cases h
  | some node =>
    rw [hnode] at h
    cases hdecode : Record.decodeText name node.data with
    | error e =>
      simp [hdecode, Except.map] at h
    | ok u =>
      simp only [hdecode, Except.map, Program.run_done, Except.ok.injEq, Option.some.injEq] at h
      rw [← h]
      exact Record.name_of_decodeText hdecode

/-- What is read under a name has that name. -/
theorem HierarchicalStore.name_of_read {s s' : HierarchicalStore} {tree tree' : NodeTree}
    {name : TopicName} {t : Topic}
    (h : (s.perform (.read name)).run NodeTree.answer tree = ((.ok (some t), s'), tree')) :
    t.name = name := by
  rw [perform] at h
  change (s.ensureRoot >>= _).run NodeTree.answer tree = _ at h
  rw [Program.run_bind] at h
  cases he : (s.ensureRoot.run NodeTree.answer tree).1 with
  | error e =>
    rw [he] at h
    cases h
  | ok s₁ =>
    rw [he] at h
    change (s₁.access (.read name) >>= _).run NodeTree.answer _ = _ at h
    rw [Program.run_bind] at h
    have hread := congrArg (fun p => p.1.1) h
    exact name_of_readNode hread

namespace Memory

namespace Resources

/-- Every resource is kept under its own name. -/
def Named (s : Resources) : Prop := ∀ key r, s.byName.get? key = some r → r.nameText = key

variable {s : Resources}

theorem named_empty : empty.Named := by
  intro key r h
  simp [empty, TextMap.get?_empty] at h

theorem Named.insert (h : s.Named) {key : String} {r : Resource} (hr : r.nameText = key) :
    Named ⟨s.byName.insert key r⟩ := by
  intro k r' hk
  simp only [TextMap.get?_insert] at hk
  split at hk
  next he =>
    cases hk
    rw [hr, he]
  next => exact h k r' hk

theorem nameText_current (h : s.Named) (t : Topic) :
    ((s.byName.get? t.resourceName.text).getD (.ofTopic t homeNamespace)).nameText =
      t.resourceName.text := by
  cases hget : s.byName.get? t.resourceName.text with
  | none => rfl
  | some r => exact h _ r hget

theorem named_answer (h : s.Named) (c : ResourceCall) : (answer c s).2.Named := by
  cases c with
  | get name => exact h
  | list => exact h
  | create t =>
    have hname : (withGeneration (.ofTopic t homeNamespace) 1).nameText = t.resourceName.text := rfl
    exact h.insert hname
  | update t => exact h.insert (nameText_current h t)
  | delete name =>
    intro k r hk
    simp only [answer, remove, TextMap.get?_erase] at hk
    split at hk
    · cases hk
    · exact h k r hk
  | updateStatus name report =>
    simp only [answer, updateStatus]
    split
    next r hr => exact h.insert (h _ r hr)
    next => exact h

theorem effect_answer {c : ResourceCall} {n : ResourceName}
    (hc : c.target? = some n) :
    c.Effect (s.byName.get? n.text) ((answer c s).2.byName.get? n.text) := by
  cases c with
  | get name => cases hc
  | list => cases hc
  | create t =>
    cases hc
    simp only [answer, create, TextMap.get?_insert, if_true]
    have hsame : (withGeneration (.ofTopic t homeNamespace) 1).SameContent
        (.ofTopic t homeNamespace) := ⟨rfl, rfl, rfl⟩
    exact .create hsame
  | update t =>
    cases hc
    simp only [answer, update, TextMap.get?_insert, if_true]
    exact .update ⟨rfl, rfl, rfl⟩
  | delete name =>
    cases hc
    simp only [answer, remove, TextMap.get?_erase, if_true]
    exact .delete _ _
  | updateStatus name report =>
    cases hc
    simp only [answer, updateStatus]
    cases hget : s.byName.get? n.text with
    | none =>
      rw [hget]
      exact .unchanged _ _
    | some r =>
      simp only [TextMap.get?_insert, if_true]
      exact .updateStatus _ _ ⟨rfl, rfl, rfl⟩

theorem elsewhere_answer {c : ResourceCall} {key : String}
    (hc : ∀ n, c.target? = some n → n.text ≠ key) :
    (answer c s).2.byName.get? key = s.byName.get? key := by
  have hne : ∀ n, c.target? = some n → ¬ key = n.text := fun n hn he => hc n hn he.symm
  cases c with
  | get name => rfl
  | list => rfl
  | create t => simp [answer, create, TextMap.get?_insert, hne t.resourceName rfl]
  | update t => simp [answer, update, TextMap.get?_insert, hne t.resourceName rfl]
  | delete name => simp [answer, remove, TextMap.get?_erase, hne name rfl]
  | updateStatus name report =>
    simp only [answer, updateStatus]
    split
    · simp [TextMap.get?_insert, hne name rfl]
    · rfl

end Resources

namespace Brokers

/-- Every topic is kept under its own name. -/
def Named (b : Brokers) : Prop := ∀ key t, b.topics.get? key = some t → t.name.text = key

variable {b : Brokers}

theorem named_empty : empty.Named := by
  intro key t h
  simp [empty, TextMap.get?_empty] at h

section Kept

variable {Q : String → Topic → Prop}

theorem forall_insert (h : ∀ key t, b.topics.get? key = some t → Q key t) {k : String} {u : Topic}
    (hu : Q k u) : ∀ key t, (b.topics.insert k u).get? key = some t → Q key t := by
  intro key t ht
  simp only [TextMap.get?_insert] at ht
  split at ht
  next he =>
    cases ht
    exact he ▸ hu
  next => exact h key t ht

/-- What holds of every topic that brokers have goes on holding if it holds of new topics, and does
not depend on counts and configurations. -/
theorem forall_answer (h : ∀ key t, b.topics.get? key = some t → Q key t)
    (hnew : ∀ t, Q t.name.text (known t))
    (hsame : ∀ {key t u}, Q key t → u.name = t.name → u.resourceName = t.resourceName → Q key u)
    (c : BrokerCall) : ∀ key t, (answer c b).2.topics.get? key = some t → Q key t := by
  have hchange : ∀ (name : TopicName) (f : Topic → Topic), (∀ t, (f t).name = t.name) →
      (∀ t, (f t).resourceName = t.resourceName) →
      ∀ key t, (b.change name f).2.topics.get? key = some t → Q key t := by
    intro name f hname hresource
    rw [change]
    split
    next u hu => exact forall_insert h (hsame (h _ u hu) (hname u) (hresource u))
    next => exact h
  cases c with
  | read name =>
    simp only [answer, read]
    split
    · exact h
    · split <;> exact h
  | create t =>
    simp only [answer, create]
    split
    · exact forall_insert h (hnew t)
    · split
      · exact h
      · exact forall_insert h (hnew t)
  | delete name =>
    simp only [answer, delete]
    split
    · intro key t ht
      simp only [remove, TextMap.get?_erase] at ht
      split at ht
      · cases ht
      · exact h key t ht
    · exact h
  | updateConfig t => exact hchange _ _ (fun _ => rfl) fun _ => rfl
  | increasePartitions t => exact hchange _ _ (fun _ => rfl) fun _ => rfl
  | changeReplicationFactor t => exact hchange _ _ (fun _ => rfl) fun _ => rfl
  | describe => exact h
  | list => exact h

end Kept

theorem Named.insert (h : b.Named) {key : String} {t : Topic} (ht : t.name.text = key) :
    Named { b with topics := b.topics.insert key t } :=
  forall_insert h ht

theorem named_answer (h : b.Named) (c : BrokerCall) : (answer c b).2.Named := by
  refine forall_answer h (fun _ => rfl) (fun ht hname _ => ?_) c
  rw [hname, ht]

theorem name_of_read (h : b.Named) {name : TopicName} {t : Topic}
    (ht : (b.read name).1 = .ok (some t)) : t.name = name := by
  have hread : b.read name = (.ok (some t), (b.read name).2) := Prod.ext ht rfl
  have htopics := topics_of_read hread
  have hsame : (b.read name).2.Named := named_answer h (.read name)
  exact TopicName.ext (hsame _ t htopics)

end Brokers

namespace World

variable {w : World}

/-- What can be seen of the world: its resources, and what a read of the store finds. -/
def view : View World where
  valid w := w.resources.Named ∧ w.brokers.Named
  resources w := w.resources.byName
  record w topic := match w.record topic with
    | .ok r => r
    | .error _ => none

theorem SameState.of_nextFault {c : OperatorCall} {operation : String} {e : Option Failure}
    {w₁ : World} (h : (w.note c).nextFault operation = (e, w₁)) : SameState w w₁ := by
  have hs := sameState_nextFault w c operation
  rw [h] at hs
  exact hs

theorem resources_of_not_resource {c : OperatorCall} (hc : ∀ rc, c ≠ .resource rc) (w : World) :
    (answer c w).2.resources = w.resources := by
  cases c with
  | resource rc => exact absurd rfl (hc rc)
  | broker bc =>
    rw [answer]
    split <;> next hf => exact (SameState.of_nextFault hf).resources
  | store sc =>
    rw [answer]
    split <;> next hf => exact (SameState.of_nextFault hf).resources
  | _ => rfl

theorem resources_of_resource (c : ResourceCall) (w : World) :
    (answer (.resource c) w).2.resources = w.resources ∨
      (answer (.resource c) w).2.resources = (Resources.answer c w.resources).2 := by
  rw [answer]
  split
  next hf => exact .inl (SameState.of_nextFault hf).resources
  next hf =>
    rw [(SameState.of_nextFault hf).resources]
    exact .inr rfl

theorem named_brokers (h : w.brokers.Named) (c : OperatorCall) : (answer c w).2.brokers.Named := by
  cases c with
  | broker bc =>
    rw [answer]
    split
    next hf =>
      rw [(SameState.of_nextFault hf).brokers]
      exact h
    next hf =>
      rw [(SameState.of_nextFault hf).brokers]
      exact Brokers.named_answer h bc
  | resource rc =>
    rw [answer]
    split <;> next hf => exact (SameState.of_nextFault hf).brokers ▸ h
  | store sc =>
    rw [answer]
    split <;> next hf => exact (SameState.of_nextFault hf).brokers ▸ h
  | _ => exact h

theorem name_of_record {topic : TopicName} {t : Topic} (h : w.record topic = .ok (some t)) :
    t.name = topic := by
  rw [record, performStore] at h
  generalize hr : (w.store.perform (.read topic)).run NodeTree.answer w.tree = r at h
  obtain ⟨⟨found, store⟩, tree⟩ := r
  obtain rfl : found = .ok (some t) := h
  exact HierarchicalStore.name_of_read hr

/-- The operator can rely on the world in memory. -/
theorem reliable : Reliable answer view where
  valid c w h := by
    refine ⟨?_, named_brokers h.2 c⟩
    by_cases hc : ∃ rc, c = .resource rc
    · obtain ⟨rc, rfl⟩ := hc
      rcases resources_of_resource rc w with he | he
      · rw [he]
        exact h.1
      · rw [he]
        exact Resources.named_answer h.1 rc
    · rw [resources_of_not_resource (fun rc he => hc ⟨rc, he⟩)]
      exact h.1
  ownName h hr := h.1 _ _ hr
  recordName {w topic t} _ ht := by
    simp only [view] at ht
    split at ht
    next r hr =>
      rw [ht] at hr
      exact name_of_record hr
    next => cases ht
  get {n r w} _ h := by
    rw [answer] at h
    split at h
    next => cases h
    next hf =>
      rw [(SameState.of_nextFault hf).resources] at h
      exact Except.ok.inj h
  record {topic r w} _ h := by
    rw [answer] at h
    split at h
    next => cases h
    next hf =>
      have hsame := SameState.of_nextFault hf
      have hrecord : w.record topic = .ok r :=
        (record_congr hsame.store hsame.tree topic).symm.trans h
      simp only [view, hrecord]
  topicName {name t w} hv h := by
    rw [answer] at h
    split at h
    next => cases h
    next hf =>
      rw [(SameState.of_nextFault hf).brokers] at h
      exact Brokers.name_of_read hv.2 h
  effect {c n w} _ hc := by
    simp only [view]
    rcases resources_of_resource c w with he | he
    · rw [he]
      exact .unchanged _ _
    · rw [he]
      exact Resources.effect_answer hc
  elsewhere {c key w} _ hc := by
    simp only [view]
    rcases resources_of_resource c w with he | he
    · rw [he]
    · rw [he]
      exact Resources.elsewhere_answer hc
  otherCalls _ hc := congrArg Resources.byName (resources_of_not_resource hc _)
  count _ := rfl

end World

end Memory

end TopicSync
