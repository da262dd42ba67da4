import TopicSync.Proofs.Memory.View
import TopicSync.Proofs.Operator.Inventory
import TopicSync.Proofs.Store.Tree

/-!
The world in memory keeps what a world has to keep while the operator works on it, whatever failures
are arranged, provided that they are failures of gateways.
-/
namespace TopicSync.Memory

theorem Brokers.topics_of_read_call (b : Brokers) (name : TopicName) :
    (b.read name).2.topics = b.topics := by
  rw [read]
  split
  · rfl
  · split <;> rfl

theorem Brokers.topics_of_changesTopics_eq_false {c : BrokerCall}
    (h : (OperatorCall.broker c).changesTopics = false) (b : Brokers) :
    (answer c b).2.topics = b.topics := by
  cases c with
  | read name => exact topics_of_read_call b name
  | describe => rfl
  | list => rfl
  | _ => cases h

/-- Brokers in memory fail with failures of brokers. -/
theorem Brokers.failure_of_answer {b : Brokers} {c : BrokerCall} {e : Failure}
    (h : (answer c b).1 = .error e) : ∃ e', e = .broker e' := by
  have hchange : ∀ {name f}, (b.change name f).1 = .error e → ∃ e', e = .broker e' := by
    intro name f h
    rw [change] at h
    split at h
    · cases h
    · exact ⟨_, (Except.error.inj h).symm⟩
  cases c with
  | read name =>
    simp only [answer, read] at h
    split at h
    · exact ⟨_, (Except.error.inj h).symm⟩
    · split at h <;> cases h
  | create t =>
    simp only [answer, create] at h
    split at h
    · exact ⟨_, (Except.error.inj h).symm⟩
    · split at h
      · exact ⟨_, (Except.error.inj h).symm⟩
      · cases h
  | delete name =>
    simp only [answer, delete] at h
    split at h
    · cases h
    · exact ⟨_, (Except.error.inj h).symm⟩
  | updateConfig t => exact hchange h
  | increasePartitions t => exact hchange h
  | changeReplicationFactor t => exact hchange h
  | describe => cases h
  | list => cases h

theorem Resources.edited_updateStatus (s : Resources) (name : ResourceName) (report : Report)
    (key : String) :
    ((s.updateStatus name report).byName.get? key).map Resource.edited =
      (s.byName.get? key).map Resource.edited := by
  rw [updateStatus]
  split
  next r hr =>
    simp only [TextMap.get?_insert]
    split
    next hk =>
      rw [hk, hr]
      rfl
    next => rfl
  next => rfl

namespace World

variable {w w₁ : World}

/-- What there is in the world, where only failures of gateways are arranged. -/
def inventory : Inventory World where
  valid w := ∀ operation outcomes e, w.faults.queues.get? operation = some outcomes →
    some e ∈ outcomes → e.isVerdict = false
  topics w := w.brokers.topics
  resources w := w.resources.byName
  record w name := (w.tree.nodes.get? (w.store.path name)).map Node.data

theorem valid_nextFault (h : inventory.valid w) {c : OperatorCall} {operation : String}
    {e : Option Failure} (hf : (w.note c).nextFault operation = (e, w₁)) :
    inventory.valid w₁ ∧ ∀ e', e = some e' → e'.isVerdict = false := by
  simp only [nextFault, Faults.next, note] at hf
  split at hf
  next o os hq =>
    cases hf
    refine ⟨fun operation' outcomes e' hget he' => ?_, fun e' he' => h operation _ e' hq ?_⟩
    · simp only [TextMap.get?_insert] at hget
      split at hget
      · cases hget
        exact h operation _ e' hq (.tail _ he')
      · exact h operation' outcomes e' hget he'
    · rw [← he']
      exact .head _
  next =>
    cases hf
    exact ⟨h, fun e' he' => by cases he'⟩

theorem record_of_sameState (h : SameState w w₁) : inventory.record w₁ = inventory.record w := by
  funext name
  simp only [inventory, h.store, h.tree]

theorem record_performStore {c : StoreCall}
    (h : (∃ e, (w.performStore c).1 = .error e) ∨ (∃ n, c = .read n) ∨ c = .list) :
    inventory.record (w.performStore c).2 = inventory.record w := by
  funext name
  have hkeeps := w.store.perform_keeps w.tree name h
  have hpath : (w.performStore c).2.store.path name = w.store.path name := by
    rw [HierarchicalStore.path, HierarchicalStore.path]
    exact congrArg (· ++ "/" ++ name.text) hkeeps.1
  simp only [inventory, hpath]
  exact congrArg (Option.map Node.data) hkeeps.2

theorem brokers_of_not_broker {c : OperatorCall} (hc : ∀ bc, c ≠ .broker bc) (w : World) :
    (answer c w).2.brokers = w.brokers := by
  cases c with
  | broker bc => exact absurd rfl (hc bc)
  | resource rc =>
    rw [answer]
    split <;> next hf => exact (SameState.of_nextFault hf).brokers
  | store sc =>
    rw [answer]
    split <;> next hf => exact (SameState.of_nextFault hf).brokers
  | _ => rfl

theorem brokers_of_broker (c : BrokerCall) (w : World) :
    (answer (.broker c) w).2.brokers = w.brokers ∨
      (answer (.broker c) w).2.brokers = (Brokers.answer c w.brokers).2 := by
  rw [answer]
  split
  next hf => exact .inl (SameState.of_nextFault hf).brokers
  next hf =>
    rw [(SameState.of_nextFault hf).brokers]
    exact .inr rfl

theorem record_of_not_store {c : OperatorCall} (hc : ∀ sc, c ≠ .store sc) (w : World) :
    inventory.record (answer c w).2 = inventory.record w := by
  cases c with
  | store sc => exact absurd rfl (hc sc)
  | broker bc =>
    rw [answer]
    split <;>
      next hf =>
        have hsame := record_of_sameState (SameState.of_nextFault hf)
        exact hsame
  | resource rc =>
    rw [answer]
    split <;>
      next hf =>
        have hsame := record_of_sameState (SameState.of_nextFault hf)
        exact hsame
  | _ => rfl

/-- A call on the store that fails, or only reads, keeps the records. -/
theorem record_of_store {c : StoreCall} {w : World}
    (h : (∃ e, (answer (.store c) w).1 = .error e) ∨ (∃ n, c = .read n) ∨ c = .list) :
    inventory.record (answer (.store c) w).2 = inventory.record w := by
  rw [answer] at h ⊢
  split at h
  next hf => exact record_of_sameState (SameState.of_nextFault hf)
  next hf =>
    exact (record_performStore h).trans (record_of_sameState (SameState.of_nextFault hf))

theorem valid_answer (h : inventory.valid w) (c : OperatorCall) :
    inventory.valid (answer c w).2 := by
  cases c with
  | broker bc =>
    rw [answer]
    split <;> next hf => exact (valid_nextFault h hf).1
  | resource rc =>
    rw [answer]
    split <;> next hf => exact (valid_nextFault h hf).1
  | store sc =>
    rw [answer]
    split <;> next hf => exact (valid_nextFault h hf).1
  | _ => exact h

/-- A call fails as was arranged, or as its gateway does. -/
theorem isVerdict_of_failsWith (h : inventory.valid w) {c : OperatorCall} {e : Failure}
    (he : c.FailsWith e (answer c w).1) : e.isVerdict = false := by
  cases c with
  | broker bc =>
    simp only [OperatorCall.FailsWith] at he
    rw [answer] at he
    split at he
    next hf =>
      cases he
      exact (valid_nextFault h hf).2 _ rfl
    next hf =>
      obtain ⟨e', rfl⟩ := Brokers.failure_of_answer he
      rfl
  | resource rc =>
    simp only [OperatorCall.FailsWith] at he
    rw [answer] at he
    split at he
    next hf =>
      cases he
      exact (valid_nextFault h hf).2 _ rfl
    next hf => cases rc <;> cases he
  | store sc =>
    obtain ⟨e', -, rfl⟩ := he
    rfl
  | _ => cases he

/-- The world in memory is as steady as the operator needs it. -/
theorem steady : Steady answer inventory where
  valid c w h := valid_answer h c
  topics {c w} _ hc := by
    simp only [inventory]
    cases c with
    | broker bc =>
      rcases brokers_of_broker bc w with he | he
      · rw [he]
      · rw [he, Brokers.topics_of_changesTopics_eq_false hc]
    | _ => rw [brokers_of_not_broker (by simp)]
  resources {c w} key _ hc := by
    simp only [inventory]
    cases c with
    | resource rc =>
      rcases resources_of_resource rc w with he | he
      · rw [he]
      · rw [he]
        cases rc with
        | get name => rfl
        | list => rfl
        | updateStatus name report => exact Resources.edited_updateStatus _ _ _ _
        | _ => cases hc
    | _ => rw [resources_of_not_resource (by simp)]
  records {c w} _ hc := by
    cases c with
    | store sc =>
      refine record_of_store (.inr ?_)
      cases sc with
      | read name => exact .inl ⟨name, rfl⟩
      | list => exact .inr rfl
      | _ => cases hc
    | _ => exact record_of_not_store (by simp) w
  refused {c w e} _ he := record_of_store (.inl ⟨e, he⟩)
  verdicts h he := isVerdict_of_failsWith h he

end World

end TopicSync.Memory
