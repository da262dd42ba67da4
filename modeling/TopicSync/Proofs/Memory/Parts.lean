import TopicSync.Proofs.Memory.View
import TopicSync.Proofs.Operator.Footprint
import TopicSync.Proofs.Store.Bindings

/-!
Brokers, resources and a map of records by their parts. A call about one topic, resource or record
is answered from that one, and leaves the others alone.
-/
namespace TopicSync

theorem exists_ne_of_not_forall {α : Type} {o : Option α} {a : α} (h : ¬ ∀ n ∈ o, a = n) :
    ∃ n, o = some n ∧ a ≠ n := by
  simp only [Classical.not_forall] at h
  obtain ⟨n, hn, hne⟩ := h
  exact ⟨n, hn, hne⟩

theorem TopicName.text_ne {a b : TopicName} (h : a ≠ b) : a.text ≠ b.text :=
  fun ht => h (TopicName.ext ht)

namespace Memory

/-- What brokers have and show of a topic. -/
structure TopicState where
  held : Option Topic
  hidden : Option Nat
  unavailable : Bool
  /-- How long the topic will not be shown if it is created. -/
  lag : Nat
  deriving DecidableEq, Repr

namespace Brokers

variable {b b' : Brokers} {name : TopicName}

def stateOf (b : Brokers) (name : TopicName) : TopicState where
  held := b.topics.get? name.text
  hidden := b.hidden.get? name.text
  unavailable := b.unavailable.contains name.text
  lag := b.lag

theorem stateOf_eq_iff : b.stateOf name = b'.stateOf name ↔
    b.topics.get? name.text = b'.topics.get? name.text ∧
      b.hidden.get? name.text = b'.hidden.get? name.text ∧
      b.unavailable.contains name.text = b'.unavailable.contains name.text ∧ b.lag = b'.lag := by
  simp [stateOf]

/-- A call about another topic leaves this one alone. -/
theorem stateOf_answer_of_ne {c : BrokerCall} (h : ¬ ∀ n ∈ c.topic?, name = n) (b : Brokers) :
    (answer c b).2.stateOf name = b.stateOf name := by
  obtain ⟨n, hn, hname⟩ := exists_ne_of_not_forall h
  have hne := TopicName.text_ne hname
  have hchange : ∀ f, (b.change n f).2.stateOf name = b.stateOf name := by
    intro f
    rw [change]
    split
    · simp [stateOf, hne]
    · rfl
  cases c with
  | read m =>
    cases hn
    simp only [answer, read]
    split
    · rfl
    · split
      · simp [stateOf, hne]
      · rfl
  | create t =>
    cases hn
    simp only [answer, create, put]
    split
    · simp [stateOf, hne]
    · split
      · rfl
      · simp [stateOf, hne]
  | delete m =>
    cases hn
    simp only [answer, delete, remove]
    split
    · simp [stateOf, TextMap.get?_erase, hne]
    · rfl
  | updateConfig t =>
    cases hn
    exact hchange _
  | increasePartitions t =>
    cases hn
    exact hchange _
  | changeReplicationFactor t =>
    cases hn
    exact hchange _
  | describe => cases hn
  | list => cases hn

/-- Brokers that agree on a topic go on agreeing on it when one of its fields changes. -/
theorem same_change (h : b.stateOf name = b'.stateOf name) (f : Topic → Topic) :
    (b.change name f).1 = (b'.change name f).1 ∧
      (b.change name f).2.stateOf name = (b'.change name f).2.stateOf name := by
  obtain ⟨htopic, hhidden, hunavailable, hlag⟩ := stateOf_eq_iff.1 h
  rw [change, change, htopic]
  cases b'.topics.get? name.text with
  | none => exact ⟨rfl, h⟩
  | some t =>
    refine ⟨rfl, stateOf_eq_iff.2 ⟨?_, hhidden, hunavailable, hlag⟩⟩
    simp

/-- A call about one topic is answered from the state of that topic. -/
theorem same_answer (hrace : b.losesRace = false) (hrace' : b'.losesRace = false) {c : BrokerCall}
    (hc : c.topic? = some name) (h : b.stateOf name = b'.stateOf name) :
    (answer c b).1 = (answer c b').1 ∧
      (answer c b).2.stateOf name = (answer c b').2.stateOf name := by
  obtain ⟨htopic, hhidden, hunavailable, hlag⟩ := stateOf_eq_iff.1 h
  have hthere : b.topics.contains name.text = b'.topics.contains name.text := by
    rw [TextMap.contains, TextMap.contains, htopic]
  cases c with
  | read n =>
    cases hc
    simp only [answer, read, hunavailable, hhidden, htopic]
    split
    · exact ⟨rfl, h⟩
    · split
      · exact ⟨rfl, stateOf_eq_iff.2 ⟨htopic, by simp, hunavailable, hlag⟩⟩
      · exact ⟨rfl, h⟩
  | create t =>
    cases hc
    simp only [answer, create, hrace, hrace', hthere, put, Bool.false_eq_true, if_false]
    split
    · exact ⟨rfl, h⟩
    · exact ⟨rfl, stateOf_eq_iff.2 ⟨by simp, by simp [hlag], hunavailable, hlag⟩⟩
  | delete n =>
    cases hc
    simp only [answer, delete, hthere, remove]
    split
    · refine ⟨rfl, stateOf_eq_iff.2 ⟨?_, hhidden, hunavailable, hlag⟩⟩
      simp [TextMap.get?_erase]
    · exact ⟨rfl, h⟩
  | updateConfig t =>
    cases hc
    exact same_change h _
  | increasePartitions t =>
    cases hc
    exact same_change h _
  | changeReplicationFactor t =>
    cases hc
    exact same_change h _
  | describe => cases hc
  | list => cases hc

theorem topics_congr (hb : b.Named) (hb' : b'.Named) (h : ∀ n, b.stateOf n = b'.stateOf n) :
    b.topics = b'.topics := by
  refine TextMap.ext fun k => ?_
  cases hk : b.topics.get? k with
  | some t =>
    have hname := hb k t hk
    rw [← hk, ← hname, (stateOf_eq_iff.1 (h t.name)).1]
  | none =>
    cases hk' : b'.topics.get? k with
    | none => rfl
    | some t =>
      have hname := hb' k t hk'
      rw [← hname, ← (stateOf_eq_iff.1 (h t.name)).1, hname, hk] at hk'
      cases hk'

/-- Brokers that agree on all topics list the same. -/
theorem describe_congr (hb : b.Named) (hb' : b'.Named) (h : ∀ n, b.stateOf n = b'.stateOf n) :
    b.describe = b'.describe := by
  have hunavailable : ∀ t : Topic,
      b.unavailable.contains t.name.text = b'.unavailable.contains t.name.text :=
    fun t => (stateOf_eq_iff.1 (h t.name)).2.2.1
  simp only [describe, topics_congr hb hb' h, hunavailable]

end Brokers

namespace Resources

variable {s s' : Resources} {name : ResourceName}

/-- A call about another resource leaves this one alone. -/
theorem get?_answer_of_ne {c : ResourceCall} (h : ¬ ∀ n ∈ c.name?, name = n) (s : Resources) :
    (answer c s).2.byName.get? name.text = s.byName.get? name.text := by
  -- A read writes nothing at all, so that only calls that write matter.
  refine elsewhere_answer fun n hn htext => h fun m hm => ?_
  have hname : c.name? = c.target? := by
    cases c with
    | get k => cases hn
    | list => cases hn
    | _ => rfl
  rw [hname, hn] at hm
  cases hm
  obtain ⟨text⟩ := name
  obtain ⟨text'⟩ := n
  exact congrArg ResourceName.mk htext.symm

/-- A call about one resource is answered from that resource. -/
theorem same_answer {c : ResourceCall} (hc : c.name? = some name)
    (h : s.byName.get? name.text = s'.byName.get? name.text) :
    (answer c s).1 = (answer c s').1 ∧
      (answer c s).2.byName.get? name.text = (answer c s').2.byName.get? name.text := by
  cases c with
  | get n =>
    cases hc
    exact ⟨congrArg Except.ok h, h⟩
  | list => cases hc
  | create t =>
    cases hc
    exact ⟨rfl, by simp [answer, create]⟩
  | update t =>
    cases hc
    exact ⟨rfl, by simp [answer, update, h]⟩
  | delete n =>
    cases hc
    exact ⟨rfl, by simp [answer, remove, TextMap.get?_erase]⟩
  | updateStatus n report =>
    cases hc
    refine ⟨rfl, ?_⟩
    simp only [answer, updateStatus, h]
    split
    · simp
    · exact h

end Resources

end Memory

namespace Bindings

variable {m m' : Bindings} {name : TopicName}

theorem ext (h : ∀ n, m.get? n = m'.get? n) : m = m' := by
  obtain ⟨f, hf⟩ := m
  obtain ⟨g, hg⟩ := m'
  obtain rfl : f = g := funext h
  rfl

/-- A call about another name leaves this one alone. -/
theorem get?_after_of_ne {c : StoreCall} (h : ¬ ∀ n ∈ c.topic?, name = n) (m : Bindings) :
    (m.after c).get? name = m.get? name := by
  obtain ⟨n, hn, hne⟩ := exists_ne_of_not_forall h
  cases c with
  | read k => rfl
  | list => rfl
  | create t =>
    cases hn
    simp only [after]
    split <;> simp [bind, hne]
  | update t =>
    cases hn
    simp only [after]
    split <;> simp [bind, hne]
  | delete k =>
    cases hn
    simp only [after]
    split <;> simp [free, hne]

/-- A call about one name is answered from what that name is bound to. -/
theorem same_answers {c : StoreCall} (hc : c.topic? = some name) (h : m.get? name = m'.get? name)
    {r r' : c.Answer} (hr : m.Answers c r) (hr' : m'.Answers c r') :
    r = r' ∧ (m.after c).get? name = (m'.after c).get? name := by
  have hbound : m.bound name = m'.bound name := by rw [bound, bound, h]
  cases c with
  | read n =>
    cases hc
    exact ⟨by rw [hr, hr', h], h⟩
  | list => cases hc
  | create t =>
    cases hc
    refine ⟨by rw [hr, hr', hbound], ?_⟩
    simp only [after, hbound]
    split
    · exact h
    · simp [bind]
  | update t =>
    cases hc
    refine ⟨by rw [hr, hr', hbound], ?_⟩
    simp only [after, hbound]
    split
    · simp [bind]
    · exact h
  | delete n =>
    cases hc
    refine ⟨by rw [hr, hr', hbound], ?_⟩
    simp only [after, hbound]
    split
    · simp [free]
    · exact h

/-- The names in a map can be listed in one way only. -/
theorem Lists.unique {names names' : List TopicName} (h : m.Lists names) (h' : m.Lists names') :
    names = names' := by
  have hnodup : ∀ {ns : List TopicName}, m.Lists ns → ns.Nodup := by
    intro ns hns
    refine hns.ordered.imp fun hlt heq => ?_
    rw [heq] at hlt
    exact List.lt_irrefl _ hlt
  have hperm : names.Perm names' := by
    rw [List.perm_ext_iff_of_nodup (hnodup h) (hnodup h')]
    exact fun n => (h.mem_iff n).trans (h'.mem_iff n).symm
  refine hperm.eq_of_pairwise (fun a b _ _ hab hba => ?_) h.ordered h'.ordered
  exact absurd (List.lt_trans hab hba) (List.lt_irrefl _)

end Bindings

end TopicSync
