import TopicSync.Proofs.Independence
import TopicSync.Proofs.Memory.Parts

/-!
The world in memory when it is left to the operator: no failures are arranged, and nobody else is
about to create a topic. Such a world falls into records, topics and resources, and stays so.
-/
namespace TopicSync

namespace Memory

/-- The topics that brokers have name the resource that their own name gives. -/
def Brokers.Derived (b : Brokers) : Prop :=
  ∀ key t, b.topics.get? key = some t → t.resourceName = t.name.resourceName

theorem Brokers.derived_empty : Brokers.empty.Derived := by
  intro key t h
  simp [Brokers.empty, TextMap.get?_empty] at h

theorem Brokers.Derived.insert {b : Brokers} (h : b.Derived) {key : String} {t : Topic}
    (ht : t.resourceName = t.name.resourceName) :
    Derived { b with topics := b.topics.insert key t } :=
  forall_insert h ht

theorem Brokers.derived_answer {b : Brokers} (h : b.Derived) (c : BrokerCall) :
    (answer c b).2.Derived := by
  refine forall_answer h (fun _ => rfl) (fun ht hname hresource => ?_) c
  rw [hresource, hname, ht]

theorem Brokers.losesRace_answer {b : Brokers} (h : b.losesRace = false) (c : BrokerCall) :
    (answer c b).2.losesRace = false := by
  have hchange : ∀ (name : TopicName) (f : Topic → Topic),
      (b.change name f).2.losesRace = false := by
    intro name f
    rw [change]
    split <;> exact h
  cases c with
  | read name =>
    simp only [answer, read]
    split
    · exact h
    · split <;> exact h
  | create t =>
    simp only [answer, create]
    split
    · rfl
    · split <;> exact h
  | delete name =>
    simp only [answer, delete]
    split <;> exact h
  | updateConfig t => exact hchange _ _
  | increasePartitions t => exact hchange _ _
  | changeReplicationFactor t => exact hchange _ _
  | describe => exact h
  | list => exact h

namespace World

open HierarchicalStore (Represents)

variable {w w' : World} {m : Bindings}

/-- The world is left to the operator: no failures are arranged, and nobody else is about to create
a topic. Its store represents a map of records. -/
structure Undisturbed (w : World) : Prop where
  valid : view.valid w
  faultless : w.faults = .none
  noRace : w.brokers.losesRace = false
  derived : w.brokers.Derived
  stored : ∃ m, Represents m w.store w.tree

/-- The parts of the world. -/
def parts : Parts Part World where
  valid := Undisturbed
  Content
    | .record _ => Option Topic
    | .topic _ => TopicState
    | .resource _ => Option Resource
  content w
    | .record name => view.record w name
    | .topic name => w.brokers.stateOf name
    | .resource name => w.resources.byName.get? name.text

theorem nextFault_of_faultless (h : w.faults = .none) (c : OperatorCall) (operation : String) :
    (w.note c).nextFault operation = (none, w.note c) := by
  obtain ⟨brokers, resources, store, tree, faults, counters, now, log⟩ := w
  obtain rfl : faults = .none := h
  rfl

theorem answer_broker (h : w.faults = .none) (c : BrokerCall) :
    answer (.broker c) w = ((Brokers.answer c w.brokers).1,
      { w.note (.broker c) with brokers := (Brokers.answer c w.brokers).2 }) := by
  rw [answer, nextFault_of_faultless h]
  rfl

theorem answer_resource (h : w.faults = .none) (c : ResourceCall) :
    answer (.resource c) w = ((Resources.answer c w.resources).1,
      { w.note (.resource c) with resources := (Resources.answer c w.resources).2 }) := by
  rw [answer, nextFault_of_faultless h]
  rfl

theorem answer_store (h : w.faults = .none) (c : StoreCall) :
    answer (.store c) w = (w.note (.store c)).performStore c := by
  rw [answer, nextFault_of_faultless h]

/-- A call on the store is answered from the map, and carried out on it. -/
theorem performStore_represents (h : Represents m w.store w.tree) (c : StoreCall) :
    m.Answers c (w.performStore c).1 ∧
      Represents (m.after c) (w.performStore c).2.store (w.performStore c).2.tree :=
  HierarchicalStore.serve_represents h c

theorem record_of_represents (h : Represents m w.store w.tree) (name : TopicName) :
    view.record w name = m.get? name := by
  have hread : w.record name = .ok (m.get? name) := (performStore_represents h (.read name)).1
  simp only [view, hread]

theorem undisturbed_answer (h : w.Undisturbed) (c : OperatorCall) :
    (answer c w).2.Undisturbed := by
  have hvalid := reliable.valid c w h.valid
  cases c with
  | broker c =>
    rw [answer_broker h.faultless] at hvalid ⊢
    exact ⟨hvalid, h.faultless, Brokers.losesRace_answer h.noRace c,
      Brokers.derived_answer h.derived c, h.stored⟩
  | resource c =>
    rw [answer_resource h.faultless] at hvalid ⊢
    exact ⟨hvalid, h.faultless, h.noRace, h.derived, h.stored⟩
  | store c =>
    obtain ⟨m, hm⟩ := h.stored
    rw [answer_store h.faultless] at hvalid ⊢
    exact ⟨hvalid, h.faultless, h.noRace, h.derived, m.after c,
      (performStore_represents (w := w.note (.store c)) hm c).2⟩
  | warn x => exact ⟨hvalid, h.faultless, h.noRace, h.derived, h.stored⟩
  | wait ms => exact ⟨hvalid, h.faultless, h.noRace, h.derived, h.stored⟩
  | count x => exact ⟨hvalid, h.faultless, h.noRace, h.derived, h.stored⟩

theorem same_broker (h : w.Undisturbed) (h' : w'.Undisturbed) {c : BrokerCall}
    (ha : parts.Agree (OperatorCall.broker c).Concerns w w') :
    (answer (.broker c) w).1 = (answer (.broker c) w').1 ∧
      parts.Agree (OperatorCall.broker c).Concerns (answer (.broker c) w).2
        (answer (.broker c) w').2 := by
  rw [answer_broker h.faultless, answer_broker h'.faultless]
  have hstate : ∀ name, (∀ n ∈ c.topic?, name = n) →
      w.brokers.stateOf name = w'.brokers.stateOf name := fun name hn => ha (.topic name) hn
  cases hc : c.topic? with
  | some name =>
    obtain ⟨hanswer, hafter⟩ := Brokers.same_answer h.noRace h'.noRace hc
      (hstate name fun n hn => Option.some.inj (hc.symm.trans hn))
    refine ⟨hanswer, fun x hx => ?_⟩
    cases x with
    | topic n =>
      obtain rfl : n = name := hx name hc
      exact hafter
    | record n => cases hx
    | resource n => cases hx
  | none =>
    have hall : ∀ n, w.brokers.stateOf n = w'.brokers.stateOf n := by
      refine fun n => hstate n ?_
      rintro k hk
      cases hc.symm.trans hk
    have hdescribe := Brokers.describe_congr h.valid.2 h'.valid.2 hall
    cases c with
    | describe => exact ⟨congrArg Except.ok hdescribe, ha⟩
    | list =>
      have hnames := congrArg (fun l : TopicListing =>
        (Except.ok (l.topics.map Topic.name ++ l.unavailable) : BrokerCall.list.Answer)) hdescribe
      exact ⟨hnames, ha⟩
    | _ => cases hc

theorem same_resource (h : w.Undisturbed) (h' : w'.Undisturbed) {c : ResourceCall}
    (ha : parts.Agree (OperatorCall.resource c).Concerns w w') :
    (answer (.resource c) w).1 = (answer (.resource c) w').1 ∧
      parts.Agree (OperatorCall.resource c).Concerns (answer (.resource c) w).2
        (answer (.resource c) w').2 := by
  rw [answer_resource h.faultless, answer_resource h'.faultless]
  have hthere : ∀ name, (∀ n ∈ c.name?, name = n) →
      w.resources.byName.get? name.text = w'.resources.byName.get? name.text :=
    fun name hn => ha (.resource name) hn
  cases hc : c.name? with
  | some name =>
    obtain ⟨hanswer, hafter⟩ := Resources.same_answer hc
      (hthere name fun n hn => Option.some.inj (hc.symm.trans hn))
    refine ⟨hanswer, fun x hx => ?_⟩
    cases x with
    | resource n =>
      obtain rfl : n = name := hx name hc
      exact hafter
    | record n => cases hx
    | topic n => cases hx
  | none =>
    cases c with
    | list =>
      have hall : w.resources.byName = w'.resources.byName :=
        TextMap.ext fun k => hthere ⟨k⟩ (by rintro n ⟨⟩)
      exact ⟨congrArg (fun rs : TextMap Resource => Except.ok rs.values) hall, ha⟩
    | _ => cases hc

theorem same_store (h : w.Undisturbed) (h' : w'.Undisturbed) {c : StoreCall}
    (ha : parts.Agree (OperatorCall.store c).Concerns w w') :
    (answer (.store c) w).1 = (answer (.store c) w').1 ∧
      parts.Agree (OperatorCall.store c).Concerns (answer (.store c) w).2
        (answer (.store c) w').2 := by
  obtain ⟨m, hm⟩ := h.stored
  obtain ⟨m', hm'⟩ := h'.stored
  have hbound : ∀ name, (∀ n ∈ c.topic?, name = n) → m.get? name = m'.get? name := by
    intro name hn
    rw [← record_of_represents hm name, ← record_of_represents hm' name]
    exact ha (.record name) hn
  obtain ⟨hanswer, hnext⟩ := performStore_represents (w := w.note (.store c)) hm c
  obtain ⟨hanswer', hnext'⟩ := performStore_represents (w := w'.note (.store c)) hm' c
  rw [answer_store h.faultless, answer_store h'.faultless]
  cases hc : c.topic? with
  | some name =>
    obtain ⟨hsame, hafter⟩ := Bindings.same_answers hc
      (hbound name fun n hn => Option.some.inj (hc.symm.trans hn)) hanswer hanswer'
    refine ⟨hsame, fun x hx => ?_⟩
    cases x with
    | record n =>
      obtain rfl : n = name := hx name hc
      exact (record_of_represents hnext n).trans
        (hafter.trans (record_of_represents hnext' n).symm)
    | topic n => cases hx
    | resource n => cases hx
  | none =>
    cases c with
    | list =>
      obtain rfl : m = m' := Bindings.ext fun n => hbound n (by rintro k ⟨⟩)
      obtain ⟨names, hnames, hlists⟩ := hanswer
      obtain ⟨names', hnames', hlists'⟩ := hanswer'
      refine ⟨by rw [hnames, hnames', hlists.unique hlists'], fun x hx => ?_⟩
      cases x with
      | record n =>
        exact (record_of_represents hnext n).trans (record_of_represents hnext' n).symm
      | topic n => cases hx
      | resource n => cases hx
    | _ => cases hc

/-- Undisturbed, the world falls into the records, the topics and the resources. -/
theorem separate : Separate (I := operatorInterface) answer OperatorCall.Concerns parts where
  valid c w h := undisturbed_answer h c
  elsewhere {c x w} h hc := by
    cases c with
    | broker c =>
      rw [answer_broker h.faultless]
      cases x with
      | topic name => exact Brokers.stateOf_answer_of_ne hc w.brokers
      | record name => rfl
      | resource name => rfl
    | resource c =>
      rw [answer_resource h.faultless]
      cases x with
      | resource name => exact Resources.get?_answer_of_ne hc w.resources
      | record name => rfl
      | topic name => rfl
    | store c =>
      obtain ⟨m, hm⟩ := h.stored
      have hnext := (performStore_represents (w := w.note (.store c)) hm c).2
      rw [answer_store h.faultless]
      cases x with
      | record name =>
        exact (record_of_represents hnext name).trans
          ((Bindings.get?_after_of_ne hc m).trans (record_of_represents hm name).symm)
      | topic name => rfl
      | resource name => rfl
    | warn _ | wait _ | count _ => cases x <;> rfl
  same {c w w'} h h' ha := by
    cases c with
    | broker c => exact same_broker h h' ha
    | resource c => exact same_resource h h' ha
    | store c => exact same_store h h' ha
    | warn _ | wait _ | count _ => exact ⟨rfl, by rintro x ⟨⟩⟩

/-- The operator can rely on an undisturbed world, which stays so. -/
def undisturbedView : View World := { view with valid := Undisturbed }

@[simp] theorem record_undisturbedView (w : World) (topic : TopicName) :
    undisturbedView.record w topic = view.record w topic := rfl

theorem reliable_undisturbed : Reliable answer undisturbedView :=
  reliable.restrict (fun _ h => h.valid) fun c _ h => undisturbed_answer h c

theorem derivesNames : Operator.DerivesNames answer undisturbedView := by
  intro name t w h ht
  have hw : w.Undisturbed := h
  rw [answer_broker hw.faultless] at ht
  have hread : w.brokers.read name = (.ok (some t), (w.brokers.read name).2) := Prod.ext ht rfl
  have hderived : t.resourceName = t.name.resourceName :=
    Brokers.derived_answer hw.derived (.read name) _ t (Brokers.topics_of_read hread)
  rw [hderived, Brokers.name_of_read hw.valid.2 ht]

end World

end Memory

end TopicSync
