import TopicSync.Proofs.Memory.Undisturbed
import TopicSync.Proofs.Operator.Deletion

/-!
Attempts at different topics do not get in each other's way. An attempt keeps to the record and the
topic of one name and to a few resources; as long as another attempt has none of these resources,
it makes no difference how the calls of the two follow one another.
-/
namespace TopicSync

namespace Operator

section Independence

variable {σ : Type} {answer : (c : OperatorCall) → σ → c.Answer × σ} {v : View σ}
  {topic t₁ t₂ : TopicName} {named n₁ n₂ : Option ResourceName} {s : σ}

theorem keepsTo_reconcile (h : Reliable answer v) (hderived : DerivesNames answer v)
    (o : Operator) (hs : v.valid s) :
    (o.reconcile topic named).KeepsTo answer OperatorCall.Concerns (Domain v topic named s) s :=
  fun _ hm _ hx => (footprint_reconcile h o hs hm).domain hderived hx

theorem domain_disjoint (ht : t₁ ≠ t₂) (hn : ∀ n, Names v t₁ n₁ s n → ¬ Names v t₂ n₂ s n)
    (x : Part) (hx : Domain v t₁ n₁ s x) : ¬ Domain v t₂ n₂ s x := by
  cases x with
  | record name => exact fun hx' => ht (hx.symm.trans hx')
  | topic name => exact fun hx' => ht (hx.symm.trans hx')
  | resource n => exact hn n hx

end Independence

/-- An attempt deals with the record and the topic of its name, and with the resources that its
trigger, the record and the topic's name give: it changes nothing else, and goes by nothing else.
So of two attempts at different topics that have none of these resources in common, each ends in the
same way however the calls of the two follow one another, and the records, the topics and the
resources end as if the two had been made in turn, no matter which first. -/
theorem attempts_independent {σ : Type} {answer : (c : OperatorCall) → σ → c.Answer × σ}
    {v : View σ} {parts : Parts Part σ} (h : Reliable answer v) (hderived : DerivesNames answer v)
    (hseparate : Separate (I := operatorInterface) answer OperatorCall.Concerns parts)
    (hvalid : ∀ s, parts.valid s → v.valid s) (o : Operator) :
    (∀ topic named s, v.valid s →
      (o.reconcile topic named).KeepsTo answer OperatorCall.Concerns (Domain v topic named s) s) ∧
    (∀ topic named s, parts.valid s →
      (∀ x, ¬ Domain v topic named s x →
        parts.content ((o.reconcile topic named).run answer s).2 x = parts.content s x) ∧
      ∀ u, parts.valid u → parts.Agree (Domain v topic named s) u s →
        ((o.reconcile topic named).run answer u).1 = ((o.reconcile topic named).run answer s).1 ∧
        parts.Agree (Domain v topic named s) ((o.reconcile topic named).run answer u).2
          ((o.reconcile topic named).run answer s).2) ∧
    ∀ t₁ t₂ n₁ n₂ s, parts.valid s → t₁ ≠ t₂ →
      (∀ n, Names v t₁ n₁ s n → ¬ Names v t₂ n₂ s n) →
      ∀ r₁ r₂ s',
        Program.Interleaved answer (o.reconcile t₁ n₁) (o.reconcile t₂ n₂) s r₁ r₂ s' →
        (r₁ = ((o.reconcile t₁ n₁).run answer s).1 ∧
          r₂ = ((o.reconcile t₂ n₂).run answer ((o.reconcile t₁ n₁).run answer s).2).1 ∧
          ∀ x, parts.content s' x = parts.content
            ((o.reconcile t₂ n₂).run answer ((o.reconcile t₁ n₁).run answer s).2).2 x) ∧
        (r₁ = ((o.reconcile t₁ n₁).run answer ((o.reconcile t₂ n₂).run answer s).2).1 ∧
          r₂ = ((o.reconcile t₂ n₂).run answer s).1 ∧
          ∀ x, parts.content s' x = parts.content
            ((o.reconcile t₁ n₁).run answer ((o.reconcile t₂ n₂).run answer s).2).2 x) := by
  have hkeeps : ∀ topic named s, v.valid s → (o.reconcile topic named).KeepsTo answer
      OperatorCall.Concerns (Domain v topic named s) s :=
    fun _ _ _ hs => keepsTo_reconcile h hderived o hs
  refine ⟨hkeeps, fun topic named s hs => ⟨fun x hx => ?_, fun u hu ha => ?_⟩, ?_⟩
  · exact (hseparate.run_alone hs hs (hkeeps _ _ _ (hvalid s hs)) fun _ _ => rfl).2.2 x hx
  · obtain ⟨hresult, hafter, -⟩ := hseparate.run_alone hs hu (hkeeps _ _ _ (hvalid s hs)) ha
    exact ⟨hresult, hafter⟩
  · intro t₁ t₂ n₁ n₂ s hs ht hn r₁ r₂ s' hi
    have halike : ∀ {r₁' r₂' s''},
        Program.Interleaved answer (o.reconcile t₁ n₁) (o.reconcile t₂ n₂) s r₁' r₂' s'' →
        r₁ = r₁' ∧ r₂ = r₂' ∧ ∀ x, parts.content s' x = parts.content s'' x :=
      hseparate.interleaved_unique hs (hkeeps _ _ _ (hvalid s hs)) (hkeeps _ _ _ (hvalid s hs))
        (domain_disjoint ht hn) hi
    exact ⟨halike (.first_left _ _ s), halike (.first_right _ _ s)⟩

end Operator

namespace Memory.World

open Operator (Names)

/-- A topic whose resource does not have the name that the topic's name gives. -/
def refundsStored : Topic :=
  { Plan.ordersStored with name := ⟨"refunds", by decide⟩, resourceName := ⟨"refunds-eu"⟩ }

/-- The brokers hold one topic, a resource describes another, and a new topic is not shown at
once. -/
def twoTopics : World :=
  { empty with
    brokers := { Brokers.empty.put Plan.ordersStored with lag := 1 }
    resources := Resources.empty.create refundsStored 1 }

theorem represents_twoTopics :
    HierarchicalStore.Represents .empty twoTopics.store twoTopics.tree := by
  have husable : HierarchicalStore.UsablePrefix "kafka-topic-store" := by decide +kernel
  exact HierarchicalStore.represents_fresh husable

theorem undisturbed_twoTopics : twoTopics.Undisturbed := by
  have hvalid : view.valid twoTopics :=
    ⟨Resources.named_empty.insert rfl, Brokers.named_empty.insert rfl⟩
  exact ⟨hvalid, rfl, rfl, Brokers.derived_empty.insert rfl, .empty, represents_twoTopics⟩

theorem names_twoTopics {topic : TopicName} {named : Option ResourceName} {n : ResourceName}
    (h : Names undisturbedView topic named twoTopics n) :
    named = some n ∨ topic.resourceName = n := by
  have hrecord : view.record twoTopics topic = none :=
    record_of_represents represents_twoTopics topic
  rcases h with hn | ⟨t, ht, -⟩ | hn
  · exact .inl hn
  · rw [record_undisturbedView, hrecord] at ht
    cases ht
  · exact .inr hn

theorem attempts_independent_twoTopics :
    ∃ r₁ r₂ w, Program.Interleaved answer (ordersOperator.reconcile Plan.ordersStored.name none)
        (ordersOperator.reconcile refundsStored.name (some ⟨"refunds-eu"⟩)) twoTopics r₁ r₂ w ∧
      r₁.toOption = some (some .createResource) ∧ r₂.toOption = some (some .createKafkaTopic) ∧
      ∀ x, parts.content w x = parts.content
        ((ordersOperator.reconcile refundsStored.name (some ⟨"refunds-eu"⟩)).run answer
          ((ordersOperator.reconcile Plan.ordersStored.name none).run answer twoTopics).2).2 x := by
  have hnames : ∀ n, Names undisturbedView Plan.ordersStored.name none twoTopics n →
      ¬ Names undisturbedView refundsStored.name (some ⟨"refunds-eu"⟩) twoTopics n := by
    intro n hn hn'
    obtain rfl : Plan.ordersStored.name.resourceName = n :=
      (names_twoTopics hn).resolve_left (by rintro ⟨⟩)
    exact absurd (names_twoTopics hn') (by decide +kernel)
  have hinterleaved : Program.Interleaved answer
      (ordersOperator.reconcile Plan.ordersStored.name none)
      (ordersOperator.reconcile refundsStored.name (some ⟨"refunds-eu"⟩)) twoTopics _ _ _ :=
    Program.interleaved_alternate _ _ _
  have hindependent := (Operator.attempts_independent reliable_undisturbed derivesNames separate
    (fun _ h => h) ordersOperator).2.2 Plan.ordersStored.name refundsStored.name none
    (some ⟨"refunds-eu"⟩) twoTopics undisturbed_twoTopics (by decide) hnames _ _ _ hinterleaved
  exact ⟨_, _, _, hinterleaved, by decide +kernel, by decide +kernel, hindependent.1.2.2⟩

end Memory.World

end TopicSync
