import TopicSync.Proofs.Plan.Cases
import TopicSync.Proofs.Plan.Convergence
import TopicSync.Proofs.Resource.Mapping

/-!
The scope of an operator: the resources whose labels a selector takes in. What a plan writes into a
resource has the labels of the selector if the resource is new, and else the labels that the
resource has, whatever labels the record holds. So a resource in scope stays there, wherever a plan
breaks off.
-/
namespace TopicSync

namespace Selector

variable {p : Selector} {labels : TextMap String}

theorem holds_iff : p.holds labels = true ↔
    ∀ k v, p.labels.get? k = some v → labels.get? k = some v := by
  simp only [holds, List.all_eq_true, decide_eq_true_eq, Prod.forall, TextMap.get?_eq_some_iff]

theorem holds_labels (p : Selector) : p.holds p.labels = true := holds_iff.2 fun _ _ h => h

end Selector

namespace Resource

variable {r : Resource} {t : Topic}

theorem labels_ofTopic (t : Topic) (ns : String) : (ofTopic t ns).labels = t.labelsOrEmpty := rfl

/-- A resource keeps its labels when it is rewritten with those. -/
theorem labels_withTopic_of_eq (h : r.labels = t.labelsOrEmpty) :
    (r.withTopic t).labels = t.labelsOrEmpty := by
  rw [labels_withTopic, h]
  cases ht : t.labels <;> simp [Topic.labelsOrEmpty, ht]

end Resource

namespace Sides

variable {managed : Selector} {s : Sides} {p : Plan} {t : Topic}

/-- The labels of a new resource are those of the selector. -/
theorem labels_of_created (h : s.plan managed = .ok p) (ht : .createResource t ∈ p.actions) :
    t.labelsOrEmpty = managed.labels := by
  obtain ⟨-, -, k, -, rfl⟩ := Plan.of_createResource_mem h ht
  rfl

/-- An update carries the labels that the resource has. -/
theorem labels_of_updated (h : s.plan managed = .ok p) (ht : .updateResource t ∈ p.actions) :
    ∃ r, s.resource = some r ∧ t.labelsOrEmpty = r.labelsOrEmpty := by
  obtain ⟨r, k, hr, hk, ⟨-, rfl⟩ | ⟨stored, -, rfl⟩⟩ := Plan.of_updateResource_mem h ht
  · obtain ⟨l, hl⟩ := Option.isSome_iff_exists.1 (s.labelled r hr)
    refine ⟨r, hr, ?_⟩
    simp [Plan.overwritten, Topic.labelsOrEmpty, hl]
  · exact ⟨r, hr, (Plan.mergeOf_merged (s.unlabelled k hk) (s.labelled r hr)).labels⟩

/-- The resource, if there is one, has labels that the selector takes in. -/
def InScope (managed : Selector) (s : Sides) : Prop :=
  ∀ r ∈ s.resource, managed.holds r.labelsOrEmpty = true

instance (managed : Selector) (s : Sides) : Decidable (s.InScope managed) :=
  inferInstanceAs (Decidable (∀ r ∈ s.resource, _))

/-- Whatever the action writes into a resource has labels that the selector takes in. -/
def WritesInScope (managed : Selector) (a : Action) : Prop :=
  ∀ t, a = .createResource t ∨ a = .updateResource t → managed.holds t.labelsOrEmpty = true

theorem writesInScope_of_plan (hs : s.InScope managed) (h : s.plan managed = .ok p) {a : Action}
    (ha : a ∈ p.actions) : WritesInScope managed a := by
  rintro t (rfl | rfl)
  · rw [labels_of_created h ha]
    exact managed.holds_labels
  · obtain ⟨r, hr, hlabels⟩ := labels_of_updated h ha
    rw [hlabels]
    exact hs r hr

theorem InScope.carryOut (hs : s.InScope managed) {a : Action} (ha : WritesInScope managed a) :
    (s.carryOut a).InScope managed := by
  cases a with
  | createResource t =>
    rintro _ ⟨⟩
    exact ha t (.inl rfl)
  | updateResource t =>
    rintro _ ⟨⟩
    have ht := ha t (.inr rfl)
    cases hl : t.labels with
    | some l => simpa [Topic.labelsOrEmpty, hl] using ht
    | none =>
      -- An update that knows no labels leaves those that are there.
      cases hr : s.resource with
      | none => simpa [Topic.labelsOrEmpty, hl] using ht
      | some r => exact hs r hr
  | deleteResource n => rintro _ ⟨⟩
  | _ => exact hs

theorem InScope.carryOutAll (hs : s.InScope managed) {actions : List Action}
    (ha : ∀ a ∈ actions, WritesInScope managed a) : (s.carryOutAll actions).InScope managed := by
  induction actions generalizing s with
  | nil => exact hs
  | cons a actions ih =>
    obtain ⟨hfirst, hrest⟩ := List.forall_mem_cons.1 ha
    exact ih (hs.carryOut hfirst) hrest

/-- For sides whose resource, if there is one, is in scope: a plan makes resources with the labels
of the selector, and updates leave a resource exactly the labels that it had when it was read. So it
is in scope afterwards, and also if the plan breaks off anywhere. -/
theorem plan_stays_in_scope (hs : s.InScope managed) (h : s.plan managed = .ok p) :
    (∀ t, .createResource t ∈ p.actions → ∀ ns,
      (Resource.ofTopic t ns).labels = managed.labels ∧
        (Resource.ofTopic t ns).isManaged managed = true) ∧
    (∀ t, .updateResource t ∈ p.actions → ∃ r, s.resource = some r ∧
      ∀ live : Resource, live.labels = r.labelsOrEmpty →
        (live.withTopic t).labels = r.labelsOrEmpty ∧
          (live.withTopic t).isManaged managed = true) ∧
    ∀ done, done <+: p.actions → (s.carryOutAll done).InScope managed := by
  refine ⟨fun t ht ns => ?_, fun t ht => ?_, fun done hdone => ?_⟩
  · have hlabels := (Resource.labels_ofTopic t ns).trans (labels_of_created h ht)
    rw [Resource.isManaged, hlabels]
    exact ⟨rfl, managed.holds_labels⟩
  · obtain ⟨r, hr, hupdate⟩ := labels_of_updated h ht
    refine ⟨r, hr, fun live hlive => ?_⟩
    have hlabels := (Resource.labels_withTopic_of_eq (hlive.trans hupdate.symm)).trans hupdate
    rw [Resource.isManaged, hlabels]
    exact ⟨rfl, hs r hr⟩
  · exact hs.carryOutAll fun a ha => writesInScope_of_plan hs h (hdone.subset ha)

/-- A record from when the resource had another label. -/
def relabelledRecord : Topic :=
  { Plan.ordersStored with labels := some (.ofList [("team", "sales")]) }

/-- Sides with such a record, and with edits to merge. -/
def relabelledSides : Sides := ordersSides.setStored (some relabelledRecord)

/-- The label that only the record knows does not come back. -/
theorem plan_stays_in_scope_relabelled :
    relabelledSides.InScope .managed ∧
      ∃ p t, relabelledSides.plan .managed = .ok p ∧ .updateResource t ∈ p.actions ∧
        ((Resource.ofTopic Plan.ordersResource "kafka").withTopic t).labels =
          Selector.managed.labels := by
  have hscope : relabelledSides.InScope .managed := by decide +kernel
  have hplan : relabelledSides.plan .managed = .ok ⟨.merge, Plan.steps Plan.ordersKafka
      (Plan.merged relabelledRecord Plan.ordersResource Plan.ordersKafka)⟩ := rfl
  have ht : .updateResource (Plan.merged relabelledRecord Plan.ordersResource Plan.ordersKafka) ∈
      Plan.steps Plan.ordersKafka
        (Plan.merged relabelledRecord Plan.ordersResource Plan.ordersKafka) := by
    simp [Plan.steps, Plan.preparations]
  obtain ⟨r, hr, hlive⟩ := (plan_stays_in_scope hscope hplan).2.1 _ ht
  cases hr
  exact ⟨hscope, _, _, hplan, ht, (hlive _ rfl).1⟩

end Sides

end TopicSync
