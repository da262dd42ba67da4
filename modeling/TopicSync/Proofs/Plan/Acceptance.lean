import TopicSync.Proofs.Plan.Cases
import TopicSync.Proofs.Resource.Mapping

/-!
Whether what is written into a resource is accepted when the resource is read. The limits on what a
resource may say are not those of the brokers, whose values go into resources unchecked. So a plan
writes what will be accepted as long as the brokers keep to the limits, and may write what will be
turned down from then on if they do not.
-/
namespace TopicSync

namespace Plan

variable {managed : Selector} {stored wanted kafka : Option Topic} {p : Plan} {t : Topic}

/-- Whether a plan takes the brokers' value of a field: without a record it takes all of them, and
else those that are not in the record. -/
def Takes (stored : Option Topic) (held : Topic) (f : Field) : Prop :=
  ∀ record ∈ stored, held.value f ≠ record.value f

/-- Where the values of a snapshot that is written into a resource are from. -/
structure Blend (stored wanted : Option Topic) (held t : Topic) : Prop where
  taken : ∀ f, f.isLabel = false → Takes stored held f → t.value f = held.value f
  kept : ∀ f, f.isLabel = false → ¬ Takes stored held f →
    ∃ r, wanted = some r ∧ t.value f = r.value f

theorem blend_merged (record resource held : Topic) :
    Blend (some record) (some resource) held (merged record resource held) := by
  constructor
  · intro f hl htakes
    have hedits : held.Edits record f :=
      (Topic.edits_iff_of_not_label hl).2 (htakes record rfl)
    rw [value_merged, if_pos hedits]
  · intro f hl htakes
    have hedits : ¬ held.Edits record f := by
      intro he
      refine htakes fun r hr => ?_
      cases hr
      exact (Topic.edits_iff_of_not_label hl).1 he
    refine ⟨resource, rfl, ?_⟩
    rw [value_merged, if_neg hedits]
    split
    · rfl
    next hr =>
      have heq : resource.value f = record.value f := by
        simpa [Topic.edits_iff_of_not_label hl] using hr
      exact heq.symm

/-- Without a record, whatever has the fields of what the brokers hold is taken from there. -/
theorem blend_of_value {held : Topic} (h : ∀ f, f.isLabel = false → t.value f = held.value f) :
    Blend none wanted held t where
  taken f hl _ := h f hl
  kept f _ htakes := absurd (by rintro r ⟨⟩) htakes

/-- What a plan writes into a resource is a blend of what the brokers hold and the resource says. -/
theorem blend_of_written (hplan : make managed stored wanted kafka = .ok p)
    (ht : .createResource t ∈ p.actions ∨ .updateResource t ∈ p.actions) :
    ∃ held, kafka = some held ∧ Blend stored wanted held t := by
  rcases ht with ht | ht
  · obtain ⟨rfl, rfl, held, rfl, rfl⟩ := of_createResource_mem hplan ht
    refine ⟨held, rfl, blend_of_value fun f hl => ?_⟩
    cases f <;> first | rfl | cases hl
  · obtain ⟨resource, held, rfl, rfl, ⟨rfl, rfl⟩ | ⟨record, rfl, rfl⟩⟩ :=
      of_updateResource_mem hplan ht
    · refine ⟨held, rfl, blend_of_value fun f hl => ?_⟩
      cases f <;> first | rfl | cases hl
    · exact ⟨held, rfl, blend_merged record resource held⟩

/-- A blend keeps to the limits if the resource does and the values taken from the brokers do. -/
theorem Blend.withinLimits_iff {held : Topic} (h : Blend stored wanted held t)
    (hr : ∀ r ∈ wanted, r.WithinLimits) :
    t.WithinLimits ↔ ∀ f, Takes stored held f → f.Allows (held.value f) := by
  have hlabel : ∀ (f : Field) (v : FieldValue), f.isLabel = true → f.Allows v := by
    intro f v hl
    cases f with
    | label k => trivial
    | _ => cases hl
  constructor
  · intro ht f htakes
    cases hl : f.isLabel with
    | true => exact hlabel f _ hl
    | false => exact h.taken f hl htakes ▸ ht f
  · intro hk f
    cases hl : f.isLabel with
    | true => exact hlabel f _ hl
    | false =>
      by_cases htakes : Takes stored held f
      · exact h.taken f hl htakes ▸ hk f htakes
      · obtain ⟨r, hw, hv⟩ := h.kept f hl htakes
        exact hv ▸ hr r hw f

/-- Whether what the operator writes into resources is accepted when it is read. Suppose that a plan
has been made, for a resource that was accepted if there is one, and whatever the brokers hold. A
snapshot that goes into a new resource, or into the resource that has its name, is read back as it
was written if it keeps to the limits on resources, and turned down otherwise. It keeps to them just
if those values do that the plan takes from the brokers. -/
theorem written_accepted_iff (managed : Selector) (stored wanted kafka : Option Topic) (p : Plan)
    (t : Topic) (hplan : make managed stored wanted kafka = .ok p)
    (hwanted : ∀ w ∈ wanted, ∃ r : Resource, r.toTopic = .ok w)
    (ht : .createResource t ∈ p.actions ∨ .updateResource t ∈ p.actions) :
    (∀ ns, (Resource.ofTopic t ns).Holds t) ∧
    (∀ r : Resource, r.nameText = t.resourceName.text → (r.withTopic t).Holds t) ∧
    ∃ held, kafka = some held ∧
      (t.WithinLimits ↔ ∀ f, Takes stored held f → f.Allows (held.value f)) := by
  refine ⟨Resource.holds_ofTopic t, fun r => Resource.holds_withTopic, ?_⟩
  have hlimits : ∀ w ∈ wanted, w.WithinLimits := by
    intro w hw
    obtain ⟨r, hread⟩ := hwanted w hw
    exact Resource.withinLimits_of_toTopic hread
  obtain ⟨held, hk, hblend⟩ := blend_of_written hplan ht
  exact ⟨held, hk, hblend.withinLimits_iff hlimits⟩

theorem written_accepted_iff_disjoint_edits :
    make .managed (some ordersStored) (some ordersResource) (some ordersKafka) =
      .ok ⟨.merge, steps ordersKafka (merged ordersStored ordersResource ordersKafka)⟩ ∧
    (∀ w ∈ some ordersResource, ∃ r : Resource, r.toTopic = .ok w) ∧
    ((Resource.ofTopic ordersResource "kafka").withTopic
        (merged ordersStored ordersResource ordersKafka)).toTopic =
      .ok (merged ordersStored ordersResource ordersKafka) := by
  have hplan : make .managed (some ordersStored) (some ordersResource) (some ordersKafka) =
      .ok ⟨.merge, steps ordersKafka (merged ordersStored ordersResource ordersKafka)⟩ := rfl
  have hread : ∀ w ∈ some ordersResource, ∃ r : Resource, r.toTopic = .ok w := by
    rintro w ⟨⟩
    exact ⟨_, (Resource.holds_ofTopic ordersResource "kafka").accepted (by decide +kernel)⟩
  have hwritten : .updateResource (merged ordersStored ordersResource ordersKafka) ∈
      steps ordersKafka (merged ordersStored ordersResource ordersKafka) := by
    simp [steps, preparations]
  obtain ⟨-, hupdate, held, hheld, hlimits⟩ :=
    written_accepted_iff _ _ _ _ _ _ hplan hread (.inr hwritten)
  cases hheld
  refine ⟨hplan, hread, ?_⟩
  have hwithin : (merged ordersStored ordersResource ordersKafka).WithinLimits := by decide +kernel
  exact (hupdate (Resource.ofTopic ordersResource "kafka") rfl).accepted hwithin

/-- A topic with more partitions than a resource may ask for. -/
def ordersCrowded : Topic :=
  { ordersKafka with partitions := ⟨100001, by decide, by decide⟩ }

/-- The resource that is made for a topic of the brokers is turned down when it is read, with a
complaint that says of 100001 partitions that they must be at least one. -/
theorem created_resource_rejected :
    ∃ p t, make .managed none none (some ordersCrowded) = .ok p ∧
      .createResource t ∈ p.actions ∧
      (Resource.specOf t).complaints = [("partitions", "partitions must be at least 1")] ∧
      ∃ why, (Resource.ofTopic t "kafka").toTopic = .error (.invalidResource "orders" why) := by
  refine ⟨_, { ordersCrowded with labels := some Selector.managed.labels }, rfl,
    List.mem_cons_self, by decide +kernel, ?_⟩
  exact (Resource.holds_ofTopic _ "kafka").rejected (by decide +kernel)

end Plan

end TopicSync
