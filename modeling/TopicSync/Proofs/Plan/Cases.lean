import TopicSync.Proofs.Plan.Merge

/-!
The cases of a plan. Which of the three snapshots are there decides, and where all of them are or
only the record is missing also whether they agree. Whatever holds of plans is shown case by case;
so is where what they write into resources is from.
-/
namespace TopicSync.Plan

/-- The resource of an unrecorded topic, once what the brokers hold has been written into it. -/
def overwritten (r k : Topic) : Topic :=
  { k with
    resourceName := r.resourceName
    labels := r.labels.or k.labels }

/-- What plans there are, by the record, the resource and what the brokers hold. -/
inductive Made (managed : Selector) : Option Topic → Option Topic → Option Topic → Plan → Prop
  | nothing : Made managed none none none ⟨.nothing, []⟩
  | createsResource (k : Topic) (t : Topic) (ht : t = { k with labels := some managed.labels }) :
    Made managed none none (some k) ⟨.createResource, [.createResource t, .createStored t]⟩
  | createsTopic (r : Topic) :
    Made managed none (some r) none ⟨.createKafkaTopic, [.createKafkaTopic r, .createStored r]⟩
  | records (r k : Topic) (hd : ∀ f, ¬ k.Edits r f) :
    Made managed none (some r) (some k) ⟨.recordConverged, [.createStored r]⟩
  | overwrites (r k : Topic) (hd : ∃ f, k.Edits r f) :
    Made managed none (some r) (some k) ⟨.kafkaWins,
      [.updateResource (overwritten r k), overwriteWarning r k (TopicDiff.between r k),
        .createStored (overwritten r k)]⟩
  | forgets (s : Topic) : Made managed (some s) none none ⟨.forgetStored, [.deleteStored s.name]⟩
  | deletesTopic (s k : Topic) :
    Made managed (some s) none (some k)
      ⟨.deleteKafkaTopic, [.deleteKafkaTopic k.name, .deleteStored s.name]⟩
  | deletesResource (s r : Topic) :
    Made managed (some s) (some r) none
      ⟨.deleteResource, [.deleteResource r.resourceName, .deleteStored s.name]⟩
  | keeps (s r k : Topic) (hd : ∀ f, ¬ k.Edits s f ∧ ¬ r.Edits s f) :
    Made managed (some s) (some r) (some k) ⟨.merge, []⟩
  | merges (s r k : Topic) (hc : ∀ f, ¬ Contested s r k f) (hd : ∃ f, k.Edits s f ∨ r.Edits s f)
    (hp : s.partitions.val ≤ (merged s r k).partitions.val) :
    Made managed (some s) (some r) (some k) ⟨.merge, steps k (merged s r k)⟩

variable {managed : Selector} {stored wanted kafka : Option Topic} {p : Plan} {t : Topic}

theorem made_of_make (h : make managed stored wanted kafka = .ok p) :
    Made managed stored wanted kafka p := by
  rcases stored with _ | s <;> rcases wanted with _ | r <;> rcases kafka with _ | k
  case none.none.none =>
    cases h
    exact .nothing
  case none.none.some =>
    cases h
    exact .createsResource k _ rfl
  case none.some.none =>
    cases h
    exact .createsTopic r
  case none.some.some =>
    rw [make] at h
    by_cases he : (TopicDiff.between r k).isEmpty = true
    · rw [if_pos he] at h
      cases h
      exact .records r k (TopicDiff.isEmpty_between_iff.1 he)
    · rw [if_neg he] at h
      cases h
      rw [TopicDiff.isEmpty_between_iff, Classical.not_forall] at he
      exact .overwrites r k (he.imp fun _ => Decidable.not_not.1)
  case some.none.none =>
    cases h
    exact .forgets s
  case some.none.some =>
    cases h
    exact .deletesTopic s k
  case some.some.none =>
    cases h
    exact .deletesResource s r
  case some.some.some =>
    rw [make] at h
    split at h
    next actions ha =>
      cases h
      obtain ⟨hc, ⟨hno, rfl⟩ | ⟨hd, hp, rfl⟩⟩ := mergeActions_eq_ok ha
      · exact .keeps s r k hno
      · exact .merges s r k hc hd hp
    next => cases h

/-- A resource is made only for a topic of which nothing else is known than what the brokers say,
and with the labels of the selector. -/
theorem of_createResource_mem (h : make managed stored wanted kafka = .ok p)
    (ht : .createResource t ∈ p.actions) :
    stored = none ∧ wanted = none ∧
      ∃ k, kafka = some k ∧ t = { k with labels := some managed.labels } := by
  cases made_of_make h with
  | createsResource k u hu =>
    obtain rfl : t = u := by simpa using ht
    exact ⟨rfl, rfl, k, rfl, hu⟩
  | _ => simp [overwriteWarning, steps, preparations] at ht

/-- A resource is updated only for a topic that the brokers hold: to what they hold if there is no
record, and to the merge if there is one. -/
theorem of_updateResource_mem (h : make managed stored wanted kafka = .ok p)
    (ht : .updateResource t ∈ p.actions) :
    ∃ r k, wanted = some r ∧ kafka = some k ∧
      (stored = none ∧ t = overwritten r k ∨ ∃ s, stored = some s ∧ t = merged s r k) := by
  cases made_of_make h with
  | overwrites r k =>
    exact ⟨r, k, rfl, rfl, .inl ⟨rfl, by simpa [overwriteWarning] using ht⟩⟩
  | merges s r k =>
    exact ⟨r, k, rfl, rfl, .inr ⟨s, rfl, by simpa [steps, preparations] using ht⟩⟩
  | _ => simp at ht

end TopicSync.Plan
