import TopicSync.Proofs.Plan.Cases

/-!
What plans make of the number of partitions. A merge goes through only if no side has fewer than
the record, and then leads to the greatest number that any side has. The brokers are asked for
partitions only where they lack some, and to create a topic only where they hold none.
-/
namespace TopicSync.Plan

variable {managed : Selector} {stored resource kafka : Topic} {p : Plan}

/-- The merge of what is not contested: the resource's number of partitions unless the brokers have
changed theirs, which the resource then has left alone or changed likewise. -/
theorem partitions_merged (hc : ¬ Contested stored resource kafka .partitions) :
    (kafka.partitions = stored.partitions ∧
      (merged stored resource kafka).partitions = resource.partitions) ∨
    ((merged stored resource kafka).partitions = kafka.partitions ∧
      (resource.partitions = stored.partitions ∨ resource.partitions = kafka.partitions)) := by
  have hedits : ∀ t : Topic, t.Edits stored .partitions ↔ t.partitions ≠ stored.partitions := by
    intro t
    rw [Topic.edits_iff_of_not_label rfl]
    exact not_congr ⟨Topic.partitions_eq_of_value, fun h => by simp [Topic.value, h]⟩
  have hmerged := value_merged stored resource kafka .partitions
  by_cases hk : kafka.Edits stored .partitions
  · rw [if_pos hk] at hmerged
    refine .inr ⟨Topic.partitions_eq_of_value hmerged, ?_⟩
    by_cases hr : resource.Edits stored .partitions
    · have hsame : kafka.value .partitions = resource.value .partitions :=
        Classical.byContradiction fun hne => hc ⟨hk, hr, hne⟩
      exact .inr (Topic.partitions_eq_of_value hsame).symm
    · exact .inl (by simpa [hedits] using hr)
  · rw [if_neg hk] at hmerged
    have hkept : kafka.partitions = stored.partitions := by simpa [hedits] using hk
    refine .inl ⟨hkept, ?_⟩
    by_cases hr : resource.Edits stored .partitions
    · exact Topic.partitions_eq_of_value (by rw [hmerged, if_pos hr])
    · have hsame : resource.partitions = stored.partitions := by simpa [hedits] using hr
      rw [hsame]
      exact Topic.partitions_eq_of_value (by rw [hmerged, if_neg hr])

/-- A merge that goes through takes partitions from no side. -/
theorem of_mergeActions_eq_ok {actions : List Action}
    (h : mergeActions stored resource kafka = .ok actions) :
    stored.partitions.val ≤ resource.partitions.val ∧
      stored.partitions.val ≤ kafka.partitions.val ∧
      (actions ≠ [] → ∃ result, actions = steps kafka result ∧ result.name = stored.name ∧
        result.partitions.val =
          max stored.partitions.val (max resource.partitions.val kafka.partitions.val)) := by
  obtain ⟨hc, ⟨hno, rfl⟩ | ⟨-, hgrown, rfl⟩⟩ := mergeActions_eq_ok h
  · have hsame : ∀ t : Topic, ¬ t.Edits stored .partitions → t.partitions = stored.partitions := by
      intro t ht
      rw [Topic.edits_iff_of_not_label rfl, ne_eq, Decidable.not_not] at ht
      exact Topic.partitions_eq_of_value ht
    rw [hsame resource (hno .partitions).2, hsame kafka (hno .partitions).1]
    exact ⟨Nat.le_refl _, Nat.le_refl _, fun hne => absurd rfl hne⟩
  · have hmerged := partitions_merged (hc .partitions)
    have hbounds : stored.partitions.val ≤ resource.partitions.val ∧
        stored.partitions.val ≤ kafka.partitions.val ∧
        (merged stored resource kafka).partitions.val =
          max stored.partitions.val (max resource.partitions.val kafka.partitions.val) := by
      rcases hmerged with ⟨hk, hm⟩ | ⟨hm, hr | hr⟩
      · rw [hm] at hgrown ⊢
        rw [hk]
        omega
      · rw [hm] at hgrown ⊢
        rw [hr]
        omega
      · rw [hm] at hgrown ⊢
        rw [hr]
        omega
    exact ⟨hbounds.1, hbounds.2.1, fun _ => ⟨_, rfl, rfl, hbounds.2.2⟩⟩

/-- The brokers are asked for partitions in a merge, and for more than they hold. -/
theorem of_increaseKafkaPartitions_mem {stored wanted kafka : Option Topic} {t : Topic}
    (h : make managed stored wanted kafka = .ok p) (ht : .increaseKafkaPartitions t ∈ p.actions) :
    ∃ s r k, stored = some s ∧ wanted = some r ∧ kafka = some k ∧ t.name = s.name ∧
      k.partitions.val < t.partitions.val := by
  cases made_of_make h with
  | merges s r k _ _ hgrown =>
    simp only [steps, preparations, List.mem_append, List.mem_ite_nil_right, List.mem_singleton,
      reduceCtorEq, and_false, or_false, false_or, Action.increaseKafkaPartitions.injEq] at ht
    obtain ⟨hne, rfl⟩ := ht
    have hval : k.partitions.val ≠ (merged s r k).partitions.val :=
      fun heq => hne (PartitionCount.ext heq)
    rw [← partitions_kafka_of_ne hne] at hgrown
    exact ⟨s, r, k, rfl, rfl, rfl, rfl, by omega⟩
  | _ => simp [overwriteWarning] at ht

/-- The brokers are asked to create a topic only if they hold none. -/
theorem of_createKafkaTopic_mem {stored wanted kafka : Option Topic} {t : Topic}
    (h : make managed stored wanted kafka = .ok p) (ht : .createKafkaTopic t ∈ p.actions) :
    kafka = none := by
  cases made_of_make h with
  | createsTopic r => rfl
  | _ => simp [overwriteWarning, steps, preparations] at ht

end TopicSync.Plan
