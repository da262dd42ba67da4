import TopicSync.Plan
import TopicSync.Proofs.Topic.DiffLaws

/-!
What the merge of two sides' edits is. It is refused exactly if both sides edit one field to
different ends. Otherwise each field of the result has the brokers' value if they edit it and the
resource's value if they do not, and the brokers are asked for just the fields in which they differ
from the result.
-/
namespace TopicSync

/-- What a difference leaves alone is not counted as growth, and what it sets is. -/
theorem TopicDiff.partitionDelta_eq {d : TopicDiff} {t : Topic}
    (h : ∀ c ∈ d.partitions, c.before = t.partitions) :
    d.partitionDelta = ((d.apply t).partitions.val : Int) - t.partitions.val := by
  cases hd : d.partitions with
  | none => simp [partitionDelta, apply, hd]
  | some c => simp [partitionDelta, apply, hd, h c hd]

namespace Plan

variable {stored resource kafka : Topic} {f : Field}

/-- The edits of both sides since the record was written. -/
def edits (stored resource kafka : Topic) : TopicDiff :=
  (TopicDiff.between stored kafka).merge (TopicDiff.between stored resource)

/-- The snapshot to which the edits of both sides lead. -/
def merged (stored resource kafka : Topic) : Topic :=
  { (edits stored resource kafka).apply stored with resourceName := resource.resourceName }

/-- Both sides edit the field, to different ends. -/
def Contested (stored resource kafka : Topic) (f : Field) : Prop :=
  kafka.Edits stored f ∧ resource.Edits stored f ∧ kafka.value f ≠ resource.value f

/-- The actions that bring the brokers and the resource to a snapshot, given what the brokers hold
already. -/
def preparations (kafka result : Topic) : List Action :=
  (if kafka.replicationFactor ≠ result.replicationFactor
    then [.changeReplicationFactor result] else []) ++
  [.updateResource result] ++
  (if kafka.config ≠ result.config then [.updateKafkaConfig result] else []) ++
  (if kafka.partitions ≠ result.partitions then [.increaseKafkaPartitions result] else [])

/-- The actions that bring all sides to a snapshot; the record is written last. -/
def steps (kafka result : Topic) : List Action :=
  preparations kafka result ++ [.updateStored result]

theorem mem_preparations {result : Topic} {a : Action} (h : a ∈ preparations kafka result) :
    a = .changeReplicationFactor result ∨ a = .updateResource result ∨
      a = .updateKafkaConfig result ∨ a = .increaseKafkaPartitions result := by
  simp only [preparations, List.mem_append, List.mem_ite_nil_right, List.mem_singleton] at h
  rcases h with ((⟨-, h⟩ | h) | ⟨-, h⟩) | ⟨-, h⟩
  · exact .inl h
  · exact .inr (.inl h)
  · exact .inr (.inr (.inl h))
  · exact .inr (.inr (.inr h))

theorem target?_edits (stored resource kafka : Topic) (f : Field) :
    (edits stored resource kafka).target? f =
      if kafka.Edits stored f then some (kafka.value f)
      else if resource.Edits stored f then some (resource.value f) else none := by
  rw [edits, TopicDiff.target?_merge, TopicDiff.target?_between, TopicDiff.target?_between]
  by_cases hk : kafka.Edits stored f <;> simp [hk]

theorem value_merged_eq_getD (stored resource kafka : Topic) (f : Field) :
    (merged stored resource kafka).value f =
      ((edits stored resource kafka).target? f).getD (stored.value f) := by
  rw [← TopicDiff.value_apply]
  cases f <;> rfl

theorem value_merged (stored resource kafka : Topic) (f : Field) :
    (merged stored resource kafka).value f =
      if kafka.Edits stored f then kafka.value f
      else if resource.Edits stored f then resource.value f else stored.value f := by
  rw [value_merged_eq_getD, target?_edits]
  by_cases hk : kafka.Edits stored f
  · simp [hk]
  · by_cases hr : resource.Edits stored f <;> simp [hk, hr]

/-- A field that the resource does not edit has one value there and in the record. -/
theorem value_merged_of_labels (hr : resource.labels.isSome) (stored kafka : Topic) (f : Field) :
    (merged stored resource kafka).value f =
      if kafka.Edits stored f then kafka.value f else resource.value f := by
  rw [value_merged]
  by_cases he : resource.value f = stored.value f <;> simp [Topic.edits_iff_of_labels hr, he]

theorem conflict?_eq_none_iff :
    (TopicDiff.between stored kafka).conflict? (TopicDiff.between stored resource) = none ↔
      ∀ f, ¬ Contested stored resource kafka f := by
  rw [← Option.not_isSome_iff_eq_none, TopicDiff.isSome_conflict?_between_iff, not_exists]
  exact Iff.rfl

theorem isEmpty_edits_iff :
    (edits stored resource kafka).isEmpty = true ↔
      ∀ f, ¬ kafka.Edits stored f ∧ ¬ resource.Edits stored f := by
  simp only [TopicDiff.isEmpty_iff, target?_edits]
  refine forall_congr' fun f => ?_
  by_cases hk : kafka.Edits stored f <;> by_cases hr : resource.Edits stored f <;> simp [hk, hr]

/-- In a field that nobody edits the brokers hold what the result has. -/
theorem value_kafka_eq_merged (hl : f.isLabel = false)
    (h : (edits stored resource kafka).target? f = none) :
    kafka.value f = (merged stored resource kafka).value f := by
  by_cases hk : kafka.Edits stored f
  · simp [value_merged, hk]
  · have hv : kafka.value f = stored.value f := by
      simpa [Topic.edits_iff_of_not_label hl] using hk
    rw [value_merged_eq_getD, h, hv]
    rfl

theorem changesReplicationFactor_of_ne
    (h : kafka.replicationFactor ≠ (merged stored resource kafka).replicationFactor) :
    (edits stored resource kafka).changesReplicationFactor = true := by
  cases he : (edits stored resource kafka).replicationFactor with
  | some c => simp [TopicDiff.changesReplicationFactor, he]
  | none =>
    have ht : (edits stored resource kafka).target? .replicationFactor = none := by
      simp [TopicDiff.target?, he]
    exact absurd (Topic.replicationFactor_eq_of_value (value_kafka_eq_merged rfl ht)) h

theorem changesConfig_of_ne (h : kafka.config ≠ (merged stored resource kafka).config) :
    (edits stored resource kafka).changesConfig = true := by
  cases he : (edits stored resource kafka).config.isEmpty with
  | false => simp [TopicDiff.changesConfig, he]
  | true =>
    refine absurd (Topic.config_eq_of_value fun k => value_kafka_eq_merged rfl ?_) h
    simp [TopicDiff.target?, TextMap.isEmpty_iff.1 he k]

theorem partitionDelta_edits (stored resource kafka : Topic) :
    (edits stored resource kafka).partitionDelta =
      ((merged stored resource kafka).partitions.val : Int) - stored.partitions.val := by
  refine TopicDiff.partitionDelta_eq fun c hc => ?_
  rcases Option.or_eq_some_iff.1 hc with hk | ⟨-, hr⟩
  · exact congrArg Change.before (eq_of_mem_changeOf hk)
  · exact congrArg Change.before (eq_of_mem_changeOf hr)

/-- Brokers that differ from the result in their partitions have not changed them. -/
theorem partitions_kafka_of_ne
    (h : kafka.partitions ≠ (merged stored resource kafka).partitions) :
    kafka.partitions = stored.partitions := by
  by_cases hk : kafka.Edits stored .partitions
  · have hv : (merged stored resource kafka).value .partitions = kafka.value .partitions := by
      simp [value_merged, hk]
    exact absurd (Topic.partitions_eq_of_value hv).symm h
  · rw [Topic.edits_iff_of_not_label rfl, ne_eq, Decidable.not_not] at hk
    exact Topic.partitions_eq_of_value hk

/-- The merge of edits that do not clash, in terms of the edits and their result. -/
theorem mergeActions_eq (hc : ∀ f, ¬ Contested stored resource kafka f) :
    mergeActions stored resource kafka =
      if (edits stored resource kafka).isEmpty = true then .ok []
      else if (edits stored resource kafka).partitionDelta < 0 then
        .error (.partitionDecrease stored.name.text stored.partitions.val
          (merged stored resource kafka).partitions.val)
      else .ok <|
        (if (edits stored resource kafka).changesReplicationFactor = true ∧
            kafka.replicationFactor ≠ (merged stored resource kafka).replicationFactor
          then [.changeReplicationFactor (merged stored resource kafka)] else []) ++
        [.updateResource (merged stored resource kafka)] ++
        (if (edits stored resource kafka).changesConfig = true ∧
            kafka.config ≠ (merged stored resource kafka).config
          then [.updateKafkaConfig (merged stored resource kafka)] else []) ++
        (if 0 < (edits stored resource kafka).partitionDelta ∧
            kafka.partitions.val < (merged stored resource kafka).partitions.val
          then [.increaseKafkaPartitions (merged stored resource kafka)] else []) ++
        [.updateStored (merged stored resource kafka)] := by
  rw [mergeActions, conflict?_eq_none_iff.2 hc]
  rfl

theorem mergeActions_of_contested (h : ∃ f, Contested stored resource kafka f) :
    ∃ changes,
      mergeActions stored resource kafka = .error (.conflict stored.name.text changes) := by
  cases hc : (TopicDiff.between stored kafka).conflict? (TopicDiff.between stored resource) with
  | none =>
    obtain ⟨f, hf⟩ := h
    exact absurd hf (conflict?_eq_none_iff.1 hc f)
  | some changes => exact ⟨changes, by simp [mergeActions, hc]⟩

theorem mergeActions_eq_conflict_iff :
    (∃ topic changes, mergeActions stored resource kafka = .error (.conflict topic changes)) ↔
      ∃ f, Contested stored resource kafka f := by
  constructor
  · rintro ⟨topic, changes, he⟩
    refine Classical.byContradiction fun hno => ?_
    rw [mergeActions_eq fun f hf => hno ⟨f, hf⟩] at he
    split at he
    · cases he
    · split at he <;> cases he
  · intro h
    obtain ⟨changes, he⟩ := mergeActions_of_contested h
    exact ⟨_, _, he⟩

/-- Sides that agree with the record have nothing to merge. -/
theorem mergeActions_of_not_edits
    (h : ∀ f, ¬ kafka.Edits stored f ∧ ¬ resource.Edits stored f) :
    mergeActions stored resource kafka = .ok [] := by
  rw [mergeActions_eq fun f hf => (h f).1 hf.1, if_pos (isEmpty_edits_iff.2 h)]

theorem mergeActions_of_decrease (hc : ∀ f, ¬ Contested stored resource kafka f)
    (hp : (merged stored resource kafka).partitions.val < stored.partitions.val) :
    mergeActions stored resource kafka =
      .error (.partitionDecrease stored.name.text stored.partitions.val
        (merged stored resource kafka).partitions.val) := by
  have hdelta := partitionDelta_edits stored resource kafka
  have hempty : (edits stored resource kafka).isEmpty ≠ true := by
    intro h
    have hv : (merged stored resource kafka).value .partitions = stored.value .partitions := by
      rw [value_merged_eq_getD, TopicDiff.isEmpty_iff.1 h]
      rfl
    rw [Topic.partitions_eq_of_value hv] at hp
    exact Nat.lt_irrefl _ hp
  rw [mergeActions_eq hc, if_neg hempty, if_pos (by omega)]

/-- Edits that do not clash and take no partitions away are carried to all sides. -/
theorem mergeActions_of_edits (hc : ∀ f, ¬ Contested stored resource kafka f)
    (he : ∃ f, kafka.Edits stored f ∨ resource.Edits stored f)
    (hp : stored.partitions.val ≤ (merged stored resource kafka).partitions.val) :
    mergeActions stored resource kafka = .ok (steps kafka (merged stored resource kafka)) := by
  have hdelta := partitionDelta_edits stored resource kafka
  have hempty : (edits stored resource kafka).isEmpty ≠ true := by
    intro h
    obtain ⟨f, hf⟩ := he
    have hnone := isEmpty_edits_iff.1 h f
    exact hf.elim hnone.1 hnone.2
  have hfactor : ((edits stored resource kafka).changesReplicationFactor = true ∧
      kafka.replicationFactor ≠ (merged stored resource kafka).replicationFactor) ↔
      kafka.replicationFactor ≠ (merged stored resource kafka).replicationFactor :=
    and_iff_right_of_imp changesReplicationFactor_of_ne
  have hconfig : ((edits stored resource kafka).changesConfig = true ∧
      kafka.config ≠ (merged stored resource kafka).config) ↔
      kafka.config ≠ (merged stored resource kafka).config :=
    and_iff_right_of_imp changesConfig_of_ne
  -- Brokers that lag behind still hold the record's count, so that a difference is growth.
  have hgrow : (0 < (edits stored resource kafka).partitionDelta ∧
      kafka.partitions.val < (merged stored resource kafka).partitions.val) ↔
      kafka.partitions ≠ (merged stored resource kafka).partitions := by
    constructor
    · rintro ⟨-, hlt⟩ heq
      rw [heq] at hlt
      exact Nat.lt_irrefl _ hlt
    · intro hne
      have hs := partitions_kafka_of_ne hne
      have hval : kafka.partitions.val ≠ (merged stored resource kafka).partitions.val :=
        fun h => hne (PartitionCount.ext h)
      rw [hs] at hval ⊢
      omega
  rw [mergeActions_eq hc, if_neg hempty, if_neg (by omega)]
  simp only [hfactor, hconfig, hgrow, steps, preparations]

/-- What becomes of edits that do not clash. -/
theorem mergeActions_cases (hc : ∀ f, ¬ Contested stored resource kafka f) :
    ((∀ f, ¬ kafka.Edits stored f ∧ ¬ resource.Edits stored f) ∧
      mergeActions stored resource kafka = .ok []) ∨
    ((∃ f, kafka.Edits stored f ∨ resource.Edits stored f) ∧
      (((merged stored resource kafka).partitions.val < stored.partitions.val ∧
          mergeActions stored resource kafka =
            .error (.partitionDecrease stored.name.text stored.partitions.val
              (merged stored resource kafka).partitions.val)) ∨
        (stored.partitions.val ≤ (merged stored resource kafka).partitions.val ∧
          mergeActions stored resource kafka =
            .ok (steps kafka (merged stored resource kafka))))) := by
  by_cases he : ∃ f, kafka.Edits stored f ∨ resource.Edits stored f
  · refine .inr ⟨he, ?_⟩
    by_cases hp : (merged stored resource kafka).partitions.val < stored.partitions.val
    · exact .inl ⟨hp, mergeActions_of_decrease hc hp⟩
    · exact .inr ⟨Nat.le_of_not_lt hp, mergeActions_of_edits hc he (Nat.le_of_not_lt hp)⟩
  · have hno : ∀ f, ¬ kafka.Edits stored f ∧ ¬ resource.Edits stored f := by
      simpa using he
    exact .inl ⟨hno, mergeActions_of_not_edits hno⟩

/-- A merge that goes through is one without a conflict, which does nothing or takes all steps. -/
theorem mergeActions_eq_ok {actions : List Action}
    (h : mergeActions stored resource kafka = .ok actions) :
    (∀ f, ¬ Contested stored resource kafka f) ∧
      (((∀ f, ¬ kafka.Edits stored f ∧ ¬ resource.Edits stored f) ∧ actions = []) ∨
        ((∃ f, kafka.Edits stored f ∨ resource.Edits stored f) ∧
          stored.partitions.val ≤ (merged stored resource kafka).partitions.val ∧
          actions = steps kafka (merged stored resource kafka))) := by
  have hc : ∀ f, ¬ Contested stored resource kafka f := by
    intro f hf
    obtain ⟨changes, he⟩ := mergeActions_of_contested ⟨f, hf⟩
    rw [h] at he
    cases he
  refine ⟨hc, ?_⟩
  rcases mergeActions_cases hc with ⟨hno, he⟩ | ⟨hex, ⟨-, he⟩ | ⟨hp, he⟩⟩
  · exact .inl ⟨hno, Except.ok.inj (h.symm.trans he)⟩
  · rw [h] at he
    cases he
  · exact .inr ⟨hex, hp, Except.ok.inj (h.symm.trans he)⟩

/-- The result of a merge: what the brokers edited, and the resource's own values elsewhere. -/
structure MergeOf (stored resource kafka result : Topic) : Prop where
  name : result.name = stored.name
  resourceName : result.resourceName = resource.resourceName
  edited : ∀ f, f.isLabel = false → kafka.value f ≠ stored.value f → result.value f = kafka.value f
  kept : ∀ f, f.isLabel = false → kafka.value f = stored.value f →
    result.value f = resource.value f
  labels : result.labelsOrEmpty = resource.labelsOrEmpty

theorem mergeOf_merged (hk : kafka.labels = none) (hr : resource.labels.isSome) :
    MergeOf stored resource kafka (merged stored resource kafka) where
  name := rfl
  resourceName := rfl
  edited f hl hne := by
    rw [value_merged, if_pos ((Topic.edits_iff_of_not_label hl).2 hne)]
  kept f hl heq := by
    have hnot : ¬ kafka.Edits stored f := by simp [Topic.edits_iff_of_not_label hl, heq]
    rw [value_merged_of_labels hr, if_neg hnot]
  labels := by
    refine TextMap.ext fun k => FieldValue.entry.inj ?_
    have hv := value_merged_of_labels hr stored kafka (.label k)
    rw [if_neg (Topic.not_edits_label hk k)] at hv
    exact hv

/-- Neither side differs from the record; brokers know no labels that could. -/
def Untouched (stored resource kafka : Topic) : Prop :=
  (∀ f, f.isLabel = false → kafka.value f = stored.value f) ∧
    ∀ f, resource.value f = stored.value f

theorem untouched_iff (hk : kafka.labels = none) (hr : resource.labels.isSome) :
    Untouched stored resource kafka ↔
      ∀ f, ¬ kafka.Edits stored f ∧ ¬ resource.Edits stored f := by
  constructor
  · rintro ⟨h, h'⟩ f
    refine ⟨fun he => ?_, fun he => he.2 (h' f)⟩
    cases f with
    | label k => exact Topic.not_edits_label hk k he
    | _ => exact he.2 (h _ rfl)
  · intro h
    constructor
    · intro f hl
      simpa [Topic.edits_iff_of_not_label hl] using (h f).1
    · intro f
      simpa [Topic.edits_iff_of_labels hr] using (h f).2

theorem exists_contested_iff (hk : kafka.labels = none) :
    (∃ f, Contested stored resource kafka f) ↔
      ∃ f, f.isLabel = false ∧ kafka.value f ≠ stored.value f ∧
        resource.value f ≠ stored.value f ∧ kafka.value f ≠ resource.value f := by
  constructor
  · rintro ⟨f, hf⟩
    have hl : f.isLabel = false := by
      cases f with
      | label k => exact absurd hf.1 (Topic.not_edits_label hk k)
      | _ => rfl
    exact ⟨f, hl, hf.1.2, hf.2.1.2, hf.2.2⟩
  · rintro ⟨f, hl, hkf, hrf, hne⟩
    exact ⟨f, (Topic.edits_iff_of_not_label hl).2 hkf, (Topic.edits_iff_of_not_label hl).2 hrf, hne⟩

/-- Merging a record, a resource with labels and brokers without them. It ends in a conflict just
if both sides changed a field other than a label, to different ends. Else nothing is done if no
side differs from the record, and otherwise one snapshot is carried to all sides, unless it has
fewer partitions than the record. -/
theorem mergeActions_exact (stored resource kafka : Topic) (hk : kafka.labels = none)
    (hr : resource.labels.isSome) :
    ((∃ topic changes, mergeActions stored resource kafka = .error (.conflict topic changes)) ↔
      ∃ f, f.isLabel = false ∧ kafka.value f ≠ stored.value f ∧
        resource.value f ≠ stored.value f ∧ kafka.value f ≠ resource.value f) ∧
    ((∀ topic changes, mergeActions stored resource kafka ≠ .error (.conflict topic changes)) →
      (Untouched stored resource kafka ∧ mergeActions stored resource kafka = .ok []) ∨
      (¬ Untouched stored resource kafka ∧ ∃ result, MergeOf stored resource kafka result ∧
        ((result.partitions.val < stored.partitions.val ∧
            mergeActions stored resource kafka =
              .error (.partitionDecrease stored.name.text stored.partitions.val
                result.partitions.val)) ∨
          (stored.partitions.val ≤ result.partitions.val ∧
            mergeActions stored resource kafka = .ok (steps kafka result))))) := by
  refine ⟨mergeActions_eq_conflict_iff.trans (exists_contested_iff hk), fun hno => ?_⟩
  have hc : ∀ f, ¬ Contested stored resource kafka f := by
    intro f hf
    obtain ⟨topic, changes, he⟩ := mergeActions_eq_conflict_iff.2 ⟨f, hf⟩
    exact hno topic changes he
  rcases mergeActions_cases hc with ⟨hno, he⟩ | ⟨⟨f, hf⟩, he⟩
  · exact .inl ⟨(untouched_iff hk hr).2 hno, he⟩
  · have hu : ¬ Untouched stored resource kafka := by
      intro hu
      have hno := (untouched_iff hk hr).1 hu f
      exact hf.elim hno.1 hno.2
    exact .inr ⟨hu, merged stored resource kafka, mergeOf_merged hk hr, he⟩

/-- A snapshot of the topic `orders`, whose resource has the same name. -/
def ordersTopic (partitions : PartitionCount) (factor : ReplicationFactor)
    (config : List (String × String)) (labels : Option (TextMap String)) : Topic :=
  ⟨⟨"orders", by decide⟩, ⟨"orders"⟩, partitions, factor, .ofList config, labels⟩

def ordersStored : Topic :=
  ordersTopic ⟨3, by decide, by decide⟩ ⟨1, by decide, by decide⟩ [("a", "1")]
    (some Selector.managed.labels)

/-- The resource asks for more partitions and replicas, and for an entry. -/
def ordersResource : Topic :=
  ordersTopic ⟨4, by decide, by decide⟩ ⟨2, by decide, by decide⟩ [("a", "1"), ("b", "2")]
    (some Selector.managed.labels)

/-- The brokers have been given another entry. -/
def ordersKafka : Topic :=
  ordersTopic ⟨3, by decide, by decide⟩ ⟨1, by decide, by decide⟩ [("a", "1"), ("c", "3")] none

theorem mergeActions_exact_disjoint_edits :
    ordersKafka.labels = none ∧ ordersResource.labels.isSome ∧
      ∃ result, MergeOf ordersStored ordersResource ordersKafka result ∧
        mergeActions ordersStored ordersResource ordersKafka =
          .ok (steps ordersKafka result) := by
  refine ⟨rfl, rfl, ?_⟩
  have hok : ∃ actions, mergeActions ordersStored ordersResource ordersKafka = .ok actions :=
    ⟨_, rfl⟩
  obtain ⟨actions, ha⟩ := hok
  have hex := (mergeActions_exact ordersStored ordersResource ordersKafka rfl rfl).2
    fun _ _ he => by simp [ha] at he
  rcases hex with ⟨hu, -⟩ | ⟨-, result, hm, ⟨-, he⟩ | ⟨-, he⟩⟩
  · exact absurd (hu.2 .partitions) (by decide)
  · simp [ha] at he
  · exact ⟨result, hm, he⟩

end Plan

end TopicSync
