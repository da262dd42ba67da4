import TopicSync.Proofs.Plan.Sides

/-!
Plans lead to agreement, whether they are carried out at once or with failures in between. After a
plan nothing is left to do. A plan that breaks off leaves sides from which the next plan leads to
the same end: of a merge each side holds, in every field, what the record says or what the result
says, so that the second merge meets no conflict and has the same result.
-/
namespace TopicSync

theorem TopicDiff.labels_between_congr {base a b : Topic} (h : a.labels = b.labels) :
    (between base a).labels = (between base b).labels := by
  rw [between, between, h]

namespace Plan

variable {stored resource kafka result : Topic}

/-- On the way to a result every side has, in each field, the record's value or the result's, and
one of them has the result's. -/
structure Approaches (stored resource kafka result : Topic) : Prop where
  ofKafka : ∀ f, f.isLabel = false →
    kafka.value f = stored.value f ∨ kafka.value f = result.value f
  ofResource : ∀ f, resource.value f = stored.value f ∨ resource.value f = result.value f
  either : ∀ f, resource.value f = result.value f ∨
    (f.isLabel = false ∧ kafka.value f = result.value f)

theorem approaches_merged (hc : ∀ f, ¬ Contested stored resource kafka f)
    (hr : resource.labels.isSome) (hk : kafka.labels = none) :
    Approaches stored resource kafka (merged stored resource kafka) where
  ofKafka f hl := by
    by_cases hkf : kafka.Edits stored f
    · exact .inr (by simp [value_merged, hkf])
    · exact .inl (by simpa [Topic.edits_iff_of_not_label hl] using hkf)
  ofResource f := by
    by_cases hkf : kafka.Edits stored f
    · by_cases hrf : resource.Edits stored f
      · have heq : kafka.value f = resource.value f :=
          Decidable.byContradiction fun hne => hc f ⟨hkf, hrf, hne⟩
        exact .inr (by simp [value_merged, hkf, heq])
      · exact .inl (by simpa [Topic.edits_iff_of_labels hr] using hrf)
    · exact .inr (by simp [value_merged_of_labels hr, hkf])
  either f := by
    by_cases hkf : kafka.Edits stored f
    · have hl : f.isLabel = false := by
        cases f with
        | label k => exact absurd hkf (Topic.not_edits_label hk k)
        | _ => rfl
      exact .inr ⟨hl, by simp [value_merged, hkf]⟩
    · exact .inl (by simp [value_merged_of_labels hr, hkf])

namespace Approaches

variable (h : Approaches stored resource kafka result)
include h

theorem kafka_eq_of_edits (hk : kafka.labels = none) {f : Field} (he : kafka.Edits stored f) :
    kafka.value f = result.value f := by
  cases f with
  | label k => exact absurd he (Topic.not_edits_label hk k)
  | _ => exact (h.ofKafka _ rfl).resolve_left he.2

theorem resource_eq_of_edits {f : Field} (he : resource.Edits stored f) :
    resource.value f = result.value f :=
  (h.ofResource f).resolve_left he.2

theorem not_contested (hk : kafka.labels = none) (f : Field) :
    ¬ Contested stored resource kafka f := by
  rintro ⟨hkf, hrf, hne⟩
  exact hne ((h.kafka_eq_of_edits hk hkf).trans (h.resource_eq_of_edits hrf).symm)

/-- Merging on the way to a result yields that result. -/
theorem value_merged_eq (hr : resource.labels.isSome) (hk : kafka.labels = none) (f : Field) :
    (merged stored resource kafka).value f = result.value f := by
  rw [value_merged_of_labels hr]
  by_cases hkf : kafka.Edits stored f
  · rw [if_pos hkf, h.kafka_eq_of_edits hk hkf]
  · rw [if_neg hkf]
    rcases h.either f with hrf | ⟨hl, hkr⟩
    · exact hrf
    · -- The result leaves the field as it was recorded, and so does the resource.
      have hks : kafka.value f = stored.value f := by
        simpa [Topic.edits_iff_of_not_label hl] using hkf
      rcases h.ofResource f with hrs | hrf
      · rw [hrs, ← hks, hkr]
      · exact hrf

theorem merged_eq (hr : resource.labels.isSome) (hk : kafka.labels = none)
    (hl : (merged stored resource kafka).labels = result.labels)
    (hn : stored.name = result.name) (hrn : resource.resourceName = result.resourceName) :
    merged stored resource kafka = result :=
  Topic.eq_of_value hn hrn hl fun f _ => h.value_merged_eq hr hk f

/-- As long as the record is not written, some side shows that there is something to merge. -/
theorem exists_edits (hr : resource.labels.isSome) {f : Field}
    (hne : result.value f ≠ stored.value f) :
    kafka.Edits stored f ∨ resource.Edits stored f := by
  rcases h.either f with hrf | ⟨hl, hkf⟩
  · exact .inr ((Topic.edits_iff_of_labels hr f).2 (hrf ▸ hne))
  · exact .inl ((Topic.edits_iff_of_not_label hl).2 (hkf ▸ hne))

end Approaches

/-- Which labels a result knows depends on nothing but the labels of the sides. -/
theorem labels_merged_congr {resource' kafka' : Topic} (hr : resource'.labels = resource.labels)
    (hk : kafka'.labels = kafka.labels) :
    (merged stored resource' kafka').labels = (merged stored resource kafka).labels := by
  have he : (edits stored resource' kafka').labels = (edits stored resource kafka).labels := by
    simp only [edits, TopicDiff.merge, TopicDiff.labels_between_congr hr,
      TopicDiff.labels_between_congr hk]
  unfold merged TopicDiff.apply
  rw [he]

end Plan

namespace Sides

variable {managed : Selector} {s : Sides} {stored resource kafka result : Topic}

/-- The sides once a result has been carried to all of them. -/
def reached (s : Sides) (result : Topic) : Sides :=
  ((s.setResource result
      (result.labels.getD (s.resource.elim .empty Topic.labelsOrEmpty))).changeKafka
    (·.reshape result) fun _ => rfl).setStored (some result)

@[simp] theorem resource_reached (s : Sides) (result : Topic) :
    (s.reached result).resource =
      some { result with
        labels := some (result.labels.getD (s.resource.elim .empty Topic.labelsOrEmpty)) } := rfl

@[simp] theorem kafka_reached (s : Sides) (result : Topic) :
    (s.reached result).kafka = s.kafka.map (·.reshape result) := rfl

/-- It does not matter if an action is left out that would change nothing. -/
theorem carryOutAll_ite {c : Prop} [Decidable c] {a : Action} (h : ¬ c → s.carryOut a = s) :
    s.carryOutAll (if c then [a] else []) = s.carryOut a := by
  by_cases hc : c
  · rw [if_pos hc]
    rfl
  · rw [if_neg hc, h hc]
    rfl

theorem changeKafka_of_eq {f : Topic → Topic} (hf : ∀ t, (f t).labels = t.labels)
    (hk : s.kafka = some kafka) (h : f kafka = kafka) : s.changeKafka f hf = s := by
  apply Sides.ext
  · rfl
  · rfl
  · simp [changeKafka, hk, h]

theorem carryOut_changeReplicationFactor_of_eq (hk : s.kafka = some kafka)
    (h : kafka.replicationFactor = result.replicationFactor) :
    s.carryOut (.changeReplicationFactor result) = s :=
  changeKafka_of_eq (by intro t; rfl) hk (by rw [← h])

theorem carryOut_updateKafkaConfig_of_eq (hk : s.kafka = some kafka)
    (h : kafka.config = result.config) : s.carryOut (.updateKafkaConfig result) = s :=
  changeKafka_of_eq (by intro t; rfl) hk (by rw [← h])

theorem carryOut_increaseKafkaPartitions_of_eq (hk : s.kafka = some kafka)
    (h : kafka.partitions = result.partitions) :
    s.carryOut (.increaseKafkaPartitions result) = s :=
  changeKafka_of_eq (by intro t; rfl) hk (by rw [← h])

theorem carryOutAll_steps (hk : s.kafka = some kafka) (result : Topic) :
    s.carryOutAll (Plan.steps kafka result) = s.reached result := by
  let factored := s.carryOut (.changeReplicationFactor result)
  let updated := factored.carryOut (.updateResource result)
  let configured := updated.carryOut (.updateKafkaConfig result)
  have hku : updated.kafka =
      some { kafka with replicationFactor := result.replicationFactor } := by
    simp [updated, factored, carryOut, changeKafka, setResource, hk]
  have hkc : configured.kafka =
      some { kafka with
        replicationFactor := result.replicationFactor, config := result.config } := by
    simp [configured, carryOut, changeKafka, hku]
  have hfactor : s.carryOutAll (if kafka.replicationFactor ≠ result.replicationFactor
      then [.changeReplicationFactor result] else []) = factored :=
    carryOutAll_ite fun h => carryOut_changeReplicationFactor_of_eq hk (Decidable.not_not.1 h)
  have hconfig : updated.carryOutAll (if kafka.config ≠ result.config
      then [.updateKafkaConfig result] else []) = configured :=
    carryOutAll_ite fun h => carryOut_updateKafkaConfig_of_eq hku (Decidable.not_not.1 h)
  have hgrow : configured.carryOutAll (if kafka.partitions ≠ result.partitions
      then [.increaseKafkaPartitions result] else []) =
        configured.carryOut (.increaseKafkaPartitions result) :=
    carryOutAll_ite fun h => carryOut_increaseKafkaPartitions_of_eq hkc (Decidable.not_not.1 h)
  simp only [Plan.steps, Plan.preparations, carryOutAll_append, hfactor]
  change ((updated.carryOutAll _).carryOutAll _).carryOutAll _ = _
  rw [hconfig, hgrow]
  apply Sides.ext
  · rfl
  · rfl
  · simp [carryOut, setStored, changeKafka, hkc, hk, Topic.reshape]

/-- A resource that is written keeps its labels or gets those of the snapshot, which are the same
if the snapshot is a result. -/
theorem value_written {l : TextMap String} (h : result.labelsOrEmpty = l) (f : Field) :
    { result with labels := some (result.labels.getD l) : Topic }.value f = result.value f := by
  subst h
  cases f with
  | label k => cases hl : result.labels <;> simp [Topic.value, Topic.labelsOrEmpty, hl]
  | _ => rfl

theorem labels_written (hr : resource.labels.isSome)
    (h : result.labelsOrEmpty = resource.labelsOrEmpty) :
    some (result.labels.getD resource.labelsOrEmpty) = resource.labels := by
  obtain ⟨l, hl⟩ := Option.isSome_iff_exists.1 hr
  cases hm : result.labels with
  | none => simp [Topic.labelsOrEmpty, hl]
  | some m => simpa [Topic.labelsOrEmpty, hl, hm] using h

/-- Sides on the way to a result, with the record not written yet. Merging anew yields the same
result. -/
structure Underway (stored result : Topic) (s : Sides) : Prop where
  record : s.stored = some stored
  changes : ∃ f, result.value f ≠ stored.value f
  grows : stored.partitions.val ≤ result.partitions.val
  approach : ∃ resource kafka, s.resource = some resource ∧ s.kafka = some kafka ∧
    Plan.Approaches stored resource kafka result ∧ Plan.merged stored resource kafka = result

namespace Underway

/-- The brokers may take over any of the result's fields. -/
theorem changeKafka (h : Underway stored result s) {f : Topic → Topic}
    (hf : ∀ t, (f t).labels = t.labels)
    (hv : ∀ t g, (f t).value g = t.value g ∨ (f t).value g = result.value g) :
    Underway stored result (s.changeKafka f hf) := by
  obtain ⟨record, changes, grows, resource, kafka, hr, hk, happ, rfl⟩ := h
  have hlr := s.labelled resource hr
  have hlk := (hf kafka).trans (s.unlabelled kafka hk)
  have happ' : Plan.Approaches stored resource (f kafka) (Plan.merged stored resource kafka) :=
    { ofKafka := by
        intro g hl
        rcases hv kafka g with hg | hg
        · exact hg ▸ happ.ofKafka g hl
        · exact .inr hg
      ofResource := happ.ofResource
      either := by
        intro g
        rcases happ.either g with hg | ⟨hl, hg⟩
        · exact .inl hg
        · exact .inr ⟨hl, (hv kafka g).elim (·.trans hg) id⟩ }
  refine ⟨record, changes, grows, resource, f kafka, hr, ?_, happ', ?_⟩
  · simp [Sides.changeKafka, hk]
  · exact happ'.merged_eq hlr hlk (Plan.labels_merged_congr rfl (hf kafka)) rfl rfl

theorem updateResource (h : Underway stored result s) :
    Underway stored result (s.carryOut (.updateResource result)) := by
  obtain ⟨record, changes, grows, resource, kafka, hr, hk, happ, rfl⟩ := h
  have hlr := s.labelled resource hr
  have hlk := s.unlabelled kafka hk
  have hmerge : Plan.MergeOf stored resource kafka (Plan.merged stored resource kafka) :=
    Plan.mergeOf_merged hlk hlr
  have hvalue := value_written hmerge.labels
  have hlabels := labels_written hlr hmerge.labels
  have happ' : Plan.Approaches stored _ kafka (Plan.merged stored resource kafka) :=
    { ofKafka := happ.ofKafka
      ofResource := fun f => .inr (hvalue f)
      either := fun f => .inl (hvalue f) }
  refine ⟨record, changes, grows, _, kafka, ?_, hk, happ', ?_⟩
  · simp [Sides.carryOut, Sides.setResource, hr]
  · exact happ'.merged_eq rfl hlk (Plan.labels_merged_congr hlabels rfl) rfl rfl

theorem carryOut (h : Underway stored result s) {a : Action}
    (ha : a ∈ Plan.preparations kafka result) : Underway stored result (s.carryOut a) := by
  rcases Plan.mem_preparations ha with rfl | rfl | rfl | rfl
  · refine h.changeKafka (by intro t; rfl) fun t g => ?_
    cases g with
    | replicationFactor => exact .inr rfl
    | _ => exact .inl rfl
  · exact h.updateResource
  · refine h.changeKafka (by intro t; rfl) fun t g => ?_
    cases g with
    | config k => exact .inr rfl
    | _ => exact .inl rfl
  · refine h.changeKafka (by intro t; rfl) fun t g => ?_
    cases g with
    | partitions => exact .inr rfl
    | _ => exact .inl rfl

theorem carryOutAll (h : Underway stored result s) {done : List Action}
    (hd : ∀ a ∈ done, a ∈ Plan.preparations kafka result) :
    Underway stored result (s.carryOutAll done) := by
  induction done generalizing s with
  | nil => exact h
  | cons a done ih =>
    exact ih (h.carryOut (hd a (.head _))) fun b hb => hd b (.tail _ hb)

end Underway

theorem reached_changeKafka {f : Topic → Topic} (hf : ∀ t, (f t).labels = t.labels)
    (h : ∀ t, (f t).reshape result = t.reshape result) :
    (s.changeKafka f hf).reached result = s.reached result := by
  apply Sides.ext
  · rfl
  · rfl
  · simp [reached, changeKafka, setResource, setStored, Function.comp_def, h]

/-- What is carried over again on the way to a result does not change where the way ends. -/
theorem reached_carryOut {a : Action} (ha : a ∈ Plan.preparations kafka result) :
    (s.carryOut a).reached result = s.reached result := by
  rcases Plan.mem_preparations ha with rfl | rfl | rfl | rfl
  · exact reached_changeKafka (by intro t; rfl) (by intro t; rfl)
  · apply Sides.ext
    · rfl
    · cases hl : result.labels <;>
        simp [carryOut, reached, changeKafka, setResource, setStored, Topic.labelsOrEmpty, hl]
    · rfl
  · exact reached_changeKafka (by intro t; rfl) (by intro t; rfl)
  · exact reached_changeKafka (by intro t; rfl) (by intro t; rfl)

theorem reached_carryOutAll {done : List Action}
    (hd : ∀ a ∈ done, a ∈ Plan.preparations kafka result) :
    (s.carryOutAll done).reached result = s.reached result := by
  induction done generalizing s with
  | nil => rfl
  | cons a done ih =>
    rw [carryOutAll_cons, ih fun b hb => hd b (.tail _ hb), reached_carryOut (hd a (.head _))]

/-- The topic is gone from all sides, or all of them have it and agree. -/
inductive Agreed (s : Sides) : Prop where
  | gone (hs : s.stored = none) (hr : s.resource = none) (hk : s.kafka = none)
  | present (stored resource kafka : Topic) (hs : s.stored = some stored)
      (hr : s.resource = some resource) (hk : s.kafka = some kafka)
      (shape : kafka.SameShape stored) (same : ∀ f, resource.value f = stored.value f)

/-- Planning from one state of the sides ends in another. -/
def LeadsTo (managed : Selector) (s t : Sides) : Prop :=
  ∃ p, s.plan managed = .ok p ∧ s.carryOutAll p.actions = t

/-- Wherever the actions break off, planning anew ends in the same state. -/
def Resumes (managed : Selector) (s : Sides) (actions : List Action) (t : Sides) : Prop :=
  ∀ done, done <+: actions → LeadsTo managed (s.carryOutAll done) t

variable {a : Action} {as : List Action} {p : Plan}

theorem Agreed.plan_eq (h : Agreed s) (managed : Selector) :
    ∃ d, s.plan managed = .ok ⟨d, []⟩ := by
  cases h with
  | gone hs hr hk => exact ⟨.nothing, by rw [plan, hs, hr, hk]; rfl⟩
  | present stored resource kafka hs hr hk shape same =>
    refine ⟨.merge, ?_⟩
    rw [plan, hs, hr, hk]
    exact Plan.make_of_agreement (s.unlabelled kafka hk) shape same

/-- A plan brings the sides to agreement, at once or after it broke off. -/
structure Settles (managed : Selector) (s : Sides) (actions : List Action) : Prop where
  agreed : Agreed (s.carryOutAll actions)
  resumes : Resumes managed s actions (s.carryOutAll actions)

theorem Agreed.settles (h : Agreed s) : Settles managed s [] where
  agreed := h
  resumes := by
    intro done hd
    obtain ⟨d, hp⟩ := h.plan_eq managed
    rw [List.prefix_nil.1 hd]
    exact ⟨_, hp, rfl⟩

theorem settles_cons (h : LeadsTo managed s (s.carryOutAll (a :: as)))
    (hr : Settles managed (s.carryOut a) as) : Settles managed s (a :: as) where
  agreed := hr.agreed
  resumes := by
    intro done hd
    rcases List.prefix_cons_iff.1 hd with rfl | ⟨done', rfl, hd'⟩
    · exact h
    · exact hr.resumes done' hd'

namespace Underway

theorem plan_eq (h : Underway stored result s) (managed : Selector) :
    ∃ kafka, s.kafka = some kafka ∧ s.plan managed = .ok ⟨.merge, Plan.steps kafka result⟩ := by
  obtain ⟨record, ⟨f, hf⟩, grows, resource, kafka, hr, hk, happ, rfl⟩ := h
  have hlr := s.labelled resource hr
  have hlk := s.unlabelled kafka hk
  have ha := Plan.mergeActions_of_edits (happ.not_contested hlk) ⟨f, happ.exists_edits hlr hf⟩ grows
  refine ⟨kafka, hk, ?_⟩
  rw [plan, record, hr, hk]
  simp [Plan.make, ha]

theorem leadsTo (h : Underway stored result s) (managed : Selector) :
    LeadsTo managed s (s.reached result) := by
  obtain ⟨kafka, hk, hp⟩ := h.plan_eq managed
  exact ⟨_, hp, carryOutAll_steps hk result⟩

theorem agreed_reached (h : Underway stored result s) : Agreed (s.reached result) := by
  obtain ⟨-, -, -, resource, kafka, hr, hk, -, rfl⟩ := h
  have hmerge : Plan.MergeOf stored resource kafka (Plan.merged stored resource kafka) :=
    Plan.mergeOf_merged (s.unlabelled kafka hk) (s.labelled resource hr)
  have hr' := s.resource_reached (Plan.merged stored resource kafka)
  have hk' := s.kafka_reached (Plan.merged stored resource kafka)
  rw [hr] at hr'
  rw [hk] at hk'
  exact .present _ _ _ rfl hr' hk' (kafka.sameShape_reshape _) (value_written hmerge.labels)

/-- Whichever steps were taken already, the remaining way ends where the whole one does. -/
theorem settles (h : Underway stored result s) (hk : s.kafka = some kafka) :
    Settles managed s (Plan.steps kafka result) := by
  have hend := carryOutAll_steps hk result
  refine ⟨hend ▸ h.agreed_reached, fun done hd => ?_⟩
  rw [hend]
  rcases List.prefix_concat_iff.1 hd with rfl | hd
  · change LeadsTo managed (s.carryOutAll (Plan.steps kafka result)) _
    rw [hend]
    exact h.agreed_reached.settles.resumes [] List.nil_prefix
  · have hmem : ∀ a ∈ done, a ∈ Plan.preparations kafka result := fun a ha => hd.subset ha
    rw [← reached_carryOutAll hmem]
    exact (h.carryOutAll hmem).leadsTo managed

end Underway

/-- With no step taken the sides are on the way to what their edits lead to. -/
theorem underway_merged (hs : s.stored = some stored) (hr : s.resource = some resource)
    (hk : s.kafka = some kafka) (hc : ∀ f, ¬ Plan.Contested stored resource kafka f)
    (he : ∃ f, kafka.Edits stored f ∨ resource.Edits stored f)
    (grows : stored.partitions.val ≤ (Plan.merged stored resource kafka).partitions.val) :
    Underway stored (Plan.merged stored resource kafka) s := by
  have hlk := s.unlabelled kafka hk
  have happ := Plan.approaches_merged hc (s.labelled resource hr) hlk
  obtain ⟨f, hf⟩ := he
  have changes : (Plan.merged stored resource kafka).value f ≠ stored.value f := by
    rcases hf with hf | hf
    · exact happ.kafka_eq_of_edits hlk hf ▸ hf.2
    · exact happ.resource_eq_of_edits hf ▸ hf.2
  exact ⟨hs, ⟨f, changes⟩, grows, resource, kafka, hr, hk, happ, rfl⟩

/-- A resource and brokers in agreement settle on the resource as the record. -/
theorem plan_eq_record {t : Topic} (hs : s.stored = none) (hr : s.resource = some t)
    (hk : s.kafka = some kafka) (shape : kafka.SameShape t) :
    s.plan managed = .ok ⟨.recordConverged, [.createStored t]⟩ := by
  rw [plan, hs, hr, hk]
  exact Plan.make_of_sameShape (s.unlabelled kafka hk) shape

theorem settles_record {t : Topic} (hs : s.stored = none) (hr : s.resource = some t)
    (hk : s.kafka = some kafka) (shape : kafka.SameShape t) :
    Settles managed s [.createStored t] := by
  have hg : Agreed (s.carryOut (.createStored t)) :=
    .present t t kafka rfl hr hk shape fun _ => rfl
  exact settles_cons ⟨_, plan_eq_record hs hr hk shape, rfl⟩ hg.settles

theorem settles_merge {actions : List Action} (hs : s.stored = some stored)
    (hr : s.resource = some resource) (hk : s.kafka = some kafka)
    (h : Plan.mergeActions stored resource kafka = .ok actions) : Settles managed s actions := by
  obtain ⟨hc, ⟨hno, rfl⟩ | ⟨he, grows, rfl⟩⟩ := Plan.mergeActions_eq_ok h
  · have shape := Topic.sameShape_of_not_edits fun f => (hno f).1
    have same : ∀ f, resource.value f = stored.value f := by
      intro f
      simpa [Topic.edits_iff_of_labels (s.labelled resource hr)] using (hno f).2
    exact (Agreed.present stored resource kafka hs hr hk shape same).settles
  · exact (underway_merged hs hr hk hc he grows).settles hk

/-- Brokers win over an unrecorded resource. The resource is rewritten, a warning changes nothing,
and only the record is left to write. -/
theorem settles_unrecorded (hs : s.stored = none) (hr : s.resource = some resource)
    (hk : s.kafka = some kafka) (h : s.plan managed = .ok p) : Settles managed s p.actions := by
  have hp := h
  rw [plan, hs, hr, hk, Plan.make] at hp
  by_cases he : (TopicDiff.between resource kafka).isEmpty = true
  · rw [if_pos he] at hp
    cases hp
    exact settles_record hs hr hk
      (Topic.sameShape_of_not_edits (TopicDiff.isEmpty_between_iff.1 he))
  · rw [if_neg he] at hp
    cases hp
    obtain ⟨l, hl⟩ := Option.isSome_iff_exists.1 (s.labelled resource hr)
    let t := { kafka with
      resourceName := resource.resourceName
      labels := resource.labels.or kafka.labels }
    have ht : (s.carryOut (.updateResource t)).resource = some t := by
      simp [t, carryOut, setResource, hl]
    have shape : kafka.SameShape t := ⟨rfl, rfl, rfl⟩
    have hrest : (s.carryOut (.updateResource t)).plan managed =
        .ok ⟨.recordConverged, [.createStored t]⟩ := plan_eq_record hs ht hk shape
    exact settles_cons ⟨_, h, rfl⟩
      (settles_cons ⟨_, hrest, rfl⟩ (settles_record hs ht hk shape))

theorem settles_of_plan (h : s.plan managed = .ok p) : Settles managed s p.actions := by
  obtain ⟨_ | stored, _ | resource, _ | kafka, labelled, unlabelled⟩ := s
  · cases h
    exact (Agreed.gone rfl rfl rfl).settles
  · cases h
    exact settles_cons ⟨_, rfl, rfl⟩ (settles_record rfl rfl rfl ⟨rfl, rfl, rfl⟩)
  · cases h
    exact settles_cons ⟨_, rfl, rfl⟩ (settles_record rfl rfl rfl ⟨rfl, rfl, rfl⟩)
  · exact settles_unrecorded rfl rfl rfl h
  · cases h
    exact settles_cons ⟨_, rfl, rfl⟩ (Agreed.gone rfl rfl rfl).settles
  · cases h
    exact settles_cons ⟨_, rfl, rfl⟩ (settles_cons ⟨_, rfl, rfl⟩ (Agreed.gone rfl rfl rfl).settles)
  · cases h
    exact settles_cons ⟨_, rfl, rfl⟩ (settles_cons ⟨_, rfl, rfl⟩ (Agreed.gone rfl rfl rfl).settles)
  · rw [plan, Plan.make] at h
    split at h
    next actions ha =>
      cases h
      exact settles_merge rfl rfl rfl ha
    next => cases h

/-- The sides that a plan leads to need no further action, and those that are all present agree. -/
theorem plan_converges (h : s.plan managed = .ok p) :
    (∃ d, (s.carryOutAll p.actions).plan managed = .ok ⟨d, []⟩) ∧
      ∀ stored ∈ (s.carryOutAll p.actions).stored,
      ∀ resource ∈ (s.carryOutAll p.actions).resource,
      ∀ kafka ∈ (s.carryOutAll p.actions).kafka,
        resource.SameShape stored ∧ kafka.SameShape stored := by
  have hg := (settles_of_plan h).agreed
  refine ⟨hg.plan_eq managed, ?_⟩
  cases hg with
  | gone hs hr hk =>
    intro stored hstored
    rw [hs] at hstored
    cases hstored
  | present stored resource kafka hs hr hk shape same =>
    rw [hs, hr, hk]
    rintro _ ⟨⟩ _ ⟨⟩ _ ⟨⟩
    exact ⟨Topic.sameShape_iff.2 fun f _ => same f, shape⟩

/-- Sides of the topic `orders` that have edits on both sides to merge. -/
def ordersSides : Sides where
  stored := some Plan.ordersStored
  resource := some Plan.ordersResource
  kafka := some Plan.ordersKafka
  labelled := by rintro _ ⟨⟩; rfl
  unlabelled := by rintro _ ⟨⟩; rfl

theorem plan_converges_orders :
    ∃ p, ordersSides.plan .managed = .ok p ∧ p.actions.length = 5 ∧
      ∃ d, (ordersSides.carryOutAll p.actions).plan .managed = .ok ⟨d, []⟩ := by
  have hplan : ∃ p, ordersSides.plan .managed = .ok p ∧ p.actions.length = 5 := ⟨_, rfl, rfl⟩
  obtain ⟨p, hp, hlength⟩ := hplan
  exact ⟨p, hp, hlength, (plan_converges hp).1⟩

/-- Wherever a plan breaks off, planning again succeeds and leads to the end the plan had. -/
theorem plan_resumes (h : s.plan managed = .ok p) {done : List Action} (hd : done <+: p.actions) :
    ∃ q, (s.carryOutAll done).plan managed = .ok q ∧
      (s.carryOutAll done).carryOutAll q.actions = s.carryOutAll p.actions :=
  (settles_of_plan h).resumes done hd

/-- The merge breaks off when the brokers have more replicas and the resource is rewritten. -/
theorem plan_resumes_orders :
    ∃ p, ordersSides.plan .managed = .ok p ∧ p.actions.length = 5 ∧
      ∃ q, (ordersSides.carryOutAll (p.actions.take 2)).plan .managed = .ok q ∧
        (ordersSides.carryOutAll (p.actions.take 2)).carryOutAll q.actions =
          ordersSides.carryOutAll p.actions := by
  have hplan : ∃ p, ordersSides.plan .managed = .ok p ∧ p.actions.length = 5 := ⟨_, rfl, rfl⟩
  obtain ⟨p, hp, hlength⟩ := hplan
  exact ⟨p, hp, hlength, plan_resumes hp (List.take_prefix 2 p.actions)⟩

end Sides

end TopicSync
