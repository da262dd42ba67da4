import TopicSync.Proofs.Topic.Fields

/-!
The laws of differences. The difference of two snapshots leads from the one to the other, a union
is applied by applying its parts, and two differences from one snapshot that do not clash may be
united and applied in either order. All of this is seen one field at a time; whether a snapshot
knows its labels is not a field and is followed by itself.
-/
namespace TopicSync

theorem or_comm_of_agree {α : Type} {o p : Option α} (h : ∀ v ∈ o, ∀ w ∈ p, v = w) :
    o.or p = p.or o := by
  cases o <;> cases p <;> simp_all

theorem TextMap.union_comm_of_agree {α : Type} {m n : TextMap α}
    (h : ∀ k, ∀ v ∈ m.get? k, ∀ w ∈ n.get? k, v = w) : m.union n = n.union m :=
  ext fun k => by rw [get?_union, get?_union, or_comm_of_agree (h k)]

/-- Changes that begin at one value and end at one value are one change. -/
theorem Change.eq_of_ends {α : Type} {c d : Change α} {v : α} (hc : c.before = v)
    (hd : d.before = v) (h : c.after = d.after) : c = d := by
  cases c
  cases d
  simp_all

namespace Topic

variable {a b : Topic}

theorem knows_of_not_label {t : Topic} {f : Field} (h : f.isLabel = false) : t.knows f = true := by
  cases f with
  | label k => cases h
  | _ => rfl

theorem labelsOrEmpty_eq_iff :
    a.labelsOrEmpty = b.labelsOrEmpty ↔ ∀ k, a.value (.label k) = b.value (.label k) := by
  constructor
  · intro h k
    rw [value, value, h]
  · exact fun h => TextMap.ext fun k => FieldValue.entry.inj (h k)

theorem labels_eq_of_value (hknown : a.labels.isSome = b.labels.isSome)
    (h : a.labelsOrEmpty = b.labelsOrEmpty) : a.labels = b.labels := by
  rw [labelsOrEmpty, labelsOrEmpty] at h
  cases ha : a.labels <;> cases hb : b.labels <;> simp_all

/-- Snapshots of one topic are the same if they agree in all fields and both know labels or both
know none. -/
theorem eq_of_values (hn : a.name = b.name) (hr : a.resourceName = b.resourceName)
    (hknown : a.labels.isSome = b.labels.isSome) (h : ∀ f, a.value f = b.value f) : a = b :=
  eq_of_value hn hr (labels_eq_of_value hknown (labelsOrEmpty_eq_iff.2 fun k => h (.label k)))
    fun f _ => h f

end Topic

namespace TopicDiff

variable {a b c x : Topic} {d e : TopicDiff} {f : Field}

section Between

/-- Applied where it begins, a difference gives every field of which the second snapshot knows the
value that has there. -/
theorem value_between_apply (a b : Topic) (f : Field) :
    ((between a b).apply a).value f = if b.knows f = true then b.value f else a.value f := by
  rw [value_apply, target?_between]
  by_cases hk : b.knows f = true
  · by_cases hv : b.value f = a.value f <;> simp [Topic.Edits, hk, hv]
  · simp [Topic.Edits, hk]

theorem sameShape_between_apply (a b : Topic) : ((between a b).apply a).SameShape b :=
  Topic.sameShape_iff.2 fun f hl => by
    rw [value_between_apply, if_pos (Topic.knows_of_not_label hl)]

theorem labelsOrEmpty_between_apply (a b : Topic) :
    ((between a b).apply a).labelsOrEmpty =
      if b.labels.isSome then b.labelsOrEmpty else a.labelsOrEmpty := by
  by_cases hk : b.labels.isSome = true
  · rw [if_pos hk]
    exact Topic.labelsOrEmpty_eq_iff.2 fun k => (value_between_apply a b _).trans (if_pos hk)
  · rw [if_neg hk]
    exact Topic.labelsOrEmpty_eq_iff.2 fun k => (value_between_apply a b _).trans (if_neg hk)

/-- There is no difference just if the snapshots agree in all that the second one knows. -/
theorem isEmpty_between_iff_agree :
    (between a b).isEmpty = true ↔
      a.SameShape b ∧ (b.labels.isSome → a.labelsOrEmpty = b.labelsOrEmpty) := by
  rw [isEmpty_between_iff, Topic.sameShape_iff, Topic.labelsOrEmpty_eq_iff]
  simp only [Topic.Edits, not_and, ne_eq, Decidable.not_not]
  constructor
  · intro h
    exact ⟨fun f hl => (h f (Topic.knows_of_not_label hl)).symm, fun hk k => (h (.label k) hk).symm⟩
  · rintro ⟨hshape, hlabels⟩ f hk
    cases f with
    | label k => exact (hlabels hk k).symm
    | _ =>
      refine (hshape _ ?_).symm
      rfl

end Between

section Conflict

/-- There is a conflict just if both differences set some field, to different values. -/
theorem isSome_conflict?_iff :
    (d.conflict? e).isSome = true ↔ ∃ f, ∃ v ∈ d.target? f, ∃ w ∈ e.target? f, v ≠ w := by
  rw [← Option.not_isNone, Bool.not_eq_true', ← Bool.not_eq_true, Option.isNone_iff_eq_none,
    conflict?_eq_none_iff, clashes_eq_nil_iff]
  simp only [Classical.not_forall, exists_prop]

/-- It does not matter which of the two differences comes first. -/
theorem isSome_conflict?_comm (d e : TopicDiff) :
    (d.conflict? e).isSome = (e.conflict? d).isSome := by
  have himp : ∀ d e : TopicDiff, (d.conflict? e).isSome = true → (e.conflict? d).isSome = true := by
    intro d e h
    obtain ⟨f, v, hv, w, hw, hne⟩ := isSome_conflict?_iff.1 h
    exact isSome_conflict?_iff.2 ⟨f, w, hw, v, hv, hne.symm⟩
  exact Bool.eq_iff_iff.2 ⟨himp d e, himp e d⟩

theorem mem_target?_between {v : FieldValue} :
    v ∈ (between a b).target? f ↔ b.Edits a f ∧ b.value f = v := by
  rw [target?_between]
  by_cases h : b.Edits a f <;> simp [h]

theorem isSome_conflict?_between_iff :
    ((between a b).conflict? (between a c)).isSome = true ↔
      ∃ f, b.Edits a f ∧ c.Edits a f ∧ b.value f ≠ c.value f := by
  rw [isSome_conflict?_iff]
  simp only [mem_target?_between]
  constructor
  · rintro ⟨f, _, ⟨hb, rfl⟩, _, ⟨hc, rfl⟩, hne⟩
    exact ⟨f, hb, hc, hne⟩
  · rintro ⟨f, hb, hc, hne⟩
    exact ⟨f, _, ⟨hb, rfl⟩, _, ⟨hc, rfl⟩, hne⟩

end Conflict

section Merge

/-- Labels become known by being changed. -/
theorem isSome_labels_apply (d : TopicDiff) (x : Topic) :
    (d.apply x).labels.isSome = (x.labels.isSome || !d.labels.isEmpty) := by
  cases h : d.labels.isEmpty <;> simp [apply, h]

theorem isEmpty_labels_merge (d e : TopicDiff) :
    (d.merge e).labels.isEmpty = (d.labels.isEmpty && e.labels.isEmpty) := by
  refine Bool.eq_iff_iff.2 ?_
  rw [Bool.and_eq_true]
  simp only [TextMap.isEmpty_iff, merge, TextMap.get?_union, Option.or_eq_none_iff, forall_and]

/-- A union is applied by applying the second difference and then the first. -/
theorem apply_merge (d e : TopicDiff) (x : Topic) : (d.merge e).apply x = d.apply (e.apply x) := by
  refine Topic.eq_of_values rfl rfl ?_ fun f => ?_
  · rw [isSome_labels_apply, isSome_labels_apply, isSome_labels_apply, isEmpty_labels_merge,
      Bool.not_and, Bool.or_assoc, Bool.or_comm (!d.labels.isEmpty)]
  · rw [value_apply, value_apply, value_apply, target?_merge]
    cases d.target? f <;> rfl

/-- The counts that the difference changes are those of the snapshot that it begins at. -/
structure StartsAt (d : TopicDiff) (a : Topic) : Prop where
  partitions : ∀ c ∈ d.partitions, c.before = a.partitions
  replicationFactor : ∀ c ∈ d.replicationFactor, c.before = a.replicationFactor

theorem startsAt_between (a b : Topic) : (between a b).StartsAt a where
  partitions c hc := by rw [eq_of_mem_changeOf hc]
  replicationFactor c hc := by rw [eq_of_mem_changeOf hc]

/-- Differences that begin at one snapshot and do not clash have one union. -/
theorem merge_comm (hd : d.StartsAt a) (he : e.StartsAt a) (h : d.conflict? e = none) :
    d.merge e = e.merge d := by
  rw [conflict?_eq_none_iff, clashes] at h
  simp only [List.append_eq_nil_iff, scalarClash_eq_nil_iff, entryClashes_eq_nil_iff] at h
  obtain ⟨⟨⟨hpartitions, hfactor⟩, hconfig⟩, hlabels⟩ := h
  have hp : d.partitions.or e.partitions = e.partitions.or d.partitions :=
    or_comm_of_agree fun c hc c' hc' =>
      Change.eq_of_ends (hd.partitions c hc) (he.partitions c' hc') (hpartitions c hc c' hc')
  have hr : d.replicationFactor.or e.replicationFactor =
      e.replicationFactor.or d.replicationFactor :=
    or_comm_of_agree fun c hc c' hc' => Change.eq_of_ends (hd.replicationFactor c hc)
      (he.replicationFactor c' hc') (hfactor c hc c' hc')
  rw [merge, merge, hp, hr, TextMap.union_comm_of_agree hconfig,
    TextMap.union_comm_of_agree hlabels]

/-- Differences that begin at one snapshot and do not clash are applied in either order. -/
theorem apply_comm (hd : d.StartsAt a) (he : e.StartsAt a) (h : d.conflict? e = none)
    (x : Topic) : d.apply (e.apply x) = e.apply (d.apply x) := by
  rw [← apply_merge, ← apply_merge, merge_comm hd he h]

end Merge

/-- What differences do, for whatever snapshots. The difference of two snapshots leads from the one
to the other in all that the other knows, and is empty just if they agree in that. Two differences
from one snapshot are in conflict just if some field has been changed to different values, whichever
of them is asked. A union is applied by applying the one part after the other. Without a conflict
the order of the two makes no difference. -/
theorem diff_laws (a b c x : Topic) (d e : TopicDiff) :
    (((between a b).apply a).SameShape b ∧
      ((between a b).apply a).labelsOrEmpty =
        (if b.labels.isSome then b.labelsOrEmpty else a.labelsOrEmpty) ∧
      ((between a b).isEmpty = true ↔
        a.SameShape b ∧ (b.labels.isSome → a.labelsOrEmpty = b.labelsOrEmpty))) ∧
    ((((between a b).conflict? (between a c)).isSome = true ↔
        ∃ f, b.Edits a f ∧ c.Edits a f ∧ b.value f ≠ c.value f) ∧
      ((between a b).conflict? (between a c)).isSome =
        ((between a c).conflict? (between a b)).isSome) ∧
    (d.merge e).apply x = d.apply (e.apply x) ∧
    ((between a b).conflict? (between a c) = none →
      (between a b).merge (between a c) = (between a c).merge (between a b) ∧
      (between a b).apply ((between a c).apply x) =
        (between a c).apply ((between a b).apply x)) := by
  have hb := startsAt_between a b
  have hc := startsAt_between a c
  exact ⟨⟨sameShape_between_apply a b, labelsOrEmpty_between_apply a b, isEmpty_between_iff_agree⟩,
    ⟨isSome_conflict?_between_iff, isSome_conflict?_comm _ _⟩, apply_merge d e x,
    fun h => ⟨merge_comm hb hc h, apply_comm hb hc h x⟩⟩

/-- A topic with six partitions. -/
def small : Topic :=
  ⟨⟨"shipments", by decide⟩, ⟨"shipments"⟩, ⟨6, by decide, by decide⟩, ⟨5, by decide, by decide⟩,
    .empty, none⟩

/-- The topic with a partition more. -/
def grown : Topic := { small with partitions := ⟨7, by decide, by decide⟩ }

/-- The topic with an entry more, and labels. -/
def tuned : Topic :=
  { small with config := .ofList [("a", "1")], labels := some (.ofList [("team", "sales")]) }

/-- A partition more and an entry more may be united in either order. -/
theorem diff_laws_grown_tuned :
    (between small grown).conflict? (between small tuned) = none ∧
      (between small grown).merge (between small tuned) =
        (between small tuned).merge (between small grown) ∧
      ((between small grown).apply tuned).partitions = grown.partitions := by
  have hnone : (between small grown).conflict? (between small tuned) = none := by decide +kernel
  have hlaws := diff_laws small grown tuned tuned (between small grown) (between small tuned)
  exact ⟨hnone, (hlaws.2.2.2 hnone).1, rfl⟩

end TopicDiff

end TopicSync
