import TopicSync.Proofs.Operator.Deletion
import TopicSync.Proofs.Topic.Name

/-!
What a sweep finds: the topics that the brokers, the store or the managed resources know, each once
and in the order of their names. A topic comes with the resource that describes it, and if several
do, with the one that is listed last. A source that cannot be listed counts as one that knows
nothing.
-/
namespace TopicSync

namespace Sweep

variable {managed : Selector} {brokers stored : List TopicName} {resources : List Resource}
  {r : Resource} {f : Found} {n : TopicName}

section Keys

/-- Every topic is kept under its own name. -/
def Keyed (f : Found) : Prop := ∀ k v, f.get? k = some v → v.1.text = k

theorem keyed_empty : Keyed .empty := by
  intro k v hv
  cases hv

theorem Keyed.insert (h : Keyed f) (n : TopicName) (o : Option ResourceName) :
    Keyed (f.insert n.text (n, o)) := by
  intro k v hv
  rw [TextMap.get?_insert] at hv
  split at hv
  next hk =>
    cases hv
    exact hk.symm
  next => exact h k v hv

theorem Keyed.note (h : Keyed f) (n : TopicName) : Keyed (note f n) := by
  rw [Sweep.note]
  split
  · exact h
  · exact h.insert n none

theorem Keyed.foldl_note (h : Keyed f) (names : List TopicName) :
    Keyed (names.foldl Sweep.note f) := by
  induction names generalizing f with
  | nil => exact h
  | cons n names ih => exact ih (h.note n)

theorem Keyed.mem_values_iff (h : Keyed f) {o : Option ResourceName} :
    (n, o) ∈ f.values ↔ f.get? n.text = some (n, o) := by
  rw [TextMap.mem_values]
  constructor
  · rintro ⟨k, hk⟩
    rwa [← h k _ hk] at hk
  · exact fun hn => ⟨_, hn⟩

theorem Keyed.pairwise_values (h : Keyed f) :
    f.values.Pairwise fun a b => a.1.text < b.1.text := by
  have hname : ∀ e ∈ f.entries, e.2.1.text = e.1 := fun e he =>
    h e.1 e.2 (TextMap.get?_eq_some_iff.2 he)
  refine List.pairwise_map.2 (f.increasing.imp_of_mem fun {a b} ha hb hlt => ?_)
  rwa [hname a ha, hname b hb]

end Keys

section Entries

theorem get?_note (f : Found) (m n : TopicName) :
    (note f m).get? n.text = (f.get? n.text).or (if n = m then some (n, none) else none) := by
  rw [note]
  by_cases h : n = m
  · subst h
    by_cases hold : f.contains n.text = true
    · obtain ⟨v, hv⟩ := Option.isSome_iff_exists.1 hold
      simp [hold, hv]
    · have hnone : f.get? n.text = none := Option.not_isSome_iff_eq_none.1 hold
      simp [hold, hnone]
  · have hne : n.text ≠ m.text := fun ht => h (TopicName.ext ht)
    split <;> simp [hne]

/-- Names that are noted are found, without a resource if they are new. -/
theorem get?_foldl_note (names : List TopicName) (f : Found) (n : TopicName) :
    (names.foldl note f).get? n.text =
      (f.get? n.text).or (if n ∈ names then some (n, none) else none) := by
  induction names generalizing f with
  | nil => simp
  | cons m names ih =>
    rw [List.foldl_cons, ih, get?_note, Option.or_assoc]
    by_cases h : n = m <;> simp [h]

theorem noteResource_cases (managed : Selector) (f : Found) (r : Resource) :
    (noteResource managed f r = f ∧ ∀ n, ¬ r.Describes managed n) ∨
      ∃ n, r.Describes managed n ∧
        noteResource managed f r = f.insert n.text (n, some ⟨r.nameText⟩) := by
  rw [noteResource]
  split
  next hm =>
    split
    next n hn => exact .inr ⟨n, ⟨hm, TopicName.ofText?_eq_some_iff_ofText.1 hn⟩, rfl⟩
    next hnone =>
      refine .inl ⟨rfl, fun n hn => ?_⟩
      cases hnone.symm.trans (TopicName.ofText?_eq_some_iff_ofText.2 hn.topic)
  next hm => exact .inl ⟨rfl, fun n hn => hm hn.managed⟩

theorem Keyed.noteResource (h : Keyed f) (managed : Selector) (r : Resource) :
    Keyed (noteResource managed f r) := by
  rcases noteResource_cases managed f r with ⟨heq, -⟩ | ⟨n, -, heq⟩
  · rwa [heq]
  · rw [heq]
    exact h.insert n _

theorem Keyed.foldl_noteResource (h : Keyed f) (managed : Selector) (resources : List Resource) :
    Keyed (resources.foldl (Sweep.noteResource managed) f) := by
  induction resources generalizing f with
  | nil => exact h
  | cons r resources ih => exact ih (h.noteResource managed r)

theorem get?_noteResource (f : Found) (h : r.Describes managed n) :
    (noteResource managed f r).get? n.text = some (n, some ⟨r.nameText⟩) := by
  rcases noteResource_cases managed f r with ⟨-, hnone⟩ | ⟨m, hm, heq⟩
  · exact absurd h (hnone n)
  · cases h.topic.symm.trans hm.topic
    rw [heq, TextMap.get?_insert, if_pos rfl]

theorem get?_noteResource_of_not (f : Found) (h : ¬ r.Describes managed n) :
    (noteResource managed f r).get? n.text = f.get? n.text := by
  rcases noteResource_cases managed f r with ⟨heq, -⟩ | ⟨m, hm, heq⟩
  · rw [heq]
  · have hne : n.text ≠ m.text := fun ht => h (TopicName.ext ht ▸ hm)
    rw [heq, TextMap.get?_insert, if_neg hne]

theorem get?_foldl_of_undescribed (h : ∀ r ∈ resources, ¬ r.Describes managed n) (f : Found) :
    (resources.foldl (noteResource managed) f).get? n.text = f.get? n.text := by
  induction resources generalizing f with
  | nil => rfl
  | cons r resources ih =>
    obtain ⟨hr, hrest⟩ := List.forall_mem_cons.1 h
    rw [List.foldl_cons, ih hrest, get?_noteResource_of_not f hr]

theorem get?_foldl_of_last {before after : List Resource} (hr : r.Describes managed n)
    (hlater : ∀ r' ∈ after, ¬ r'.Describes managed n) (f : Found) :
    ((before ++ r :: after).foldl (noteResource managed) f).get? n.text =
      some (n, some ⟨r.nameText⟩) := by
  rw [List.foldl_append, List.foldl_cons, get?_foldl_of_undescribed hlater,
    get?_noteResource _ hr]

/-- Of the resources that describe a topic, there is a last one. -/
theorem exists_last (h : ∃ r ∈ resources, r.Describes managed n) :
    ∃ before r after, resources = before ++ r :: after ∧ r.Describes managed n ∧
      ∀ r' ∈ after, ¬ r'.Describes managed n := by
  induction resources with
  | nil => simp at h
  | cons r resources ih =>
    by_cases hrest : ∃ r' ∈ resources, r'.Describes managed n
    · obtain ⟨before, r', after, rfl, hr', hlater⟩ := ih hrest
      exact ⟨r :: before, r', after, rfl, hr', hlater⟩
    · obtain ⟨r', hr', hdescribes⟩ := h
      rcases List.mem_cons.1 hr' with rfl | hr'
      · exact ⟨[], r', resources, rfl, hdescribes, fun r hr hd => hrest ⟨r, hr, hd⟩⟩
      · exact absurd ⟨r', hr', hdescribes⟩ hrest

/-- What is found in the listings of the brokers and the store. -/
def noted (brokers stored : List TopicName) : Found :=
  stored.foldl note ((brokers.filter fun n => !n.isInternal).foldl note .empty)

theorem keyed_foldl_noted (managed : Selector) (brokers stored : List TopicName)
    (resources : List Resource) :
    Keyed (resources.foldl (noteResource managed) (noted brokers stored)) :=
  ((keyed_empty.foldl_note _).foldl_note _).foldl_noteResource managed resources

theorem get?_noted (brokers stored : List TopicName) (n : TopicName) :
    (noted brokers stored).get? n.text =
      if (n ∈ brokers ∧ n.isInternal = false) ∨ n ∈ stored then some (n, none) else none := by
  rw [noted, get?_foldl_note, get?_foldl_note, TextMap.get?_empty]
  by_cases hb : n ∈ brokers ∧ n.isInternal = false <;> by_cases hs : n ∈ stored <;>
    simp [hb, hs]

end Entries

/-- Some source knows the topic. -/
def Known (managed : Selector) (brokers stored : List TopicName) (resources : List Resource)
    (n : TopicName) : Prop :=
  (n ∈ brokers ∧ n.isInternal = false) ∨ n ∈ stored ∨ ∃ r ∈ resources, r.Describes managed n

/-- What the subjects are, given what the sources list. -/
structure Covers (managed : Selector) (brokers stored : List TopicName) (resources : List Resource)
    (subjects : List (TopicName × Option ResourceName)) : Prop where
  /-- No topic is there twice. -/
  ordered : subjects.Pairwise fun a b => a.1.text < b.1.text
  known_iff : ∀ n, (∃ o, (n, o) ∈ subjects) ↔ Known managed brokers stored resources n
  described : ∀ n r, r ∈ resources → r.Describes managed n →
    (∀ r' ∈ resources, r'.Describes managed n → r' = r) → (n, some ⟨r.nameText⟩) ∈ subjects
  undescribed : ∀ n o, (∀ r ∈ resources, ¬ r.Describes managed n) → (n, o) ∈ subjects → o = none
  /-- Of several resources that describe a topic, the last one listed counts. -/
  last : ∀ n before r after, resources = before ++ r :: after → r.Describes managed n →
    (∀ r' ∈ after, ¬ r'.Describes managed n) → (n, some ⟨r.nameText⟩) ∈ subjects

/-- Just what the subjects are: topics of the brokers and the store that no resource describes, and
topics that some resource describes, with the last one that does. -/
theorem mem_subjects_iff {o : Option ResourceName} :
    (n, o) ∈ subjects managed brokers stored resources ↔
      ((n ∈ brokers ∧ n.isInternal = false) ∨ n ∈ stored) ∧
        (∀ r ∈ resources, ¬ r.Describes managed n) ∧ o = none ∨
      ∃ before r after, resources = before ++ r :: after ∧ r.Describes managed n ∧
        (∀ r' ∈ after, ¬ r'.Describes managed n) ∧ o = some ⟨r.nameText⟩ := by
  have hmem : (n, o) ∈ subjects managed brokers stored resources ↔
      (resources.foldl (noteResource managed) (noted brokers stored)).get? n.text = some (n, o) :=
    (keyed_foldl_noted managed brokers stored resources).mem_values_iff
  rw [hmem]
  constructor
  · intro h
    by_cases hsome : ∃ r ∈ resources, r.Describes managed n
    · obtain ⟨before, r, after, rfl, hr, hlater⟩ := exists_last hsome
      rw [get?_foldl_of_last hr hlater] at h
      cases h
      exact .inr ⟨before, r, after, rfl, hr, hlater, rfl⟩
    · have hnone : ∀ r ∈ resources, ¬ r.Describes managed n := fun r hr hd => hsome ⟨r, hr, hd⟩
      rw [get?_foldl_of_undescribed hnone, get?_noted] at h
      split at h
      next hknown =>
        cases h
        exact .inl ⟨hknown, hnone, rfl⟩
      next => cases h
  · rintro (⟨hknown, hnone, rfl⟩ | ⟨before, r, after, rfl, hr, hlater, rfl⟩)
    · rw [get?_foldl_of_undescribed hnone, get?_noted, if_pos hknown]
    · exact get?_foldl_of_last hr hlater _

theorem subjects_cover (managed : Selector) (brokers stored : List TopicName)
    (resources : List Resource) :
    Covers managed brokers stored resources (subjects managed brokers stored resources) where
  ordered := (keyed_foldl_noted managed brokers stored resources).pairwise_values
  known_iff n := by
    constructor
    · rintro ⟨o, ho⟩
      rcases mem_subjects_iff.1 ho with ⟨hb | hs, -, -⟩ | ⟨before, r, after, rfl, hr, -, -⟩
      · exact .inl hb
      · exact .inr (.inl hs)
      · exact .inr (.inr ⟨r, by simp, hr⟩)
    · intro hknown
      by_cases hsome : ∃ r ∈ resources, r.Describes managed n
      · obtain ⟨before, r, after, rfl, hr, hlater⟩ := exists_last hsome
        exact ⟨_, mem_subjects_iff.2 (.inr ⟨before, r, after, rfl, hr, hlater, rfl⟩)⟩
      · have hlisted : (n ∈ brokers ∧ n.isInternal = false) ∨ n ∈ stored :=
          hknown.imp_right fun h => h.resolve_right hsome
        exact ⟨_, mem_subjects_iff.2 (.inl ⟨hlisted, fun r hr hd => hsome ⟨r, hr, hd⟩, rfl⟩)⟩
  described n r hr hdescribes honly := by
    obtain ⟨before, r', after, rfl, hr', hlater⟩ := exists_last ⟨r, hr, hdescribes⟩
    cases honly r' (by simp) hr'
    exact mem_subjects_iff.2 (.inr ⟨before, r, after, rfl, hr', hlater, rfl⟩)
  undescribed n o hnone ho := by
    rcases mem_subjects_iff.1 ho with ⟨-, -, rfl⟩ | ⟨before, r, after, rfl, hr, -, -⟩
    · rfl
    · exact absurd hr (hnone r (by simp))
  last n before r after hcut hr hlater :=
    mem_subjects_iff.2 (.inr ⟨before, r, after, hcut, hr, hlater, rfl⟩)

example :
    let payments : TopicName := ⟨"payments", by decide⟩
    (subjects .managed [payments, ⟨"__offsets", by decide⟩] [payments]
        [.ofTopic Plan.ordersResource "kafka"]).map (fun e => (e.1.text, e.2.map (·.text))) =
      [("orders", some "orders"), ("payments", none)] := by
  decide +kernel

/-- What the answer of a source contributes: all that it lists, or nothing if it is a failure. -/
inductive Contributes {ε α : Type} : Except ε (List α) → List α → Prop where
  | lists (as : List α) : Contributes (.ok as) as
  | fails (e : ε) : Contributes (.error e) []

theorem contributes_listed {ε α : Type} (a : Except ε (List α)) : Contributes a (listed a) := by
  cases a with
  | ok as => exact .lists as
  | error e => exact .fails e

end Sweep

/-- Whatever the sources list, and whichever of them fail, a sweep covers the topics of those that
do not fail. -/
theorem Operator.sweep_covers {σ : Type} (o : Operator)
    (answer : (c : OperatorCall) → σ → c.Answer × σ) (s : σ) :
    let brokers := answer (.broker .list) s
    let stored := answer (.store .list) brokers.2
    let resources := answer (.resource .list) stored.2
    ∃ topics records objects, Sweep.Contributes brokers.1 topics ∧
      Sweep.Contributes stored.1 records ∧ Sweep.Contributes resources.1 objects ∧
        Sweep.Covers o.managed topics records objects (o.sweep.run answer s).1 := by
  intro brokers stored resources
  exact ⟨_, _, _, Sweep.contributes_listed brokers.1, Sweep.contributes_listed stored.1,
    Sweep.contributes_listed resources.1, Sweep.subjects_cover o.managed _ _ _⟩

end TopicSync
