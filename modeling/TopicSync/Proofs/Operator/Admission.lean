import Mathlib.Data.List.Nodup
import Mathlib.Data.List.Pairwise
import TopicSync.Operator.Loop
import TopicSync.Proofs.Program
import TopicSync.Proofs.TextMap

/-!
Which topics the loop works on. A run is any order in which triggers arrive, the channel is closed
and work ends, with whatever result its program can have. Throughout a run the ledger holds just
the topics of the attempts under way, each with what caused its attempt; no topic has two attempts,
no attempt is about an internal topic, and a loop that has ended leaves its ledger empty.
-/
namespace TopicSync

namespace Work

/-- The topic of an attempt. -/
def topic? : Work → Option TopicName
  | attempt topic _ _ => some topic
  | sweep | reject .. => none

/-- How work can end: an attempt with any result about its topic, a sweep with any subjects. -/
inductive EndsWith : Work → Completion → Prop where
  | attempt (topic : TopicName) (resource : Option ResourceName) (cause : String)
      (result : Except Failure (Option Decision)) :
      EndsWith (attempt topic resource cause) (.reconciled topic result)
  | sweep (subjects : List (TopicName × Option ResourceName)) : EndsWith sweep (.swept subjects)
  | reject (resource : ResourceName) (reason : String) : EndsWith (reject resource reason) .rejected

theorem endsWith_of_yields {o : Operator} {w : Work} {c : Completion}
    (h : (w.task o).Yields c) : w.EndsWith c := by
  cases w with
  | attempt topic resource cause =>
    obtain ⟨result, -, h⟩ := Program.Yields.of_bind h
    cases h
    exact .attempt topic resource cause result
  | sweep =>
    obtain ⟨subjects, -, h⟩ := Program.Yields.of_bind h
    cases h
    exact .sweep subjects
  | reject resource reason =>
    obtain ⟨-, -, h⟩ := Program.Yields.of_bind h
    cases h
    exact .reject resource reason

end Work

namespace Loop

/-- What happens to the loop: a trigger arrives, the channel is closed, or the work under a number
ends. -/
inductive Event where
  | offered (t : Trigger)
  | closed
  | finished (id : Nat) (c : Completion)

/-- The events of a run so far, the latest first. -/
abbrev History : Type := List Event

namespace History

/-- The loop after a history. -/
def loop : History → Loop
  | [] => .empty
  | .offered t :: h => (loop h).offer t
  | .closed :: h => loop h
  | .finished id c :: h => (loop h).complete id c

/-- Whether the channel is open. -/
def isOpen : History → Bool
  | [] => true
  | .closed :: _ => false
  | _ :: h => isOpen h

/-- The histories of a loop: triggers arrive while the channel is open, and work under way ends as
its program may, under whatever answers of the outside world. -/
inductive Possible (o : Operator) : History → Prop where
  | start : Possible o []
  | offered {h : History} (t : Trigger) (past : Possible o h) (ho : isOpen h = true) :
      Possible o (.offered t :: h)
  | closed {h : History} (past : Possible o h) (ho : isOpen h = true) : Possible o (.closed :: h)
  | finished {h : History} {id : Nat} {w : Work} {c : Completion} (past : Possible o h)
      (hw : (id, w) ∈ (loop h).running) (hc : (w.task o).Yields c) :
      Possible o (.finished id c :: h)

/-- The loop has ended: no trigger can arrive and no work is under way. -/
def Ended (h : History) : Prop := isOpen h = false ∧ (loop h).running = []

end History

/-- The topics of the attempts under way. -/
def topics (l : Loop) : List TopicName := l.running.filterMap (·.2.topic?)

/-- The ledger and the work under way fit together. -/
structure Sound (l : Loop) : Prop where
  /-- Each piece of work has a number of its own. -/
  numbers : (l.running.map (·.1)).Nodup
  fresh : ∀ p ∈ l.running, p.1 < l.next
  single : l.topics.Nodup
  external : ∀ topic ∈ l.topics, topic.isInternal = false
  /-- The entries of the ledger are the topics and causes of the attempts. -/
  causes : ∀ text cause, l.ledger.causes.get? text = some cause ↔
    ∃ id topic resource, (id, .attempt topic resource cause) ∈ l.running ∧ topic.text = text

theorem mem_topics {l : Loop} {topic : TopicName} :
    topic ∈ l.topics ↔ ∃ id resource cause, (id, .attempt topic resource cause) ∈ l.running := by
  constructor
  · intro h
    obtain ⟨⟨id, w⟩, hp, ht⟩ := List.mem_filterMap.1 h
    cases w with
    | attempt topic' resource cause =>
      cases ht
      exact ⟨id, resource, cause, hp⟩
    | sweep => cases ht
    | reject resource reason => cases ht
  · rintro ⟨id, resource, cause, hp⟩
    exact List.mem_filterMap.2 ⟨_, hp, rfl⟩

theorem Sound.contains_iff {l : Loop} (hs : l.Sound) (topic : TopicName) :
    l.ledger.contains topic = true ↔ topic ∈ l.topics := by
  rw [Ledger.contains, TextMap.contains, Option.isSome_iff_exists, mem_topics]
  constructor
  · rintro ⟨cause, hc⟩
    obtain ⟨id, topic', resource, hp, ht⟩ := (hs.causes _ _).1 hc
    cases TopicName.ext ht
    exact ⟨id, resource, cause, hp⟩
  · rintro ⟨id, resource, cause, hp⟩
    exact ⟨cause, (hs.causes _ _).2 ⟨id, topic, resource, hp, rfl⟩⟩

theorem sound_empty : Sound .empty where
  numbers := .nil
  fresh := by rintro p ⟨⟩
  single := .nil
  external := by rintro topic ⟨⟩
  causes text cause := by simp [empty, Ledger.empty, TextMap.get?_empty]

/-- The loop with new work, and the ledger that goes with it. -/
def started (l : Loop) (w : Work) (ledger : Ledger) : Loop :=
  { l with ledger := ledger, running := l.running ++ [(l.next, w)], next := l.next + 1 }

theorem offer_of_topic {l : Loop} {t : Trigger} {topic : TopicName} (ht : t.topic? = some topic) :
    l.offer t =
      if topic.isInternal = true then l
      else if l.ledger.contains topic = true then { l with dropped := l.dropped + 1 }
      else l.started (.attempt topic t.resource? t.cause)
        ⟨l.ledger.causes.insert topic.text t.cause⟩ := by
  have hadmission : l.ledger.admission t =
      if topic.isInternal = true then (.ignored, l.ledger)
      else if l.ledger.contains topic = true then (.dropped, l.ledger)
      else (.started (.attempt topic t.resource? t.cause),
        ⟨l.ledger.causes.insert topic.text t.cause⟩) := by
    cases t <;> simp only [Trigger.topic?, Option.some.injEq, reduceCtorEq] at ht
    all_goals
      obtain rfl := ht.symm
      simp only [Ledger.admission, Trigger.topic?, Ledger.admit?]
      by_cases hc : l.ledger.contains topic = true <;> simp [hc]
  rw [offer, hadmission]
  by_cases hi : topic.isInternal = true
  · simp [hi]
  · by_cases hc : l.ledger.contains topic = true <;> simp [hi, hc, started]

/-- The first trigger that is about a topic starts an attempt at it. -/
theorem offer_empty {t : Trigger} {topic : TopicName} (ht : t.topic? = some topic)
    (hi : topic.isInternal = false) :
    empty.offer t = empty.started (.attempt topic t.resource? t.cause)
      ⟨TextMap.empty.insert topic.text t.cause⟩ := by
  have hnew : empty.ledger.contains topic = false := by
    simp [empty, Ledger.empty, Ledger.contains, TextMap.contains, TextMap.get?_empty]
  rw [offer_of_topic ht, hi, hnew]
  rfl

/-- What becomes of a trigger: a sweep or a rejection starts, or a topic is looked at, unless it is
internal or has an attempt already. -/
theorem offer_cases (l : Loop) (t : Trigger) :
    (t.topic? = none ∧ ∃ w : Work, w.topic? = none ∧ l.offer t = l.started w l.ledger) ∨
    ∃ topic, t.topic? = some topic ∧
      ((topic.isInternal = true ∧ l.offer t = l) ∨
        (topic.isInternal = false ∧ l.ledger.contains topic = true ∧
          l.offer t = { l with dropped := l.dropped + 1 }) ∨
        (topic.isInternal = false ∧ l.ledger.contains topic = false ∧
          l.offer t = l.started (.attempt topic t.resource? t.cause)
            ⟨l.ledger.causes.insert topic.text t.cause⟩)) := by
  cases ht : t.topic? with
  | none =>
    refine .inl ⟨rfl, ?_⟩
    cases t <;> cases ht
    · exact ⟨.reject _ _, rfl, rfl⟩
    · exact ⟨.sweep, rfl, rfl⟩
  | some topic =>
    refine .inr ⟨topic, rfl, ?_⟩
    rw [offer_of_topic ht]
    by_cases hi : topic.isInternal = true
    · exact .inl ⟨hi, if_pos hi⟩
    · rw [if_neg hi]
      by_cases hc : l.ledger.contains topic = true
      · exact .inr (.inl ⟨by simpa using hi, hc, if_pos hc⟩)
      · exact .inr (.inr ⟨by simpa using hi, by simpa using hc, if_neg hc⟩)

/-- The loop without work that has ended. -/
def without (l : Loop) (id : Nat) (c : Completion) : Loop :=
  { l with ledger := c.leave l.ledger, running := l.running.filter (·.1 ≠ id) }

@[simp] theorem topics_started (l : Loop) (w : Work) (ledger : Ledger) :
    (l.started w ledger).topics = l.topics ++ w.topic?.toList := by
  cases h : w.topic? <;> simp [topics, started, h]

namespace Sound

variable {l : Loop} {w : Work} {c : Completion} {id : Nat}

/-- New work gets a number that no other work has. -/
theorem numbers_started (hs : l.Sound) (w : Work) (ledger : Ledger) :
    ((l.started w ledger).running.map (·.1)).Nodup ∧
      ∀ p ∈ (l.started w ledger).running, p.1 < (l.started w ledger).next := by
  constructor
  · simp only [started, List.map_append, List.map_cons, List.map_nil]
    refine List.nodup_append.2 ⟨hs.numbers, by simp, ?_⟩
    rintro i hi j hj rfl
    obtain ⟨p, hp, rfl⟩ := List.mem_map.1 hi
    have hlt := hs.fresh p hp
    simp only [List.mem_singleton] at hj
    omega
  · intro p hp
    rcases List.mem_append.1 hp with hp | hp
    · exact Nat.lt_succ_of_lt (hs.fresh p hp)
    · simp only [List.mem_singleton] at hp
      rw [hp]
      exact Nat.lt_succ_self _

theorem started_of_topic?_eq_none (hs : l.Sound) (hw : w.topic? = none) :
    (l.started w l.ledger).Sound where
  numbers := (hs.numbers_started w _).1
  fresh := (hs.numbers_started w _).2
  single := by simpa [hw] using hs.single
  external := by simpa [hw] using hs.external
  causes text cause := by
    have hnot : ∀ topic resource, w ≠ .attempt topic resource cause := by
      rintro topic resource rfl
      cases hw
    simp only [started, List.mem_append, List.mem_singleton, Prod.mk.injEq]
    rw [hs.causes text cause]
    constructor
    · rintro ⟨i, topic, resource, hp, ht⟩
      exact ⟨i, topic, resource, .inl hp, ht⟩
    · rintro ⟨i, topic, resource, hp | ⟨-, hp⟩, ht⟩
      · exact ⟨i, topic, resource, hp, ht⟩
      · exact absurd hp.symm (hnot topic resource)

theorem started_attempt (hs : l.Sound) {topic : TopicName} {resource : Option ResourceName}
    {cause : String} (hi : topic.isInternal = false) (hc : l.ledger.contains topic = false) :
    (l.started (.attempt topic resource cause)
      ⟨l.ledger.causes.insert topic.text cause⟩).Sound where
  numbers := (hs.numbers_started _ _).1
  fresh := (hs.numbers_started _ _).2
  single := by
    have hnew : topic ∉ l.topics := by
      rw [← hs.contains_iff, hc]
      simp
    rw [topics_started]
    refine List.nodup_append.2 ⟨hs.single, by simp [Work.topic?], ?_⟩
    rintro a ha b hb rfl
    cases List.mem_singleton.1 hb
    exact hnew ha
  external := by
    rw [topics_started]
    intro a ha
    rcases List.mem_append.1 ha with ha | ha
    · exact hs.external a ha
    · cases List.mem_singleton.1 ha
      exact hi
  causes text cause' := by
    have hnone : l.ledger.causes.get? topic.text = none := by
      simpa [Ledger.contains, TextMap.contains] using hc
    simp only [started, TextMap.get?_insert, List.mem_append, List.mem_singleton, Prod.mk.injEq,
      Work.attempt.injEq]
    by_cases ht : text = topic.text
    · subst ht
      simp only [if_true, Option.some.injEq]
      constructor
      · rintro rfl
        exact ⟨l.next, topic, resource, .inr ⟨rfl, rfl, rfl, rfl⟩, rfl⟩
      · rintro ⟨i, topic', resource', hp | ⟨-, -, -, rfl⟩, ht⟩
        · have hold := (hs.causes topic.text cause').2 ⟨i, topic', resource', hp, ht⟩
          rw [hnone] at hold
          cases hold
        · rfl
    · rw [if_neg ht, hs.causes text cause']
      constructor
      · rintro ⟨i, topic', resource', hp, ht'⟩
        exact ⟨i, topic', resource', .inl hp, ht'⟩
      · rintro ⟨i, topic', resource', hp | ⟨-, rfl, -, -⟩, ht'⟩
        · exact ⟨i, topic', resource', hp, ht'⟩
        · exact absurd ht'.symm ht

theorem offer (hs : l.Sound) (t : Trigger) : (l.offer t).Sound := by
  rcases offer_cases l t with ⟨-, w, hw, he⟩ | ⟨topic, -, ⟨-, he⟩ | ⟨-, -, he⟩ | ⟨hi, hc, he⟩⟩
  · rw [he]
    exact hs.started_of_topic?_eq_none hw
  · rw [he]
    exact hs
  · rw [he]
    exact ⟨hs.numbers, hs.fresh, hs.single, hs.external, hs.causes⟩
  · rw [he]
    exact hs.started_attempt hi hc

theorem offerAll (hs : l.Sound) (ts : List Trigger) : (ts.foldl Loop.offer l).Sound := by
  induction ts generalizing l with
  | nil => exact hs
  | cons t ts ih => exact ih (hs.offer t)

/-- Work under one number is one piece of work. -/
theorem work_eq (hs : l.Sound) {v : Work} (hv : (id, v) ∈ l.running) (hw : (id, w) ∈ l.running) :
    v = w := by
  have heq : (id, v) = (id, w) := List.inj_on_of_nodup_map hs.numbers hv hw rfl
  exact (Prod.mk.inj heq).2

/-- Attempts at one topic are one attempt. -/
theorem id_eq (hs : l.Sound) {i j : Nat} {topic : TopicName} {r r' : Option ResourceName}
    {cause cause' : String} (hi : (i, .attempt topic r cause) ∈ l.running)
    (hj : (j, .attempt topic r' cause') ∈ l.running) : i = j := by
  have hpair := List.pairwise_filterMap.1 hs.single
  have hsymm : Std.Symm fun p q : Nat × Work =>
      ∀ a, p.2.topic? = some a → ∀ b, q.2.topic? = some b → a ≠ b :=
    ⟨fun p q h a ha b hb => (h b hb a ha).symm⟩
  refine Decidable.byContradiction fun hne => ?_
  have hdistinct := hpair.forall hi hj fun heq => hne (Prod.mk.inj heq).1
  exact hdistinct topic rfl topic rfl rfl

theorem without (hs : l.Sound) (hw : (id, w) ∈ l.running) (hc : w.EndsWith c) :
    (l.without id c).Sound where
  numbers := hs.numbers.sublist (List.filter_sublist.map _)
  fresh p hp := hs.fresh p (List.mem_of_mem_filter hp)
  single := hs.single.sublist (List.filter_sublist.filterMap _)
  external topic ht := hs.external topic ((List.filter_sublist.filterMap _).mem ht)
  causes text cause := by
    have hmem : ∀ p, p ∈ (l.without id c).running ↔ p ∈ l.running ∧ p.1 ≠ id := by
      intro p
      simp [Loop.without]
    simp only [hmem]
    cases hc with
    | attempt topic resource cause' result =>
      have hledger : (l.without id (.reconciled topic result)).ledger.causes.get? text =
          if text = topic.text then none else l.ledger.causes.get? text :=
        TextMap.get?_erase _ _ _
      rw [hledger]
      by_cases ht : text = topic.text
      · subst ht
        simp only [if_true, reduceCtorEq, false_iff]
        rintro ⟨i, topic', resource', ⟨hp, hne⟩, ht⟩
        cases TopicName.ext ht
        exact hne (hs.id_eq hp hw)
      · rw [if_neg ht, hs.causes text cause]
        constructor
        · rintro ⟨i, topic', resource', hp, ht'⟩
          refine ⟨i, topic', resource', ⟨hp, ?_⟩, ht'⟩
          rintro rfl
          cases hs.work_eq hp hw
          exact ht ht'.symm
        · rintro ⟨i, topic', resource', ⟨hp, -⟩, ht'⟩
          exact ⟨i, topic', resource', hp, ht'⟩
    | _ =>
      refine (hs.causes text cause).trans ?_
      constructor
      · rintro ⟨i, topic, resource, hp, ht⟩
        refine ⟨i, topic, resource, ⟨hp, ?_⟩, ht⟩
        rintro rfl
        cases hs.work_eq hp hw
      · rintro ⟨i, topic, resource, ⟨hp, -⟩, ht⟩
        exact ⟨i, topic, resource, hp, ht⟩

theorem complete (hs : l.Sound) (hw : (id, w) ∈ l.running) (hc : w.EndsWith c) :
    (l.complete id c).Sound :=
  (hs.without hw hc).offerAll c.followUps

end Sound

namespace History

theorem sound_loop {o : Operator} {h : History} (hp : h.Possible o) : h.loop.Sound := by
  induction hp with
  | start => exact sound_empty
  | offered t _ _ ih => exact ih.offer t
  | closed _ _ ih => exact ih
  | finished _ hw hc ih => exact ih.complete hw (Work.endsWith_of_yields hc)

/-- At every point of every run, the entries of the ledger are the topics and causes of the attempts
under way; these are about distinct topics, none of them internal; and when the loop has ended, the
ledger is empty. -/
theorem ledger_exact {o : Operator} {h : History} (hp : h.Possible o) :
    (∀ text cause, h.loop.ledger.causes.get? text = some cause ↔
      ∃ id topic resource,
        (id, .attempt topic resource cause) ∈ h.loop.running ∧ topic.text = text) ∧
    h.loop.topics.Nodup ∧
    (∀ topic ∈ h.loop.topics, topic.isInternal = false) ∧
    (h.Ended → h.loop.ledger = .empty) := by
  have hs := sound_loop hp
  refine ⟨hs.causes, hs.single, hs.external, ?_⟩
  rintro ⟨-, hidle⟩
  have hnone : ∀ text, h.loop.ledger.causes.get? text = none := by
    intro text
    refine Option.eq_none_iff_forall_ne_some.2 fun cause hc => ?_
    obtain ⟨id, topic, resource, hp, -⟩ := (hs.causes text cause).1 hc
    rw [hidle] at hp
    cases hp
  have hcauses : h.loop.ledger.causes = TextMap.empty := TextMap.ext hnone
  cases hl : h.loop.ledger with
  | mk causes =>
    rw [hl] at hcauses
    exact congrArg Ledger.mk hcauses

/-- Two triggers for one topic, of which the second is dropped; the channel is closed, and the
attempt fails because the store cannot be read. -/
def unreadableStore (topic : TopicName) : History :=
  [.finished 0 (.reconciled topic (.error (.store (.notFound topic.text)))), .closed,
    .offered (.kafkaTopicChanged topic), .offered (.resync topic none)]

theorem possible_unreadableStore {o : Operator} {topic : TopicName}
    (hi : topic.isInternal = false) :
    (unreadableStore topic).Possible o := by
  have hyields : ((Work.attempt topic none "Resync").task o).Yields
      (.reconciled topic (.error (.store (.notFound topic.text)))) :=
    -- After the failed read there are only counts and a warning.
    .ask () (.ask (.error (.notFound topic.text))
      (.ask () (.ask () (.ask () (.ask () (.done _))))))
  refine .finished (.closed (.offered _ (.offered _ .start rfl) rfl) rfl) ?_ hyields
  have hdropped : ∀ l : Loop, l.ledger.contains topic = true →
      l.offer (.kafkaTopicChanged topic) = { l with dropped := l.dropped + 1 } := by
    intro l hl
    rw [offer_of_topic rfl, hi, hl]
    rfl
  rw [loop, loop, loop, loop, offer_empty rfl hi, hdropped]
  · exact .head _
  · simp [started, Ledger.contains, TextMap.contains, TextMap.get?_insert]

theorem ledger_exact_unreadableStore :
    ∃ topic : TopicName, topic.text = "orders" ∧
      (unreadableStore topic).Possible ⟨.managed, .default⟩ ∧
      (unreadableStore topic).loop.dropped = 1 ∧
      (unreadableStore topic).loop.ledger = .empty := by
  have hp : (unreadableStore ⟨"orders", by decide⟩).Possible ⟨.managed, .default⟩ :=
    possible_unreadableStore (by decide)
  have hended : (unreadableStore ⟨"orders", by decide⟩).Ended := ⟨rfl, by decide +kernel⟩
  exact ⟨_, rfl, hp, by decide +kernel, (ledger_exact hp).2.2.2 hended⟩

end History

end Loop

end TopicSync
