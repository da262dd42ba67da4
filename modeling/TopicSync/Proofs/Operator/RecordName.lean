import TopicSync.Proofs.Memory.Undisturbed
import TopicSync.Proofs.Operator.Attempt

/-!
Under which name a record keeps the resource of its topic, and so where an attempt looks that is
told of no resource. A plan that writes the record gives it the name of the resource that the plan
is made with. A plan without actions leaves the record with the name that it has, which may be that
of an earlier resource.
-/
namespace TopicSync

/-- What is left of a record when the action is carried out. -/
def Action.record (stored : Option Topic) : Action → Option Topic
  | createStored t | updateStored t => some t
  | deleteStored _ => none
  | _ => stored

/-- What is left of a record when a plan is carried out. -/
def Plan.record (stored : Option Topic) (p : Plan) : Option Topic :=
  p.actions.foldl Action.record stored

namespace Bindings

variable {m : Bindings} {t : Topic} {name : TopicName} {u : Unit}

theorem get?_after_create (h : m.Answers (.create t) (.ok u)) :
    (m.after (.create t)).get? t.name = some t := by
  by_cases hbound : m.bound t.name = true
  · rw [Answers, if_pos hbound] at h
    cases h
  · rw [after, if_neg hbound]
    exact if_pos rfl

theorem get?_after_update (h : m.Answers (.update t) (.ok u)) :
    (m.after (.update t)).get? t.name = some t := by
  by_cases hbound : m.bound t.name = true
  · rw [after, if_pos hbound]
    exact if_pos rfl
  · rw [Answers, if_neg hbound] at h
    cases h

theorem get?_after_delete (h : m.Answers (.delete name) (.ok u)) :
    (m.after (.delete name)).get? name = none := by
  by_cases hbound : m.bound name = true
  · rw [after, if_pos hbound]
    exact if_pos rfl
  · rw [Answers, if_neg hbound] at h
    cases h

end Bindings

section Carried

variable {stored : Option Topic} {a : Action}

theorem Action.record_of_not_isOnRecord (h : a.isOnRecord = false) : a.record stored = stored := by
  cases a with
  | createStored t => cases h
  | updateStored t => cases h
  | deleteStored name => cases h
  | _ => rfl

/-- The only calls on the store are those of actions on the record. -/
theorem Action.ne_store_of_calls {c : OperatorCall} (ha : a.isOnRecord = false) (h : a.Calls c)
    (sc : StoreCall) : c ≠ .store sc := by
  rintro rfl
  cases a with
  | createKafkaTopic t => simp [Calls] at h
  | warn reason message => simp [Calls] at h
  | createStored t => cases ha
  | updateStored t => cases ha
  | deleteStored name => cases ha
  | _ => cases h

end Carried

section Worlds

variable {σ : Type} {answer : (c : OperatorCall) → σ → c.Answer × σ} {R : σ → Bindings → Prop}
  {o : Operator} {subject : Subject} {topic : TopicName} {wanted kafka : Option Topic} {a : Action}
  {as : List Action} {s : σ} {m : Bindings}

/-- The world keeps records as a map does. Calls on the store may fail. -/
structure KeepsRecords (answer : (c : OperatorCall) → σ → c.Answer × σ) (R : σ → Bindings → Prop) :
    Prop where
  store : ∀ {s m} {c : StoreCall} {v : c.Value}, R s m → (answer (.store c) s).1 = .ok v →
    m.Answers c (.ok v) ∧ R (answer (.store c) s).2 (m.after c)
  others : ∀ {s m} {c : OperatorCall}, R s m → (∀ sc, c ≠ .store sc) → R (answer c s).2 m

namespace KeepsRecords

theorem of_only {α : Type} (h : KeepsRecords answer R) {p : Task α}
    (hp : p.Only fun c : OperatorCall => ∀ sc, c ≠ .store sc) (hm : R s m) :
    R (p.run answer s).2 m := by
  induction hp generalizing s with
  | done a => exact hm
  | ask hc _ ih => exact ih _ (h.others hm hc)

/-- An action that ends well leaves of the record what is to be left of it. -/
theorem record_execute (h : KeepsRecords answer R) (hm : R s m) (ha : a.About topic wanted kafka)
    (hok : ((o.execute subject a).run answer s).1 = .ok ()) :
    ∃ m', R ((o.execute subject a).run answer s).2 m' ∧
      m'.get? topic = a.record (m.get? topic) := by
  by_cases hrecord : a.isOnRecord = true
  · cases a with
    | createStored t =>
      obtain ⟨u, hu⟩ := Operator.ok_of_mapError hok
      obtain ⟨hanswer, hafter⟩ := h.store hm hu
      have ht : t.name = topic := ha
      exact ⟨_, hafter, ht ▸ Bindings.get?_after_create hanswer⟩
    | updateStored t =>
      obtain ⟨u, hu⟩ := Operator.ok_of_mapError hok
      obtain ⟨hanswer, hafter⟩ := h.store hm hu
      have ht : t.name = topic := ha
      exact ⟨_, hafter, ht ▸ Bindings.get?_after_update hanswer⟩
    | deleteStored name =>
      obtain ⟨u, hu⟩ := Operator.ok_of_mapError hok
      obtain ⟨hanswer, hafter⟩ := h.store hm hu
      have hname : name = topic := ha
      exact ⟨_, hafter, hname ▸ Bindings.get?_after_delete hanswer⟩
    | _ => cases hrecord
  · rw [Bool.not_eq_true] at hrecord
    have hcalls := (o.calls_execute subject a).mono fun c => Action.ne_store_of_calls hrecord
    exact ⟨m, h.of_only hcalls hm, (Action.record_of_not_isOnRecord hrecord).symm⟩

theorem record_forAll (h : KeepsRecords answer R) (hm : R s m)
    (ha : ∀ a ∈ as, a.About topic wanted kafka)
    (hok : ((Program.forAll (o.execute subject) as).run answer s).1 = .ok ()) :
    ∃ m', R ((Program.forAll (o.execute subject) as).run answer s).2 m' ∧
      m'.get? topic = as.foldl Action.record (m.get? topic) := by
  induction as generalizing s m with
  | nil => exact ⟨m, hm, rfl⟩
  | cons a as ih =>
    obtain ⟨hhead, htail⟩ := List.forall_mem_cons.1 ha
    rw [Program.run_forAll_cons] at hok ⊢
    cases hrun : ((o.execute subject a).run answer s).1 with
    | error e =>
      rw [hrun] at hok
      cases hok
    | ok u =>
      rw [hrun] at hok
      obtain ⟨m', hm', hget⟩ := h.record_execute hm hhead hrun
      obtain ⟨m'', hm'', hget'⟩ := ih hm' htail hok
      exact ⟨m'', hm'', by rw [hget', hget, List.foldl_cons]⟩

end KeepsRecords

end Worlds

/-- The world in memory keeps records, whatever failures are arranged in it. -/
theorem Memory.World.keepsRecords :
    KeepsRecords answer fun w m => HierarchicalStore.Represents m w.store w.tree where
  store {w m c v} hm hv := by
    rw [answer] at hv ⊢
    split at hv
    next => cases hv
    next w' hf =>
      have hsame := SameState.of_nextFault hf
      have hserved := performStore_represents (w := w') (hsame.store ▸ hsame.tree ▸ hm) c
      exact ⟨hv ▸ hserved.1, hserved.2⟩
  others {w m c} hm hc := by
    cases c with
    | store sc => exact absurd rfl (hc sc)
    | broker bc =>
      rw [answer]
      split <;>
        next hf =>
          have hsame := SameState.of_nextFault hf
          exact hsame.store ▸ hsame.tree ▸ hm
    | resource rc =>
      rw [answer]
      split <;>
        next hf =>
          have hsame := SameState.of_nextFault hf
          exact hsame.store ▸ hsame.tree ▸ hm
    | _ => exact hm

/-- Any record can be in the store. -/
theorem Memory.World.exists_record (t : Topic) :
    ∃ (w : World) (m : Bindings),
      HierarchicalStore.Represents m w.store w.tree ∧ m.get? t.name = some t := by
  have husable : HierarchicalStore.UsablePrefix "kafka-topic-store" := by decide +kernel
  have hempty : HierarchicalStore.Represents .empty empty.store empty.tree :=
    HierarchicalStore.represents_fresh husable
  exact ⟨_, _, (performStore_represents hempty (.create t)).2,
    Bindings.get?_after_create (u := ()) rfl⟩

namespace Plan

variable {managed : Selector} {stored kafka : Option Topic} {resource : Topic} {p : Plan}

/-- Unless the topic is gone from the brokers, a plan with a resource leaves a record: one with the
name of the resource, or with no actions the one that was there. -/
theorem record_of_resource (h : make managed stored (some resource) kafka = .ok p)
    (hkafka : stored.isSome → kafka.isSome) :
    (∃ t, p.record stored = some t ∧ t.resourceName = resource.resourceName ∧ p.actions ≠ []) ∨
      ∃ t topic, stored = some t ∧ kafka = some topic ∧ p.actions = [] ∧
        ∀ f, ¬ topic.Edits t f ∧ ¬ resource.Edits t f := by
  cases made_of_make h with
  | createsTopic => exact .inl ⟨resource, rfl, rfl, List.cons_ne_nil _ _⟩
  | records => exact .inl ⟨resource, rfl, rfl, List.cons_ne_nil _ _⟩
  | overwrites => exact .inl ⟨_, rfl, rfl, List.cons_ne_nil _ _⟩
  | deletesResource => cases hkafka rfl
  | keeps record _ topic hno => exact .inr ⟨record, topic, rfl, rfl, rfl, hno⟩
  | merges record _ topic =>
    refine .inl ⟨merged record resource topic, ?_, rfl, by simp [steps]⟩
    rw [Plan.record, steps, List.foldl_append]
    rfl

/-- Wherever records are kept, this is left of the record of the topic when the plan is carried out
and nothing fails. -/
def Leaves (p : Plan) (topic : TopicName) (stored left : Option Topic) : Prop :=
  ∀ (o : Operator) (subject : Subject) (σ : Type) (answer : (c : OperatorCall) → σ → c.Answer × σ)
    (R : σ → Bindings → Prop) (s : σ) (m : Bindings),
    KeepsRecords answer R → R s m → m.get? topic = stored →
      ((Program.forAll (o.execute subject) p.actions).run answer s).1 = .ok () →
        ∃ m', R ((Program.forAll (o.execute subject) p.actions).run answer s).2 m' ∧
          m'.get? topic = left

theorem leaves_record {topic : TopicName} {wanted : Option Topic}
    (h : make managed stored wanted kafka = .ok p) (hstored : ∀ t ∈ stored, t.name = topic)
    (hwanted : ∀ t ∈ wanted, t.name = topic) (hkafka : ∀ t ∈ kafka, t.name = topic) :
    p.Leaves topic stored (p.record stored) := by
  rintro o subject σ answer R s m hkeeps hm rfl hok
  exact hkeeps.record_forAll hm (fun _ => about_of_make h hstored hwanted hkafka) hok

end Plan

namespace Operator

/-- An attempt that is told of no resource, and reads this record, next looks for the resource of
this name. -/
def LooksFor (o : Operator) (stored : Option Topic) (name : ResourceName) : Prop :=
  ∀ (topic : TopicName) (σ : Type) (answer : (c : OperatorCall) → σ → c.Answer × σ) (s : σ),
    (answer (.store (.read topic)) (answer (.count .reconciliation) s).2).1 = .ok stored →
      ∃ rest, ((o.reconcile topic none).moments answer s).map Prod.fst =
        .count .reconciliation :: .store (.read topic) :: .resource (.get name) :: rest

theorem looksFor_record (o : Operator) (t : Topic) : o.LooksFor (some t) t.resourceName := by
  intro topic σ answer s hread
  rw [reconcile_eq, Program.moments_ask, Program.moments_bind, attempt, Task.moments_store, hread]
  exact ⟨_, rfl⟩

end Operator

/-- A plan with a resource, for a topic that the brokers have or that has no record, leaves a record
by which the resource is looked for. If anything is done, it has the name of the resource. If
nothing is done, then because neither side was edited, and the record keeps the name it has. -/
theorem Plan.record_names_resource {managed : Selector} {stored kafka : Option Topic}
    {resource : Topic} {p : Plan} (h : make managed stored (some resource) kafka = .ok p)
    (hkafka : stored.isSome → kafka.isSome) (hstored : ∀ t ∈ stored, t.name = resource.name)
    (hname : ∀ t ∈ kafka, t.name = resource.name) :
    ∃ t, p.Leaves resource.name stored (some t) ∧
      (∀ o : Operator, o.LooksFor (some t) t.resourceName) ∧
      (p.actions ≠ [] → t.resourceName = resource.resourceName) ∧
      (p.actions = [] → stored = some t ∧
        ∃ topic, kafka = some topic ∧ ∀ f, ¬ topic.Edits t f ∧ ¬ resource.Edits t f) := by
  have hleaves := leaves_record h hstored (by simp) hname
  rcases record_of_resource h hkafka with
    ⟨t, ht, hnew, hne⟩ | ⟨t, topic, rfl, hk, hnil, hno⟩
  · rw [ht] at hleaves
    exact ⟨t, hleaves, fun o => o.looksFor_record t, fun _ => hnew, fun hnil => absurd hnil hne⟩
  · have ht : p.record (some t) = some t := by rw [record, hnil]; rfl
    rw [ht] at hleaves
    exact ⟨t, hleaves, fun o => o.looksFor_record t, fun hne => absurd hnil hne,
      fun _ => ⟨rfl, topic, hk, hno⟩⟩

namespace Plan

/-- The resource of `orders` after it was created anew under another name. -/
def renamedResource : Topic := { ordersResource with resourceName := ⟨"orders-new"⟩ }

/-- With edits on both sides, the record takes up the new name. -/
theorem record_names_renamedResource :
    ∃ p, make .managed (some ordersStored) (some renamedResource) (some ordersKafka) = .ok p ∧
      ((some ordersStored).isSome → (some ordersKafka).isSome) ∧
      (∀ t ∈ some ordersStored, t.name = renamedResource.name) ∧
      (∀ t ∈ some ordersKafka, t.name = renamedResource.name) ∧
      ∃ t, p.Leaves renamedResource.name (some ordersStored) (some t) ∧
        ∀ o : Operator, o.LooksFor (some t) ⟨"orders-new"⟩ := by
  have hp : make .managed (some ordersStored) (some renamedResource) (some ordersKafka) =
      .ok ⟨.merge, steps ordersKafka (merged ordersStored renamedResource ordersKafka)⟩ := rfl
  have hstored : ∀ t ∈ some ordersStored, t.name = renamedResource.name := by rintro t ⟨⟩; rfl
  have hkafka : ∀ t ∈ some ordersKafka, t.name = renamedResource.name := by rintro t ⟨⟩; rfl
  refine ⟨_, hp, fun _ => rfl, hstored, hkafka, ?_⟩
  obtain ⟨t, hleaves, hlooks, hname, -⟩ :=
    record_names_resource hp (fun _ => rfl) hstored hkafka
  have hnew : t.resourceName = ⟨"orders-new"⟩ := hname (by simp [steps])
  exact ⟨t, hleaves, hnew ▸ hlooks⟩

/-- A plan without actions leaves the record that was there, such as in the world in memory. -/
theorem eq_of_leaves {p : Plan} {t : Topic} {left : Option Topic} (hp : p.actions = [])
    (h : p.Leaves t.name (some t) left) : left = some t := by
  obtain ⟨w, m, hm, hget⟩ := Memory.World.exists_record t
  have hrun : ∀ o subject, (Program.forAll (Operator.execute o subject) p.actions).run
      Memory.World.answer w = (.ok (), w) := by
    intro o subject
    rw [hp]
    rfl
  obtain ⟨m', hm', hleft⟩ := h ⟨.managed, .default⟩ ⟨t.resourceName, none⟩ Memory.World
    Memory.World.answer _ w m Memory.World.keepsRecords hm hget (congrArg Prod.fst (hrun _ _))
  rw [hrun] at hm'
  have hsame := Memory.World.record_of_represents hm t.name
  have hsame' := Memory.World.record_of_represents hm' t.name
  exact hleft.symm.trans (hsame'.symm.trans (hsame.trans hget))

/-- When nothing is to be done, the record keeps the name of a resource that is no more. -/
theorem not_record_names_resource :
    ¬ ∀ (managed : Selector) (stored kafka : Option Topic) (resource : Topic) (p : Plan),
      make managed stored (some resource) kafka = .ok p → (stored.isSome → kafka.isSome) →
        (∀ t ∈ stored, t.name = resource.name) → (∀ t ∈ kafka, t.name = resource.name) →
          ∃ t, p.Leaves resource.name stored (some t) ∧
            t.resourceName = resource.resourceName := by
  intro h
  let stored : Topic := { ordersStored with resourceName := ⟨"orders-old"⟩ }
  let resource : Topic := { ordersStored with resourceName := ⟨"orders-new"⟩ }
  let kafka : Topic := { ordersStored with labels := none }
  have hp : make .managed (some stored) (some resource) (some kafka) = .ok ⟨.merge, []⟩ := rfl
  obtain ⟨t, hleaves, hname⟩ := h _ _ _ _ _ hp (fun _ => rfl) (by rintro t ⟨⟩; rfl)
    (by rintro t ⟨⟩; rfl)
  cases eq_of_leaves (t := stored) rfl hleaves
  exact absurd hname (by decide)

end Plan

end TopicSync
