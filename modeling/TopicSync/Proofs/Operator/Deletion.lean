import TopicSync.Operator.Loop
import TopicSync.Proofs.Memory.World
import TopicSync.Proofs.Plan.Cases
import TopicSync.Proofs.Program

/-!
When the operator deletes a topic. Only an attempt deletes one, and only after it has read a record,
has found no resource under the one name that it looks at, and has been shown the topic by the
brokers. Resources under other names are not looked for, be they managed and about the topic.
-/
namespace TopicSync

/-- The call deletes a topic at the brokers. -/
def OperatorCall.DeletesTopic (c : OperatorCall) : Prop := ∃ name, c = .broker (.delete name)

/-- A plan that deletes a topic is the one for a record and a topic without a resource. -/
theorem Plan.of_deleteKafkaTopic_mem {managed : Selector} {stored wanted kafka : Option Topic}
    {p : Plan} {name : TopicName} (h : make managed stored wanted kafka = .ok p)
    (hd : .deleteKafkaTopic name ∈ p.actions) :
    ∃ record topic, stored = some record ∧ wanted = none ∧ kafka = some topic ∧
      p.actions = [.deleteKafkaTopic topic.name, .deleteStored record.name] := by
  cases made_of_make h with
  | deletesTopic record topic => exact ⟨record, topic, rfl, rfl, rfl, rfl⟩
  | _ => simp [overwriteWarning, steps, preparations] at hd

namespace Task

variable {α σ : Type} {answer : (c : OperatorCall) → σ → c.Answer × σ}

@[simp] theorem moments_broker (c : BrokerCall) (f : c.Answer → Task α) (w : σ) :
    ((broker c).bind f).moments answer w =
      (.broker c, w) :: (f (answer (.broker c) w).1).moments answer (answer (.broker c) w).2 := rfl
@[simp] theorem moments_store (c : StoreCall) (f : c.Answer → Task α) (w : σ) :
    ((store c).bind f).moments answer w =
      (.store c, w) :: (f (answer (.store c) w).1).moments answer (answer (.store c) w).2 := rfl

end Task

namespace Operator

variable {σ : Type} {answer : (c : OperatorCall) → σ → c.Answer × σ} {o : Operator}
  {topic name : TopicName} {named : Option ResourceName} {s : Subject} {w w' : σ}

/-- Calls that leave the topics be. -/
abbrev Spares (c : OperatorCall) : Prop := ¬ c.DeletesTopic

theorem spares_broker {c : BrokerCall} (h : ∀ n, c ≠ .delete n) : (Task.broker c).Only Spares := by
  refine .ask ?_ fun _ => .done _
  rintro ⟨n, hn⟩
  cases hn
  exact h n rfl

theorem spares_resource (c : ResourceCall) : (Task.resource c).Only Spares :=
  .ask (by rintro ⟨n, ⟨⟩⟩) fun _ => .done _

theorem spares_store (c : StoreCall) : (Task.store c).Only Spares :=
  .ask (by rintro ⟨n, ⟨⟩⟩) fun _ => .done _

theorem spares_wait (ms : Nat) : (Task.wait ms).Only Spares :=
  .ask (by rintro ⟨n, ⟨⟩⟩) fun _ => .done _

theorem spares_count (m : Metric) : (Task.count m).Only Spares :=
  .ask (by rintro ⟨n, ⟨⟩⟩) fun _ => .done _

theorem spares_warn (x : Warning) : (Task.warn x).Only Spares :=
  (spares_count .warningEvent).bind fun _ => .ask (by rintro ⟨n, ⟨⟩⟩) fun _ => .done _

theorem spares_report (resource : ResourceName) (r : Report) : (report resource r).Only Spares :=
  (spares_resource _).bind fun _ => .done _

theorem spares_reportFailure (s : Subject) (e : Failure) : (reportFailure s e).Only Spares := by
  rw [reportFailure]
  split
  · exact .done _
  · exact spares_report _ _

theorem spares_reportReady (s : Subject) (d : Decision) : (reportReady s d).Only Spares := by
  rw [reportReady]
  split
  · exact .done _
  · split
    · exact .done _
    · exact spares_report _ _

/-- Actions other than the deletion of a topic delete none. -/
theorem spares_execute (o : Operator) (s : Subject) {a : Action}
    (h : ∀ n, a ≠ .deleteKafkaTopic n) : (o.execute s a).Only Spares := by
  cases a with
  | createKafkaTopic t =>
    refine (spares_broker (by simp)).bind fun created => ?_
    cases created with
    | error e => exact .done _
    | ok _ =>
      refine (Program.Only.await (spares_broker (by simp)) spares_wait _ _).bind fun seen => ?_
      cases seen <;> exact .done _
  | deleteKafkaTopic n => exact absurd rfl (h n)
  | changeReplicationFactor t => exact spares_broker (by simp)
  | updateKafkaConfig t => exact spares_broker (by simp)
  | increaseKafkaPartitions t => exact spares_broker (by simp)
  | createResource t => exact spares_resource _
  | updateResource t => exact spares_resource _
  | deleteResource n => exact spares_resource _
  | createStored t => exact (spares_store _).bind fun _ => .done _
  | updateStored t => exact (spares_store _).bind fun _ => .done _
  | deleteStored n => exact (spares_store _).bind fun _ => .done _
  | warn reason message => exact (spares_warn _).bind fun _ => .done _

theorem live_eq_none_of_described (h : described topic s = .ok none) : s.live = none := by
  rw [described] at h
  split at h
  · assumption
  · split at h
    · cases h
    · split at h <;> cases h

/-- Of the calls for a plan with a deletion, the deletion is the first. -/
theorem of_delete_mem_forAll {p : Plan} {stored wanted kafka : Option Topic}
    (h : Plan.make o.managed stored wanted kafka = .ok p)
    (hm : (.broker (.delete name), w') ∈
      (Program.forAll (o.execute s) p.actions).moments answer w) :
    ∃ record t, stored = some record ∧ wanted = none ∧ kafka = some t ∧ name = t.name ∧
      w' = w := by
  by_cases hd : ∃ n, .deleteKafkaTopic n ∈ p.actions
  · obtain ⟨n, hn⟩ := hd
    obtain ⟨record, t, hs, hr, hk, hp⟩ := Plan.of_deleteKafkaTopic_mem h hn
    rw [hp, Program.forAll] at hm
    rcases List.mem_cons.1 hm with he | hm
    · cases he
      exact ⟨record, t, hs, hr, hk, rfl, rfl⟩
    · have honly : (Program.forAll (o.execute s) [.deleteStored record.name]).Only Spares :=
        .forAll fun a ha => spares_execute o s (by rintro n rfl; simp at ha)
      cases hdel : (answer (.broker (.delete t.name)) w).1 with
      | error e =>
        rw [hdel] at hm
        cases hm
      | ok _ =>
        rw [hdel] at hm
        exact absurd ⟨name, rfl⟩ (honly.of_mem_moments hm)
  · have honly : (Program.forAll (o.execute s) p.actions).Only Spares :=
      .forAll fun a ha => spares_execute o s (by rintro n rfl; exact hd ⟨n, ha⟩)
    exact absurd ⟨name, rfl⟩ (honly.of_mem_moments hm)

theorem of_delete_mem_settle {stored : Option Topic}
    (hm : (.broker (.delete name), w') ∈ (o.settle topic stored s).moments answer w) :
    ∃ record t, stored = some record ∧ s.live = none ∧
      answer (.broker (.read topic)) w = (.ok (some t), w') ∧ name = t.name := by
  rw [settle] at hm
  cases hd : described topic s with
  | error e =>
    rw [hd] at hm
    cases hm
  | ok wanted =>
    rw [hd] at hm
    simp only [Task.moments_broker] at hm
    rcases List.mem_cons.1 hm with he | hm
    · cases he
    · cases hk : answer (.broker (.read topic)) w with
      | mk found w₁ =>
        rw [hk] at hm
        cases found with
        | error e => cases hm
        | ok kafka =>
          cases hp : Plan.make o.managed stored wanted kafka with
          | error e =>
            simp only [hp] at hm
            cases hm
          | ok p =>
            simp only [hp, Program.moments_bind] at hm
            rcases List.mem_append.1 hm with hm | hm
            · obtain ⟨record, t, hs, rfl, rfl, hn, rfl⟩ := of_delete_mem_forAll hp hm
              exact ⟨record, t, hs, live_eq_none_of_described hd, rfl, hn⟩
            · split at hm <;> cases hm

theorem of_delete_mem_attempt
    (hm : (.broker (.delete name), w') ∈ (o.attempt topic named).moments answer w) :
    ∃ record t w₁ w₂, answer (.store (.read topic)) w = (.ok (some record), w₁) ∧
      answer (.resource (.get (resourceFor topic named (some record)))) w₁ = (.ok none, w₂) ∧
      answer (.broker (.read topic)) w₂ = (.ok (some t), w') ∧ name = t.name := by
  rw [attempt, Task.moments_store] at hm
  rcases List.mem_cons.1 hm with he | hm
  · cases he
  cases hs : answer (.store (.read topic)) w with
  | mk found w₁ =>
    rw [hs] at hm
    cases found with
    | error e => cases hm
    | ok stored =>
      rcases List.mem_cons.1 hm with he | hm
      · cases he
      cases hr : answer (.resource (.get (resourceFor topic named stored))) w₁ with
      | mk got w₂ =>
        simp only [hr] at hm
        cases got with
        | error e => cases hm
        | ok live =>
          simp only [Program.bind] at hm
          split at hm
          · cases hm
          · rw [Program.moments_bind] at hm
            rcases List.mem_append.1 hm with hm | hm
            · obtain ⟨record, t, rfl, rfl, hk, hn⟩ := of_delete_mem_settle hm
              exact ⟨record, t, w₁, w₂, rfl, hr, hk, hn⟩
            · cases hm

/-- What goes before the deletion of a topic: the record is read, no resource is found, and the
brokers show the topic. -/
theorem of_delete_mem_reconcile
    (hm : (.broker (.delete name), w') ∈ (o.reconcile topic named).moments answer w) :
    ∃ record t w₀ w₁ w₂, answer (.store (.read topic)) w₀ = (.ok (some record), w₁) ∧
      answer (.resource (.get (resourceFor topic named (some record)))) w₁ = (.ok none, w₂) ∧
      answer (.broker (.read topic)) w₂ = (.ok (some t), w') ∧ name = t.name := by
  rcases List.mem_cons.1 hm with he | hm
  · cases he
  change _ ∈ ((o.attempt topic named).bind _).moments answer _ at hm
  rw [Program.moments_bind] at hm
  rcases List.mem_append.1 hm with hm | hm
  · obtain ⟨record, t, w₁, w₂, hs, hr, hk, hn⟩ := of_delete_mem_attempt hm
    exact ⟨record, t, _, w₁, w₂, hs, hr, hk, hn⟩
  · -- The reports that follow an attempt delete nothing.
    refine absurd ⟨name, rfl⟩ (Program.Only.of_mem_moments (P := Spares) ?_ hm)
    generalize ((o.attempt topic named).run answer _).1 = outcome
    obtain ⟨s, result⟩ := outcome
    refine (spares_count _).bind fun _ => ?_
    match result with
    | .ok none => exact .done _
    | .ok (some d) => exact (spares_reportReady s d).bind fun _ => .done _
    | .error e =>
      exact (spares_count _).bind fun _ => (spares_warn _).bind fun _ =>
        (spares_reportFailure s e).bind fun _ => .done _

end Operator

/-- A trigger that is about a topic starts nothing but an attempt at it. -/
theorem Ledger.work_of_topic {l l' : Ledger} {t : Trigger} {work : Work} {topic : TopicName}
    (ht : t.topic? = some topic) (h : l.admission t = (.started work, l')) :
    work = .attempt topic t.resource? t.cause := by
  cases t <;> simp only [Trigger.topic?, Option.some.injEq, reduceCtorEq] at ht
  all_goals
    subst ht
    simp only [admission, Trigger.topic?] at h
    split at h
    · cases h
    · split at h <;> cases h
      rfl

/-- The work of an admitted trigger is a sweep, a rejection, or an attempt at its topic. -/
theorem Ledger.work_of_admission {l l' : Ledger} {t : Trigger} {work : Work}
    (h : l.admission t = (.started work, l')) :
    work = .sweep ∨ (∃ resource reason, work = .reject resource reason) ∨
      ∃ topic, t.topic? = some topic ∧ work = .attempt topic t.resource? t.cause := by
  cases t with
  | sweep =>
    cases h
    exact .inl rfl
  | resourceRejected resource reason =>
    cases h
    exact .inr (.inl ⟨_, _, rfl⟩)
  | _ => exact .inr (.inr ⟨_, rfl, work_of_topic rfl h⟩)

namespace Work

variable {σ : Type} {answer : (c : OperatorCall) → σ → c.Answer × σ} {o : Operator}
  {name : TopicName} {w w' : σ}

theorem spares_sweep (o : Operator) : (sweep.task o).Only Operator.Spares :=
  .bind
    ((Operator.spares_broker (by simp)).bind fun _ =>
      (Operator.spares_store _).bind fun _ =>
      (Operator.spares_resource _).bind fun _ => .done _)
    fun _ => .done _

theorem spares_reject (o : Operator) (resource : ResourceName) (reason : String) :
    ((reject resource reason).task o).Only Operator.Spares :=
  .bind
    ((Operator.spares_resource _).bind fun _ =>
      (Operator.spares_warn _).bind fun _ => Operator.spares_reportFailure _ _)
    fun _ => .done _

/-- Only an attempt deletes a topic. -/
theorem of_delete_mem_task {l l' : Ledger} {t : Trigger} {work : Work}
    (ha : l.admission t = (.started work, l'))
    (hm : (.broker (.delete name), w') ∈ (work.task o).moments answer w) :
    ∃ topic, t.topic? = some topic ∧
      (.broker (.delete name), w') ∈ (o.reconcile topic t.resource?).moments answer w := by
  rcases Ledger.work_of_admission ha with rfl | ⟨resource, reason, rfl⟩ | ⟨topic, ht, rfl⟩
  · exact absurd ⟨name, rfl⟩ ((spares_sweep o).of_mem_moments hm)
  · exact absurd ⟨name, rfl⟩ ((spares_reject o resource reason).of_mem_moments hm)
  · rw [task, Program.moments_bind] at hm
    rcases List.mem_append.1 hm with hm | hm
    · exact ⟨topic, ht, hm⟩
    · cases hm

end Work

/-- A managed resource that describes a topic. -/
structure Resource.Describes (r : Resource) (managed : Selector) (topic : TopicName) : Prop where
  managed : r.isManaged managed = true
  topic : r.topicName = .ok topic

namespace Memory.World

variable {o : Operator} {w w' : World} {name : TopicName}

/-- When the operator deletes a topic, the topic has a record and is held by the brokers, and there
is no resource, managed or not, under the name that the trigger gives, or the record if the trigger
gives none. A managed resource that describes the topic, if there is one, has another name. -/
theorem resource_absent_of_delete {l l' : Ledger} {t : Trigger} {work : Work}
    (ha : l.admission t = (.started work, l'))
    (hm : (.broker (.delete name), w') ∈ (work.task o).moments answer w) :
    ∃ topic record held, t.topic? = some topic ∧ w'.record topic = .ok (some record) ∧
      w'.brokers.topics.get? topic.text = some held ∧ name = held.name ∧
      w'.resources.byName.get? (t.resource?.getD record.resourceName).text = none ∧
      ∀ key r, w'.resources.byName.get? key = some r → r.Describes o.managed topic →
        key ≠ (t.resource?.getD record.resourceName).text := by
  obtain ⟨topic, ht, hm⟩ := Work.of_delete_mem_task ha hm
  obtain ⟨record, held, w₀, w₁, w₂, hs, hr, hk, hn⟩ := Operator.of_delete_mem_reconcile hm
  obtain ⟨habsent, hstore, htree⟩ := resource_of_get hr
  obtain ⟨hheld, hresources, hstore', htree'⟩ := topic_of_read hk
  have hname : Operator.resourceFor topic t.resource? (some record) =
      t.resource?.getD record.resourceName := by
    cases t.resource? <;> rfl
  have hrecord : w'.record topic = .ok (some record) := by
    rw [record_congr hstore' htree', record_congr hstore htree]
    exact record_of_read hs
  rw [hname, ← hresources] at habsent
  refine ⟨topic, record, held, ht, hrecord, hheld, hn, habsent, ?_⟩
  rintro key r hkey - rfl
  rw [habsent] at hkey
  cases hkey

/-- The topic `orders` with its resource and its record, all in agreement. -/
def ordersWorld : World :=
  ({ empty with
    brokers := Brokers.empty.put Plan.ordersStored
    resources := Resources.empty.create Plan.ordersStored 1 }.putRecord Plan.ordersStored).2

def ordersOperator : Operator := ⟨.managed, .default⟩

/-- Another resource for the topic is gone. -/
def ordersTrigger : Trigger := .resourceDeleted Plan.ordersStored.name ⟨"orders-copy"⟩

def ordersWork : Work :=
  .attempt Plan.ordersStored.name (some ⟨"orders-copy"⟩) "ResourceDeleted"

theorem ordersTrigger_admitted :
    Ledger.empty.admission ordersTrigger =
      (.started ordersWork, (Ledger.empty.admission ordersTrigger).2) := by
  have hstarted : (Ledger.empty.admission ordersTrigger).1 = .started ordersWork := by decide
  exact Prod.ext hstarted rfl

theorem ordersWork_deletes :
    ∃ w r, (.broker (.delete Plan.ordersStored.name), w) ∈
        (ordersWork.task ordersOperator).moments answer ordersWorld ∧
      w.resources.byName.get? "orders" = some r ∧
      r.isManaged .managed = true ∧ r.topicText = "orders" := by
  have hrun : (((ordersWork.task ordersOperator).moments answer ordersWorld).any fun m =>
      m.1 = .broker (.delete Plan.ordersStored.name) ∧
        (m.2.resources.byName.get? "orders").any fun r =>
          r.isManaged .managed && r.topicText = "orders") = true := by
    decide +kernel
  obtain ⟨⟨c, w⟩, hm, hc⟩ := List.any_eq_true.1 hrun
  simp only [decide_eq_true_eq, Option.any_eq_true, Bool.and_eq_true] at hc
  obtain ⟨rfl, r, hr, hmanaged, htext⟩ := hc
  exact ⟨w, r, hm, hr, hmanaged, htext⟩

theorem resource_absent_of_delete_orders :
    ∃ w, (.broker (.delete Plan.ordersStored.name), w) ∈
        (ordersWork.task ordersOperator).moments answer ordersWorld ∧
      w.resources.byName.get? "orders-copy" = none := by
  obtain ⟨w, -, hm, -⟩ := ordersWork_deletes
  obtain ⟨_, _, _, _, _, _, _, habsent, _⟩ := resource_absent_of_delete ordersTrigger_admitted hm
  exact ⟨w, hm, habsent⟩

/-- The topic is deleted although a managed resource, of another name than the trigger gives,
describes it. -/
theorem described_topic_deleted :
    (∃ l, Ledger.empty.admission ordersTrigger = (.started ordersWork, l)) ∧
      ∃ w r, (.broker (.delete Plan.ordersStored.name), w) ∈
          (ordersWork.task ordersOperator).moments answer ordersWorld ∧
        w.resources.byName.get? "orders" = some r ∧
        r.Describes ordersOperator.managed Plan.ordersStored.name := by
  obtain ⟨w, r, hm, hr, hmanaged, htext⟩ := ordersWork_deletes
  have htopic : r.topicName = .ok Plan.ordersStored.name := by
    rw [Resource.topicName, htext]
    rfl
  exact ⟨⟨_, ordersTrigger_admitted⟩, w, r, hm, hr, hmanaged, htopic⟩

end Memory.World

end TopicSync
