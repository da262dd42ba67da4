import TopicSync.Proofs.Operator.Calls
import TopicSync.Proofs.Operator.View

/-!
What an attempt is about: the record and the topic of one name, and two resources at most. One is
the resource that it looks at, which it writes only after it has found it and found it managed. The
other is the one that the brokers' topic would have, which it may create.
-/
namespace TopicSync

/-- The topic that a call on the brokers is about, unless it is about all of them. -/
def BrokerCall.topic? : BrokerCall → Option TopicName
  | read name | delete name => some name
  | create t | updateConfig t | increasePartitions t | changeReplicationFactor t => some t.name
  | describe | list => none

/-- The topic whose record a call is about, unless it is about all of them. -/
def StoreCall.topic? : StoreCall → Option TopicName
  | read name | delete name => some name
  | create t | update t => some t.name
  | list => none

/-- The resource that a call is about, unless it is about all of them. -/
def ResourceCall.name? : ResourceCall → Option ResourceName
  | get name | delete name | updateStatus name _ => some name
  | create t | update t => some t.resourceName
  | list => none

/-- A part of what the operator works on: a record, a topic at the brokers, or a resource. -/
inductive Part where
  | record (topic : TopicName)
  | topic (name : TopicName)
  | resource (name : ResourceName)
  deriving DecidableEq, Repr

/-- The parts that a call may read or write. -/
def OperatorCall.Concerns : OperatorCall → Part → Prop
  | .store c, .record name => ∀ n ∈ c.topic?, name = n
  | .broker c, .topic name => ∀ n ∈ c.topic?, name = n
  | .resource c, .resource name => ∀ n ∈ c.name?, name = n
  | _, _ => False

/-- What an action is about: the topic, the resource of the snapshot that was wanted, or in a
creation the one of the snapshot that the brokers hold. -/
def Action.About (topic : TopicName) (wanted kafka : Option Topic) : Action → Prop
  | .createKafkaTopic t | .changeReplicationFactor t | .updateKafkaConfig t
  | .increaseKafkaPartitions t | .createStored t | .updateStored t => t.name = topic
  | .deleteKafkaTopic name | .deleteStored name => name = topic
  | .createResource t => ∃ k ∈ kafka, t.resourceName = k.resourceName
  | .updateResource t => ∃ w ∈ wanted, t.resourceName = w.resourceName
  | .deleteResource name => ∃ w ∈ wanted, name = w.resourceName
  | .warn .. => True

/-- All of a plan is about the topic that it was made for. -/
theorem Plan.about_of_make {managed : Selector} {stored wanted kafka : Option Topic} {p : Plan}
    {topic : TopicName} (h : make managed stored wanted kafka = .ok p)
    (hstored : ∀ t ∈ stored, t.name = topic) (hwanted : ∀ t ∈ wanted, t.name = topic)
    (hkafka : ∀ t ∈ kafka, t.name = topic) {a : Action} (ha : a ∈ p.actions) :
    a.About topic wanted kafka := by
  cases made_of_make h with
  | nothing => cases ha
  | createsResource k t ht =>
    simp only [List.mem_cons, List.not_mem_nil, or_false] at ha
    rcases ha with rfl | rfl
    · exact ⟨k, rfl, by rw [ht]⟩
    · exact (congrArg Topic.name ht).trans (hkafka k rfl)
  | createsTopic r =>
    simp only [List.mem_cons, List.not_mem_nil, or_false] at ha
    rcases ha with rfl | rfl <;> exact hwanted r rfl
  | records r k =>
    rw [List.mem_singleton.1 ha]
    exact hwanted r rfl
  | overwrites r k =>
    simp only [List.mem_cons, List.not_mem_nil, or_false] at ha
    rcases ha with rfl | rfl | rfl
    · exact ⟨r, rfl, rfl⟩
    · trivial
    · exact hkafka k rfl
  | forgets s =>
    rw [List.mem_singleton.1 ha]
    exact hstored s rfl
  | deletesTopic s k =>
    simp only [List.mem_cons, List.not_mem_nil, or_false] at ha
    rcases ha with rfl | rfl
    · exact hkafka k rfl
    · exact hstored s rfl
  | deletesResource s r =>
    simp only [List.mem_cons, List.not_mem_nil, or_false] at ha
    rcases ha with rfl | rfl
    · exact ⟨r, rfl, rfl⟩
    · exact hstored s rfl
  | keeps s r k => cases ha
  | merges s r k =>
    have hname : (merged s r k).name = topic := hstored s rfl
    rcases List.mem_append.1 ha with ha | ha
    · rcases mem_preparations ha with rfl | rfl | rfl | rfl
      · exact hname
      · exact ⟨r, rfl, rfl⟩
      · exact hname
      · exact hname
    · rw [List.mem_singleton.1 ha]
      exact hname

namespace Operator

theorem resource_of_described {topic : TopicName} {subject : Subject} {w : Topic}
    (h : described topic subject = .ok (some w)) :
    w.name = topic ∧ ∃ r, subject.live = some r ∧ w.resourceName = ⟨r.nameText⟩ := by
  rw [described] at h
  split at h
  · cases h
  next r hr =>
    split at h
    · cases h
    next t ht =>
      split at h
      next hname =>
        cases h
        exact ⟨hname, r, hr, (Resource.of_toTopic ht).2⟩
      · cases h

/-- A call of an attempt at a topic that looks at the resource `n`, given the resources that there
are when it begins. -/
inductive Footprint {σ : Type} (answer : (c : OperatorCall) → σ → c.Answer × σ) (v : View σ)
    (managed : Selector) (topic : TopicName) (n : ResourceName) (rs : TextMap Resource) :
    OperatorCall → Prop where
  | store {c : StoreCall} (h : c.topic? = some topic) :
      Footprint answer v managed topic n rs (.store c)
  | broker {c : BrokerCall} (h : c.topic? = some topic) :
      Footprint answer v managed topic n rs (.broker c)
  | look : Footprint answer v managed topic n rs (.resource (.get n))
  /-- The resource of a topic that the brokers have shown is created. -/
  | create {t k : Topic} {s : σ} (hs : v.valid s)
      (hk : (answer (.broker (.read topic)) s).1 = .ok (some k))
      (ht : t.resourceName = k.resourceName) :
      Footprint answer v managed topic n rs (.resource (.create t))
  /-- The resource is written that was looked at, which is there and managed. -/
  | write {c : ResourceCall} {r : Resource} (hc : c.target? = some n)
      (hr : rs.get? n.text = some r) (hm : r.isManaged managed = true) :
      Footprint answer v managed topic n rs (.resource c)
  | warn (w : Warning) : Footprint answer v managed topic n rs (.warn w)
  | wait (ms : Nat) : Footprint answer v managed topic n rs (.wait ms)
  | count (m : Metric) : Footprint answer v managed topic n rs (.count m)

section Footprint

variable {σ : Type} {answer : (c : OperatorCall) → σ → c.Answer × σ} {v : View σ} {o : Operator}
  {topic : TopicName} {n : ResourceName} {rs : TextMap Resource} {s : σ}

/-- The object of a subject, if it is known, is that of the resource looked at. -/
def Found (o : Operator) (n : ResourceName) (rs : TextMap Resource) (subject : Subject) : Prop :=
  ∀ r, subject.live = some r →
    subject.resource = n ∧ rs.get? n.text = some r ∧ r.isManaged o.managed = true

theorem footprint_of_calls {wanted kafka : Option Topic} {a : Action} {c : OperatorCall}
    (ha : a.About topic wanted kafka) (hc : a.Calls c)
    (hwanted : ∀ w ∈ wanted, w.resourceName = n ∧
      ∃ r, rs.get? n.text = some r ∧ r.isManaged o.managed = true)
    (hkafka : ∀ k ∈ kafka, ∃ s, v.valid s ∧ (answer (.broker (.read topic)) s).1 = .ok (some k)) :
    Footprint answer v o.managed topic n rs c := by
  have hname : ∀ t : Topic, t.name = topic → some t.name = some topic := fun t ht => by rw [ht]
  cases a with
  | createKafkaTopic t =>
    rcases hc with rfl | rfl | ⟨ms, rfl⟩
    · exact .broker (hname t ha)
    · exact .broker (hname t ha)
    · exact .wait ms
  | deleteKafkaTopic name =>
    cases hc
    exact .broker (congrArg some ha)
  | changeReplicationFactor t =>
    cases hc
    exact .broker (hname t ha)
  | updateKafkaConfig t =>
    cases hc
    exact .broker (hname t ha)
  | increaseKafkaPartitions t =>
    cases hc
    exact .broker (hname t ha)
  | createResource t =>
    cases hc
    obtain ⟨k, hk, ht⟩ := ha
    obtain ⟨s, hs, hread⟩ := hkafka k hk
    exact .create hs hread ht
  | updateResource t =>
    cases hc
    obtain ⟨w, hw, ht⟩ := ha
    obtain ⟨hn, r, hr, hm⟩ := hwanted w hw
    exact .write (congrArg some (ht.trans hn)) hr hm
  | deleteResource name =>
    cases hc
    obtain ⟨w, hw, ht⟩ := ha
    obtain ⟨hn, r, hr, hm⟩ := hwanted w hw
    exact .write (congrArg some (ht.trans hn)) hr hm
  | createStored t =>
    cases hc
    exact .store (hname t ha)
  | updateStored t =>
    cases hc
    exact .store (hname t ha)
  | deleteStored name =>
    cases hc
    exact .store (congrArg some ha)
  | warn reason message =>
    rcases hc with rfl | ⟨w, rfl⟩
    · exact .count _
    · exact .warn w

theorem footprint_of_reportsOn {subject : Subject} {c : OperatorCall} (hc : c.ReportsOn subject)
    (hfound : Found o n rs subject) : Footprint answer v o.managed topic n rs c := by
  rcases hc with ⟨m, rfl⟩ | ⟨w, rfl⟩ | ⟨live, r, hlive, rfl⟩
  · exact .count m
  · exact .warn w
  · obtain ⟨hn, hr, hm⟩ := hfound live hlive
    exact .write (congrArg some hn) hr hm

theorem meets_only {α : Type} {p : Task α} {P : OperatorCall → Prop} (hp : p.Only P) :
    Program.Meets answer p s (fun c _ => P c) fun _ _ => True :=
  .of_only hp (fun _ _ hc _ => ⟨hc, trivial⟩) trivial

theorem footprint_settle (h : Reliable answer v) (hs : v.valid s) {stored : Option Topic}
    {live : Option Resource} (hstored : ∀ t ∈ stored, t.name = topic)
    (hname : ∀ r, live = some r → r.nameText = n.text) (hfound : Found o n rs ⟨n, live⟩) :
    Program.Meets answer (o.settle topic stored ⟨n, live⟩) s
      (fun c _ => Footprint answer v o.managed topic n rs c) fun _ _ => True := by
  rw [settle]
  cases hd : described topic ⟨n, live⟩ with
  | error e => exact .done trivial
  | ok wanted =>
    refine .ask (.broker rfl) ?_
    cases hk : (answer (.broker (.read topic)) s).1 with
    | error e => exact .done trivial
    | ok kafka =>
      dsimp only [Program.bind]
      cases hp : Plan.make o.managed stored wanted kafka with
      | error e => exact .done trivial
      | ok p =>
        have hwanted : ∀ w ∈ wanted, w.name = topic ∧ w.resourceName = n ∧
            ∃ r, rs.get? n.text = some r ∧ r.isManaged o.managed = true := by
          rintro w rfl
          obtain ⟨hw, r, hr, hrn⟩ := resource_of_described hd
          obtain ⟨-, hget, hm⟩ := hfound r hr
          refine ⟨hw, ?_, r, hget, hm⟩
          rw [hrn, hname r hr]
        have hkafka : ∀ k, kafka = some k → k.name = topic ∧
            ∃ s, v.valid s ∧ (answer (.broker (.read topic)) s).1 = .ok (some k) := by
          rintro k rfl
          exact ⟨h.topicName hs hk, s, hs, hk⟩
        -- The plan is about the snapshots that were read, and its actions call no more than that.
        have honly : (Program.forAll (o.execute ⟨n, live⟩) p.actions).Only
            (Footprint answer v o.managed topic n rs) := by
          refine .forAll fun a ha => (o.calls_execute ⟨n, live⟩ a).mono fun c hc => ?_
          have habout : a.About topic wanted kafka :=
            Plan.about_of_make hp hstored (fun w hw => (hwanted w hw).1)
              (fun k hk => (hkafka k hk).1) ha
          exact footprint_of_calls habout hc (fun w hw => (hwanted w hw).2)
            fun k hk => (hkafka k hk).2
        exact (meets_only honly).bind fun r s' _ => by cases r <;> exact .done trivial

theorem footprint_attempt (h : Reliable answer v) {named : Option ResourceName} (hs : v.valid s)
    (hn : n = resourceFor topic named (v.record s topic)) (hrs : rs = v.resources s) :
    Program.Meets answer (o.attempt topic named) s
      (fun c _ => Footprint answer v o.managed topic n rs c)
      fun outcome _ => Found o n rs outcome.1 := by
  refine .ask (.store rfl) ?_
  -- The record decides which resource is looked at; reading it leaves all resources as they were.
  have hs₁ := h.valid (.store (.read topic)) s hs
  have hrs₁ : v.resources (answer (.store (.read topic)) s).2 = rs := by
    rw [h.otherCalls hs (by simp), hrs]
  cases hstored : (answer (.store (.read topic)) s).1 with
  | error e => exact .done (by rintro r ⟨⟩)
  | ok stored =>
    obtain rfl := h.record hs hstored
    subst hn
    refine .ask .look ?_
    generalize resourceFor topic named (v.record s topic) = n at *
    generalize (answer (.store (.read topic)) s).2 = s₁ at *
    have hs₂ := h.valid (.resource (.get n)) s₁ hs₁
    cases hlive : (answer (.resource (.get n)) s₁).1 with
    | error e => exact .done (by rintro r ⟨⟩)
    | ok live =>
      have hthere := h.get hs₁ hlive
      dsimp only [Program.bind]
      split
      · exact .done (by rintro r ⟨⟩)
      next hmanaged =>
        have hfound : Found o n rs ⟨n, live⟩ := by
          rintro r hr
          obtain rfl : live = some r := hr
          refine ⟨rfl, by rw [← hrs₁, hthere], by simpa using hmanaged⟩
        have hname : ∀ t ∈ v.record s topic, t.name = topic := fun t ht => h.recordName hs ht
        have hsettle := footprint_settle h hs₂ hname
          (fun r hr => h.ownName hs₁ (hthere.trans hr)) hfound
        exact hsettle.bind fun r s' _ => .done hfound

/-- The calls of an attempt are about the record and the topic, the resource that it looks at, and
the one that the brokers' topic would have. -/
theorem footprint_reconcile (h : Reliable answer v) (o : Operator) {named : Option ResourceName}
    (hs : v.valid s) {m : OperatorCall × σ}
    (hm : m ∈ (o.reconcile topic named).moments answer s) :
    Footprint answer v o.managed topic (resourceFor topic named (v.record s topic))
      (v.resources s) m.1 := by
  have hmeets : Program.Meets answer (o.reconcile topic named) s
      (fun c _ => Footprint answer v o.managed topic
        (resourceFor topic named (v.record s topic)) (v.resources s) c) fun _ _ => True := by
    rw [reconcile_eq]
    refine .ask (.count _) ?_
    have hs₁ := h.valid (.count .reconciliation) s hs
    have hlooked : resourceFor topic named (v.record s topic) =
        resourceFor topic named (v.record (answer (.count .reconciliation) s).2 topic) := by
      rw [h.count hs]
    have hattempt := footprint_attempt h (o := o) hs₁ hlooked (h.otherCalls hs (by simp)).symm
    refine hattempt.bind fun outcome s' hfound => meets_only ?_
    exact (reportsOn_conclusion outcome).mono fun c hc => footprint_of_reportsOn hc hfound
  exact hmeets.calls m hm

/-- The resources that an attempt may deal with: the one that its trigger names, the one that the
record names, and the one that the topic's name gives. -/
def Names (v : View σ) (topic : TopicName) (named : Option ResourceName) (s : σ)
    (n : ResourceName) : Prop :=
  named = some n ∨ (∃ t, v.record s topic = some t ∧ t.resourceName = n) ∨ topic.resourceName = n

/-- The parts that an attempt may deal with. -/
def Domain (v : View σ) (topic : TopicName) (named : Option ResourceName) (s : σ) : Part → Prop
  | .record name | .topic name => name = topic
  | .resource n => Names v topic named s n

theorem names_resourceFor (v : View σ) (topic : TopicName) (named : Option ResourceName) (s : σ) :
    Names v topic named s (resourceFor topic named (v.record s topic)) := by
  cases named with
  | some n => exact .inl rfl
  | none =>
    cases h : v.record s topic with
    | some t => exact .inr (.inl ⟨t, h, rfl⟩)
    | none => exact .inr (.inr rfl)

/-- The brokers know no other resource for a topic than the one that its name gives. -/
def DerivesNames (answer : (c : OperatorCall) → σ → c.Answer × σ) (v : View σ) : Prop :=
  ∀ {name : TopicName} {t : Topic} {s : σ}, v.valid s →
    (answer (.broker (.read name)) s).1 = .ok (some t) → t.resourceName = name.resourceName

theorem Footprint.domain {named : Option ResourceName} {c : OperatorCall}
    (h : Footprint answer v o.managed topic (resourceFor topic named (v.record s topic)) rs c)
    (hderived : DerivesNames answer v) {x : Part} (hx : c.Concerns x) :
    Domain v topic named s x := by
  have hlooked := names_resourceFor v topic named s
  cases h with
  | store hc =>
    cases x with
    | record name => exact hx topic hc
    | topic name => cases hx
    | resource n => cases hx
  | broker hc =>
    cases x with
    | record name => cases hx
    | topic name => exact hx topic hc
    | resource n => cases hx
  | look =>
    cases x with
    | record name => cases hx
    | topic name => cases hx
    | resource n => exact hx _ rfl ▸ hlooked
  | @create t k s' hs hk ht =>
    cases x with
    | record name => cases hx
    | topic name => cases hx
    | resource n =>
      have hn : n = t.resourceName := hx _ rfl
      exact .inr (.inr (by rw [hn, ht, hderived hs hk]))
  | @write c r hc _ _ =>
    have hname : c.name? = c.target? := by
      cases c with
      | get name => cases hc
      | list => cases hc
      | _ => rfl
    cases x with
    | record name => cases hx
    | topic name => cases hx
    | resource n => exact hx _ (hname.trans hc) ▸ hlooked
  | warn w => cases hx
  | wait ms => cases hx
  | count m => cases hx

end Footprint

end Operator

end TopicSync
