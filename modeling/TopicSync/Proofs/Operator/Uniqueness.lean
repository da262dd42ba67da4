import TopicSync.Proofs.Memory.View
import TopicSync.Proofs.Operator.Footprint

/-!
When the operator keeps each topic to one resource. An attempt looks at the resource under one name:
that of the trigger, else that of the record, else the derived one. As long as no other resource
describes the topic, a second one is never made, whatever the world answers. An attempt that looks
under another name makes one, though, and the follow-up of a lost race is such an attempt.
-/
namespace TopicSync

section Resources

variable {managed : Selector} {topic : TopicName} {rs rs' : TextMap Resource} {key : String}

/-- No topic is described by two managed resources. -/
def OneEach (managed : Selector) (rs : TextMap Resource) : Prop :=
  ∀ topic key key' r r', rs.get? key = some r → rs.get? key' = some r' →
    r.Describes managed topic → r'.Describes managed topic → key = key'

/-- No managed resource under another name describes the topic. -/
def OnlyUnder (managed : Selector) (topic : TopicName) (key : String) (rs : TextMap Resource) :
    Prop :=
  ∀ key' r, rs.get? key' = some r → r.Describes managed topic → key' = key

/-- No managed resource describes the topic. -/
def Undescribed (managed : Selector) (topic : TopicName) (rs : TextMap Resource) : Prop :=
  ∀ key r, rs.get? key = some r → ¬ r.Describes managed topic

/-- Under each name, other topics than the given one are described only if they were before. -/
def GainsOnly (managed : Selector) (topic : TopicName) (rs rs' : TextMap Resource) : Prop :=
  ∀ key r' topic', rs'.get? key = some r' → r'.Describes managed topic' →
    topic' = topic ∨ ∃ r, rs.get? key = some r ∧ r.Describes managed topic'

/-- Under each name, topics are described only if they were before. -/
def GainsNone (managed : Selector) (rs rs' : TextMap Resource) : Prop :=
  ∀ key r' topic', rs'.get? key = some r' → r'.Describes managed topic' →
    ∃ r, rs.get? key = some r ∧ r.Describes managed topic'

theorem OneEach.of_gainsOnly (h : OneEach managed rs) (hg : GainsOnly managed topic rs rs')
    (hu : OnlyUnder managed topic key rs') : OneEach managed rs' := by
  intro topic' k k' r r' hk hk' hr hr'
  by_cases ht : topic' = topic
  · subst ht
    exact (hu k r hk hr).trans (hu k' r' hk' hr').symm
  · obtain ⟨old, hold, hd⟩ := (hg k r topic' hk hr).resolve_left ht
    obtain ⟨old', hold', hd'⟩ := (hg k' r' topic' hk' hr').resolve_left ht
    exact h topic' k k' old old' hold hold' hd hd'

theorem OneEach.of_gainsNone (h : OneEach managed rs) (hg : GainsNone managed rs rs') :
    OneEach managed rs' := by
  intro topic k k' r r' hk hk' hr hr'
  obtain ⟨old, hold, hd⟩ := hg k r topic hk hr
  obtain ⟨old', hold', hd'⟩ := hg k' r' topic hk' hr'
  exact h topic k k' old old' hold hold' hd hd'

theorem OnlyUnder.of_gainsNone (h : OnlyUnder managed topic key rs)
    (hg : GainsNone managed rs rs') : OnlyUnder managed topic key rs' := by
  intro k r hk hr
  obtain ⟨old, hold, hd⟩ := hg k r topic hk hr
  exact h k old hold hd

theorem OnlyUnder.undescribed (h : OnlyUnder managed topic key rs) (hn : rs.get? key = none) :
    Undescribed managed topic rs := by
  intro k r hk hr
  rw [h k r hk hr, hn] at hk
  cases hk

end Resources

/-- The call neither creates nor updates a resource. -/
def OperatorCall.IsQuiet (c : OperatorCall) : Prop :=
  ∀ t, c ≠ .resource (.create t) ∧ c ≠ .resource (.update t)

namespace Reliable

variable {σ : Type} {answer : (c : OperatorCall) → σ → c.Answer × σ} {v : View σ} {s : σ}
  {topic : TopicName} {t : Topic} {key : String}

theorem gainsNone (h : Reliable answer v) (managed : Selector) (hs : v.valid s) {c : OperatorCall}
    (hc : c.IsQuiet) :
    GainsNone managed (v.resources s) (v.resources (answer c s).2) := by
  intro k r' topic' hk hr'
  cases c with
  | resource c =>
    by_cases ht : ∃ n, c.target? = some n ∧ n.text = k
    · obtain ⟨n, hn, rfl⟩ := ht
      have heffect := h.effect hs hn
      generalize hold : (v.resources s).get? n.text = old at heffect
      rw [hk] at heffect
      cases heffect with
      | unchanged => exact ⟨r', rfl, hr'⟩
      | create => exact absurd rfl (hc _).1
      | update => exact absurd rfl (hc _).2
      | updateStatus _ _ hsame => exact ⟨_, rfl, hsame.describes_iff.1 hr'⟩
    · rw [h.elsewhere hs fun n hn hk => ht ⟨n, hn, hk⟩] at hk
      exact ⟨r', hk, hr'⟩
  | _ =>
    rw [h.otherCalls hs (by simp)] at hk
    exact ⟨r', hk, hr'⟩

/-- A resource that a creation or an update has changed describes the topic of the snapshot. -/
theorem written (h : Reliable answer v) (managed : Selector) (hs : v.valid s) {c : ResourceCall}
    (hc : c = .create t ∨ c = .update t) {r : Resource}
    (hr : (v.resources (answer (.resource c) s).2).get? key = some r) :
    (v.resources s).get? key = some r ∨
      (key = t.resourceName.text ∧ ∀ topic', r.Describes managed topic' → topic' = t.name) := by
  have htarget : c.target? = some t.resourceName := by rcases hc with rfl | rfl <;> rfl
  by_cases hk : key = t.resourceName.text
  · subst hk
    have heffect := h.effect hs htarget
    generalize hold : (v.resources s).get? t.resourceName.text = old at heffect
    rw [hr] at heffect
    have hdescribes : ∀ content : Resource, content.topicText = t.name.text →
        r.SameContent content → ∀ topic', r.Describes managed topic' → topic' = t.name := by
      intro content htext hsame topic' hd
      exact (hsame.describes_iff.1 hd).eq_of_topicText htext
    cases heffect with
    | unchanged => exact .inl rfl
    | create hsame =>
      obtain rfl : _ = t := by simpa using hc
      exact .inr ⟨rfl, hdescribes _ (Resource.topicText_ofTopic _ _) hsame⟩
    | @update u ns _ _ hsame =>
      obtain rfl : u = t := by simpa using hc
      refine .inr ⟨rfl, hdescribes _ (Resource.topicText_withTopic ?_) hsame⟩
      cases hget : (v.resources s).get? u.resourceName.text with
      | none => rw [← hold, hget]; rfl
      | some current =>
        rw [← hold, hget]
        exact h.ownName hs hget
    | updateStatus => simp at hc
  · left
    rw [← hr]
    refine (h.elsewhere hs fun n hn => ?_).symm
    rw [htarget] at hn
    cases hn
    exact Ne.symm hk

theorem gainsOnly (h : Reliable answer v) (managed : Selector) (hs : v.valid s) {c : ResourceCall}
    (hc : c = .create t ∨ c = .update t) :
    GainsOnly managed t.name (v.resources s) (v.resources (answer (.resource c) s).2) := by
  intro k r topic' hk hr
  rcases h.written managed hs hc hk with hold | ⟨-, hnew⟩
  · exact .inr ⟨r, hold, hr⟩
  · exact .inl (hnew topic' hr)

end Reliable

section Attempt

variable {σ : Type} {answer : (c : OperatorCall) → σ → c.Answer × σ} {v : View σ} {s : σ}
  {o : Operator} {topic : TopicName} {n : ResourceName}

/-- Each topic has one resource at most, and a resource is only created for a topic that has
none. -/
def Unique (managed : Selector) (v : View σ) (c : OperatorCall) (s : σ) : Prop :=
  OneEach managed (v.resources s) ∧
    ∀ t, c = .resource (.create t) → Undescribed managed t.name (v.resources s)

/-- The state is one that the world can be in, with one resource for each topic. -/
structure Orderly (managed : Selector) (v : View σ) (s : σ) : Prop where
  valid : v.valid s
  oneEach : OneEach managed (v.resources s)

/-- Moreover, the topic has its resource under the name that the attempt looks at. -/
structure Settled (managed : Selector) (v : View σ) (topic : TopicName) (n : ResourceName)
    (s : σ) : Prop extends Orderly managed v s where
  onlyUnder : OnlyUnder managed topic n.text (v.resources s)

namespace Reliable

variable {managed : Selector}

theorem orderly_quiet (h : Reliable answer v) {c : OperatorCall} (hc : c.IsQuiet)
    (hs : Orderly managed v s) : Unique managed v c s ∧ Orderly managed v (answer c s).2 := by
  refine ⟨⟨hs.oneEach, fun t ht => absurd ht (hc t).1⟩, h.valid c s hs.valid, ?_⟩
  exact hs.oneEach.of_gainsNone (h.gainsNone managed hs.valid hc)

theorem settled_quiet (h : Reliable answer v) {c : OperatorCall} (hc : c.IsQuiet)
    (hs : Settled managed v topic n s) :
    Unique managed v c s ∧ Settled managed v topic n (answer c s).2 := by
  obtain ⟨hunique, horderly⟩ := h.orderly_quiet hc hs.toOrderly
  exact ⟨hunique, horderly, hs.onlyUnder.of_gainsNone (h.gainsNone managed hs.valid hc)⟩

/-- Updating the resource that the attempt looks at leaves the topic to it. -/
theorem settled_update (h : Reliable answer v) {t : Topic} (hname : t.name = topic)
    (hresource : t.resourceName.text = n.text) (hs : Settled managed v topic n s) :
    Unique managed v (.resource (.update t)) s ∧
      Settled managed v topic n (answer (.resource (.update t)) s).2 := by
  have hunder : OnlyUnder managed topic n.text
      (v.resources (answer (.resource (.update t)) s).2) := by
    intro key r hk hr
    rcases h.written managed hs.valid (.inr rfl) hk with hold | ⟨rfl, -⟩
    · exact hs.onlyUnder key r hold hr
    · exact hresource
  have hgains := h.gainsOnly (c := .update t) managed hs.valid (.inr rfl)
  subst hname
  refine ⟨⟨hs.oneEach, fun _ he => by simp at he⟩, ⟨h.valid _ s hs.valid, ?_⟩, hunder⟩
  exact hs.oneEach.of_gainsOnly hgains hunder

/-- Creating the resource of a topic that has none leaves it with one. -/
theorem orderly_create (h : Reliable answer v) {t : Topic} (hs : Orderly managed v s)
    (hnone : Undescribed managed t.name (v.resources s)) :
    Unique managed v (.resource (.create t)) s ∧
      Orderly managed v (answer (.resource (.create t)) s).2 := by
  have hunder : OnlyUnder managed t.name t.resourceName.text
      (v.resources (answer (.resource (.create t)) s).2) := by
    intro key r hk hr
    rcases h.written managed hs.valid (.inl rfl) hk with hold | ⟨rfl, -⟩
    · exact absurd hr (hnone key r hold)
    · rfl
  have hgains := h.gainsOnly (c := .create t) managed hs.valid (.inl rfl)
  refine ⟨⟨hs.oneEach, ?_⟩, h.valid _ s hs.valid, hs.oneEach.of_gainsOnly hgains hunder⟩
  intro u hu
  cases hu
  exact hnone

theorem meets_quiet (h : Reliable answer v) {α : Type} {p : Task α}
    (hp : p.Only OperatorCall.IsQuiet) (hs : Orderly managed v s) :
    Program.Meets answer p s (Unique managed v) fun _ => Orderly managed v :=
  .of_only hp (fun _ _ hc hs => h.orderly_quiet hc hs) hs

end Reliable

theorem OperatorCall.Reports.isQuiet {c : OperatorCall} (h : c.Reports) : c.IsQuiet := by
  rcases h with ⟨m, rfl⟩ | ⟨w, rfl⟩ | ⟨name, r, rfl⟩ <;> simp [OperatorCall.IsQuiet]

theorem Action.isQuiet_of_calls {a : Action} {c : OperatorCall}
    (ha : ∀ t, a ≠ .createResource t ∧ a ≠ .updateResource t) (h : a.Calls c) : c.IsQuiet := by
  refine fun t => ⟨?_, ne_update_of_calls (fun t => (ha t).2) h t⟩
  rintro rfl
  rcases h.of_resource with ⟨u, hu, _⟩ | ⟨_, _, ⟨⟩⟩ | ⟨_, _, ⟨⟩⟩
  exact (ha u).1 hu

theorem Action.isQuiet_of_not_isOnResource {a : Action} {c : OperatorCall}
    (ha : a.isOnResource = false) (h : a.Calls c) : c.IsQuiet :=
  fun _ => ⟨ne_resource_of_calls ha h _, ne_resource_of_calls ha h _⟩

namespace Operator

/-- The actions of a plan, whichever resources it writes. -/
theorem meets_actions (h : Reliable answer v) {stored wanted kafka : Option Topic}
    {actions : List Action} {live : Option Resource}
    (hw : Plan.Writes stored wanted kafka actions) (hd : described topic ⟨n, live⟩ = .ok wanted)
    (hstored : ∀ t, stored = some t → t.name = topic)
    (hkafka : ∀ t, kafka = some t → t.name = topic)
    (hlive : ∀ r, live = some r → r.nameText = n.text)
    (hnone : live = none → Undescribed o.managed topic (v.resources s))
    (hs : Settled o.managed v topic n s) :
    Program.Meets answer (Program.forAll (o.execute ⟨n, live⟩) actions) s (Unique o.managed v)
      fun _ => Orderly o.managed v := by
  have hexecute := o.calls_execute ⟨n, live⟩
  cases hw with
  | creates k t hs' hw' hk ht ha =>
    subst hw' ha
    have hname : t.name = topic := ht.trans (hkafka k hk)
    have hundescribed : Undescribed o.managed t.name (v.resources s) :=
      hname ▸ hnone (live_eq_none_of_described hd)
    obtain ⟨hunique, horderly⟩ := h.orderly_create hs.toOrderly hundescribed
    have hlast : (Program.forAll (o.execute ⟨n, live⟩) [.createStored t]).Only
        OperatorCall.IsQuiet := by
      refine .forAll fun a ha => (hexecute a).mono fun c hc => ?_
      exact Action.isQuiet_of_not_isOnResource (by rw [List.mem_singleton.1 ha]; rfl) hc
    refine .ask hunique ?_
    cases (answer (.resource (.create t)) s).1 with
    | error e => exact .done horderly
    | ok _ => exact h.meets_quiet hlast horderly
  | updates w u t early late hw' hu hn ht ha he hl =>
    subst hw' ha
    have hname : t.name = topic := hn.trans (hu.elim (hstored u) (hkafka u))
    obtain ⟨-, r, hr, hrn⟩ := resource_of_described hd
    have hresource : t.resourceName.text = n.text := by
      rw [ht, hrn]
      exact hlive r hr
    have honly : (Program.forAll (o.execute ⟨n, live⟩) (early ++ .updateResource t :: late)).Only
        fun c : OperatorCall => c.IsQuiet ∨ c = .resource (.update t) := by
      refine .forAll fun a ha => (hexecute a).mono fun c hc => ?_
      rcases List.mem_append.1 ha with ha | ha
      · exact .inl (Action.isQuiet_of_not_isOnResource (by rw [he a ha]; rfl) hc)
      · rcases List.mem_cons.1 ha with rfl | ha
        · exact .inr hc
        · exact .inl (Action.isQuiet_of_not_isOnResource (hl a ha) hc)
    have hstep : ∀ c s', (c.IsQuiet ∨ c = .resource (.update t)) → Settled o.managed v topic n s' →
        Unique o.managed v c s' ∧ Settled o.managed v topic n (answer c s').2 := by
      rintro c s' (hc | rfl) hs'
      · exact h.settled_quiet hc hs'
      · exact h.settled_update hname hresource hs'
    exact (Program.Meets.of_only honly hstep hs).mono fun _ _ hs' => hs'.toOrderly
  | spares hspares =>
    refine h.meets_quiet (.forAll fun a ha => (hexecute a).mono fun c hc => ?_) hs.toOrderly
    exact Action.isQuiet_of_calls (hspares a ha) hc

theorem meets_settle (h : Reliable answer v) {stored : Option Topic} {live : Option Resource}
    (hstored : ∀ t, stored = some t → t.name = topic)
    (hlive : ∀ r, live = some r → r.nameText = n.text)
    (hnone : live = none → (v.resources s).get? n.text = none)
    (hs : Settled o.managed v topic n s) :
    Program.Meets answer (o.settle topic stored ⟨n, live⟩) s (Unique o.managed v)
      fun _ => Orderly o.managed v := by
  rw [settle]
  cases hd : described topic ⟨n, live⟩ with
  | error e => exact .done hs.toOrderly
  | ok wanted =>
    have hquiet : (OperatorCall.broker (.read topic)).IsQuiet := by simp [OperatorCall.IsQuiet]
    obtain ⟨hunique, hs'⟩ := h.settled_quiet hquiet hs
    refine .ask hunique ?_
    cases hk : (answer (.broker (.read topic)) s).1 with
    | error e => exact .done hs'.toOrderly
    | ok kafka =>
      dsimp only [Program.bind]
      cases hp : Plan.make o.managed stored wanted kafka with
      | error e => exact .done hs'.toOrderly
      | ok p =>
        have hkafka : ∀ t, kafka = some t → t.name = topic := by
          rintro t rfl
          exact h.topicName hs.valid hk
        have hundescribed : live = none →
            Undescribed o.managed topic (v.resources (answer (.broker (.read topic)) s).2) := by
          intro hl
          rw [h.otherCalls hs.valid (by simp)]
          exact hs.onlyUnder.undescribed (hnone hl)
        have hactions := meets_actions h (Plan.writes_of_make hp) hd hstored hkafka hlive
          hundescribed hs'
        refine hactions.bind fun r s' hs'' => ?_
        cases r <;> exact .done hs''

theorem meets_attempt (h : Reliable answer v) {named : Option ResourceName}
    (hs : Settled o.managed v topic (resourceFor topic named (v.record s topic)) s) :
    Program.Meets answer (o.attempt topic named) s (Unique o.managed v)
      fun _ => Orderly o.managed v := by
  have hread : (OperatorCall.store (.read topic)).IsQuiet := by simp [OperatorCall.IsQuiet]
  obtain ⟨hunique, hs₁⟩ := h.settled_quiet hread hs
  refine .ask hunique ?_
  cases hstored : (answer (.store (.read topic)) s).1 with
  | error e => exact .done hs₁.toOrderly
  | ok stored =>
    obtain rfl := h.record hs.valid hstored
    have hget :
        (OperatorCall.resource (.get (resourceFor topic named (v.record s topic)))).IsQuiet := by
      simp [OperatorCall.IsQuiet]
    obtain ⟨hunique₁, hs₂⟩ := h.settled_quiet hget hs₁
    refine .ask hunique₁ ?_
    generalize resourceFor topic named (v.record s topic) = n at *
    generalize (answer (.store (.read topic)) s).2 = s₁ at *
    cases hlive : (answer (.resource (.get n)) s₁).1 with
    | error e => exact .done hs₂.toOrderly
    | ok live =>
      have hthere := h.get hs₁.valid hlive
      have hkept : (v.resources (answer (.resource (.get n)) s₁).2).get? n.text = live := by
        rw [h.elsewhere hs₁.valid (by simp [ResourceCall.target?]), hthere]
      dsimp only [Program.bind]
      split
      · exact .done hs₂.toOrderly
      · have hsettle := meets_settle h
          (fun t ht => h.recordName hs.valid ht)
          (fun r hr => h.ownName hs₁.valid (hthere.trans hr))
          (fun hl => hkept.trans hl) hs₂
        exact hsettle.bind fun r s' hs' => .done hs'

theorem meets_reconcile (h : Reliable answer v) {named : Option ResourceName}
    (hs : Settled o.managed v topic (resourceFor topic named (v.record s topic)) s) :
    Program.Meets answer (o.reconcile topic named) s (Unique o.managed v)
      fun _ => Orderly o.managed v := by
  have hcount : (OperatorCall.count .reconciliation).IsQuiet := by simp [OperatorCall.IsQuiet]
  obtain ⟨hunique, hs₁⟩ := h.settled_quiet hcount hs
  rw [reconcile_eq]
  refine .ask hunique ?_
  rw [← h.count hs.valid (m := .reconciliation)] at hs₁
  refine (meets_attempt h hs₁).bind fun outcome s' hs' => ?_
  exact h.meets_quiet ((reports_conclusion outcome).mono fun c hc => hc.isQuiet) hs'

end Operator

theorem Work.isQuiet_sweep (o : Operator) : (Work.sweep.task o).Only OperatorCall.IsQuiet := by
  refine .bind ?_ fun _ => .done _
  refine .ask (by simp [OperatorCall.IsQuiet]) fun brokers => ?_
  refine .ask (by simp [OperatorCall.IsQuiet]) fun stored => ?_
  exact .ask (by simp [OperatorCall.IsQuiet]) fun resources => .done _

theorem Work.isQuiet_reject (o : Operator) (resource : ResourceName) (reason : String) :
    ((Work.reject resource reason).task o).Only OperatorCall.IsQuiet := by
  refine .bind ?_ fun _ => .done _
  rw [Operator.reject_eq]
  refine .ask (by simp [OperatorCall.IsQuiet]) fun found => ?_
  exact (Operator.reportsOn_rejection _ reason).mono fun c hc => hc.reports.isQuiet

end Attempt

/-- What the operator does about an admitted trigger leaves each topic with one managed resource at
most, at every call and in the end, and creates a resource only for a topic that no managed
resource describes: provided that no managed resource describes the topic of the trigger but the
one under the name that the trigger gives, or else the record, or else is derived. -/
theorem Reliable.unique_of_found {σ : Type} {answer : (c : OperatorCall) → σ → c.Answer × σ}
    {v : View σ} (h : Reliable answer v) {o : Operator} {l l' : Ledger} {t : Trigger} {work : Work}
    (ha : l.admission t = (.started work, l')) {s : σ} (hs : v.valid s)
    (hone : OneEach o.managed (v.resources s))
    (hfound : ∀ topic, t.topic? = some topic → OnlyUnder o.managed topic
      (Operator.resourceFor topic t.resource? (v.record s topic)).text (v.resources s)) :
    (∀ m ∈ (work.task o).moments answer s, OneEach o.managed (v.resources m.2)) ∧
      OneEach o.managed (v.resources ((work.task o).run answer s).2) ∧
      ∀ u s', (.resource (.create u), s') ∈ (work.task o).moments answer s →
        Undescribed o.managed u.name (v.resources s') := by
  have horderly : Orderly o.managed v s := ⟨hs, hone⟩
  have hmeets : Program.Meets answer (work.task o) s (Unique o.managed v)
      fun _ => Orderly o.managed v := by
    rcases Ledger.work_of_admission ha with rfl | ⟨resource, reason, rfl⟩ | ⟨topic, ht, rfl⟩
    · exact h.meets_quiet (Work.isQuiet_sweep o) horderly
    · exact h.meets_quiet (Work.isQuiet_reject o resource reason) horderly
    · have hattempt := Operator.meets_reconcile h ⟨horderly, hfound topic ht⟩
      exact hattempt.bind fun r s' hs' => .done hs'
  refine ⟨fun m hm => (hmeets.calls m hm).1, hmeets.result.oneEach, fun u s' hm => ?_⟩
  exact (hmeets.calls _ hm).2 u rfl

theorem eq_of_keys {rs : TextMap Resource} {key k : String} {r : Resource}
    (h : rs.toList.map (·.1) = [key]) (hk : rs.get? k = some r) : k = key := by
  have hmem : k ∈ rs.toList.map (·.1) :=
    List.mem_map.2 ⟨(k, r), TextMap.get?_eq_some_iff.1 hk, rfl⟩
  rw [h] at hmem
  exact List.mem_singleton.1 hmem

/-- A map with one key has one resource for each topic. -/
theorem oneEach_of_keys {managed : Selector} {rs : TextMap Resource} {key : String}
    (h : rs.toList.map (·.1) = [key]) : OneEach managed rs := by
  intro topic k k' r r' hk hk' _ _
  exact (eq_of_keys h hk).trans (eq_of_keys h hk').symm

namespace Memory.World

/-- The topic `orders` with a resource of another name. -/
def renamedOrders : Topic := { Plan.ordersStored with resourceName := ⟨"orders-resource"⟩ }

/-- The resource is new, and someone else is about to create the topic. -/
def raceWorld : World :=
  { empty with
    brokers := { Brokers.empty with losesRace := true }
    resources := Resources.empty.create renamedOrders 1 }

def renamedWork : Work := .attempt Plan.ordersStored.name (some ⟨"orders-resource"⟩) "ResourceAdded"

/-- The world after the attempt that loses the race. -/
def racedWorld : World := ((renamedWork.task ordersOperator).run answer raceWorld).2

def followUpWork : Work := .attempt Plan.ordersStored.name none "Resync"

/-- The world after the follow-up. -/
def followedWorld : World := ((followUpWork.task ordersOperator).run answer racedWorld).2

theorem valid_raceWorld : view.valid raceWorld := by
  refine ⟨Resources.named_empty.insert rfl, ?_⟩
  intro key t h
  simp [raceWorld, Brokers.empty, TextMap.get?_empty] at h

theorem unique_of_found_renamed :
    OneEach .managed (view.resources racedWorld) ∧
      ∀ u w, (.resource (.create u), w) ∈
          (renamedWork.task ordersOperator).moments answer raceWorld →
        Undescribed .managed u.name (view.resources w) := by
  have hstarted : (Ledger.empty.admission
      (.resourceAdded Plan.ordersStored.name ⟨"orders-resource"⟩)).1 = .started renamedWork := by
    decide
  have hkeys : (view.resources raceWorld).toList.map (·.1) = ["orders-resource"] := by
    decide +kernel
  have hfound : OnlyUnder .managed Plan.ordersStored.name "orders-resource"
      (view.resources raceWorld) := fun key r hr _ => eq_of_keys hkeys hr
  obtain ⟨-, hend, hcreated⟩ := reliable.unique_of_found (o := ordersOperator)
    (Prod.ext hstarted rfl) valid_raceWorld (oneEach_of_keys hkeys)
    (by rintro topic ⟨⟩; exact hfound)
  rw [racedWorld]
  exact ⟨hend, hcreated⟩

/-- The follow-up of a lost race, which gives no resource, makes a second one for the topic: there
is no record yet to tell that the resource has another name. -/
theorem follow_up_duplicates :
    ((renamedWork.task ordersOperator).run answer raceWorld).1.followUps =
      [.resync Plan.ordersStored.name none] ∧
    (∃ l, Ledger.empty.admission (.resync Plan.ordersStored.name none) =
      (.started followUpWork, l)) ∧
    OneEach .managed (view.resources racedWorld) ∧
    ¬ OneEach .managed (view.resources followedWorld) := by
  have hstarted : (Ledger.empty.admission (.resync Plan.ordersStored.name none)).1 =
      .started followUpWork := by
    decide
  refine ⟨by decide +kernel, ⟨_, Prod.ext hstarted rfl⟩, ?_, ?_⟩
  · have hkeys : (view.resources racedWorld).toList.map (·.1) = ["orders-resource"] := by
      decide +kernel
    exact oneEach_of_keys hkeys
  · have hdescribed : ∀ key ∈ ["orders", "orders-resource"],
        ∃ r, (view.resources followedWorld).get? key = some r ∧
          r.Describes .managed Plan.ordersStored.name := by
      intro key hkey
      have htest : ((view.resources followedWorld).get? key).any
          (fun r => r.isManaged .managed && r.topicText = "orders") = true := by
        simp only [List.mem_cons, List.not_mem_nil, or_false] at hkey
        rcases hkey with rfl | rfl <;> decide +kernel
      simp only [Option.any_eq_true, Bool.and_eq_true, decide_eq_true_eq] at htest
      obtain ⟨r, hr, hmanaged, htext⟩ := htest
      have hname : r.topicName = .ok Plan.ordersStored.name := by
        rw [Resource.topicName, htext]
        exact TopicName.ofText_text Plan.ordersStored.name
      exact ⟨r, hr, hmanaged, hname⟩
    intro hone
    obtain ⟨r, hr, hd⟩ := hdescribed "orders" (by simp)
    obtain ⟨r', hr', hd'⟩ := hdescribed "orders-resource" (by simp)
    have heq := hone _ _ _ r r' hr hr' hd hd'
    exact absurd heq (by decide)

end Memory.World

end TopicSync
