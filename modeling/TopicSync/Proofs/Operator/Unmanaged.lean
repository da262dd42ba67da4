import TopicSync.Proofs.Memory.View
import TopicSync.Proofs.Operator.Footprint

/-!
What becomes of resources that the operator does not manage. An attempt looks at the labels of the
resource before it writes anything, and a sweep writes nothing. A rejection, though, goes by the
name of the resource alone: it writes a status without looking at the labels.
-/
namespace TopicSync

/-- A resource is not created under a name that is taken. -/
def RefusesTaken {σ : Type} (answer : (c : OperatorCall) → σ → c.Answer × σ) (v : View σ) : Prop :=
  ∀ {t : Topic} {r : Resource} {s : σ}, v.valid s →
    (v.resources s).get? t.resourceName.text = some r →
    (v.resources (answer (.resource (.create t)) s).2).get? t.resourceName.text = some r

/-- The call writes the resource under the key by its creation, if at all. -/
def OperatorCall.SparesKey (key : String) (c : OperatorCall) : Prop :=
  ∀ rc, c = .resource rc → (∃ t, rc = .create t) ∨ ∀ n, rc.target? = some n → n.text ≠ key

theorem Resource.SameContent.refl (r : Resource) : r.SameContent r := ⟨rfl, rfl, rfl⟩

theorem Resource.SameContent.trans {r r' r'' : Resource} (h : r.SameContent r')
    (h' : r'.SameContent r'') : r.SameContent r'' :=
  ⟨h.name.trans h'.name, h.labels.trans h'.labels, h.spec.trans h'.spec⟩

section Unmanaged

variable {σ : Type} {answer : (c : OperatorCall) → σ → c.Answer × σ} {v : View σ} {o : Operator}
  {s : σ} {key : String} {r : Resource} {c : OperatorCall}

/-- A call that spares the key leaves the resource there as it is. -/
theorem Reliable.get?_of_sparesKey (h : Reliable answer v) (hc : RefusesTaken answer v)
    (hspares : c.SparesKey key) (hs : v.valid s) (hr : (v.resources s).get? key = some r) :
    (v.resources (answer c s).2).get? key = some r := by
  by_cases hrc : ∃ rc, c = .resource rc
  · obtain ⟨rc, rfl⟩ := hrc
    rcases hspares rc rfl with ⟨t, rfl⟩ | htarget
    · by_cases hkey : t.resourceName.text = key
      · subst hkey
        exact hc hs hr
      · rw [h.elsewhere hs (by rintro n ⟨⟩; exact hkey), hr]
    · rw [h.elsewhere hs htarget, hr]
  · rw [h.otherCalls hs fun rc he => hrc ⟨rc, he⟩, hr]

/-- A report about the resource under the key leaves its content as it is. -/
theorem Reliable.sameContent_of_reports (h : Reliable answer v) (hc : c.Reports)
    (hs : v.valid s) (hr : (v.resources s).get? key = some r) :
    ∃ r', (v.resources (answer c s).2).get? key = some r' ∧ r'.SameContent r := by
  by_cases hstatus : ∃ n report, c = .resource (.updateStatus n report) ∧ n.text = key
  · obtain ⟨n, report, rfl, rfl⟩ := hstatus
    have heffect := h.effect (c := .updateStatus n report) hs rfl
    generalize (v.resources (answer (.resource (.updateStatus n report)) s).2).get? n.text = new
      at heffect ⊢
    rw [hr] at heffect
    cases heffect with
    | unchanged => exact ⟨r, rfl, .refl r⟩
    | updateStatus _ _ hsame => exact ⟨_, rfl, hsame⟩
  · refine ⟨r, ?_, .refl r⟩
    rcases hc with ⟨m, rfl⟩ | ⟨w, rfl⟩ | ⟨n, report, rfl⟩
    · rw [h.otherCalls hs (by simp), hr]
    · rw [h.otherCalls hs (by simp), hr]
    · rw [h.elsewhere hs (by rintro _ ⟨⟩ hn; exact hstatus ⟨n, report, rfl, hn⟩), hr]

namespace Operator

/-- An attempt spares a resource that is not managed: what it writes it has found managed. -/
theorem Footprint.sparesKey {topic : TopicName} {n : ResourceName} {rs : TextMap Resource}
    (h : Footprint answer v o.managed topic n rs c) (hr : rs.get? key = some r)
    (hm : r.isManaged o.managed = false) : c.SparesKey key := by
  rintro rc rfl
  cases h with
  | look => exact .inr (by rintro n ⟨⟩)
  | create => exact .inl ⟨_, rfl⟩
  | @write _ found hc hfound hmanaged =>
    refine .inr fun n' hn' hkey => ?_
    rw [hc] at hn'
    cases hn'
    subst hkey
    rw [hr] at hfound
    cases hfound
    rw [hm] at hmanaged
    cases hmanaged

theorem sparesKey_sweep (o : Operator) (key : String) :
    o.sweep.Only (OperatorCall.SparesKey key) := by
  refine .ask (by rintro _ ⟨⟩) fun brokers => .ask (by rintro _ ⟨⟩) fun stored => ?_
  exact .ask (by rintro _ ⟨⟩; exact .inr (by rintro n ⟨⟩)) fun resources => .done _

/-- A rejection of another resource spares the one under the key. -/
theorem sparesKey_reject {resource : ResourceName} (hkey : resource.text ≠ key) (reason : String) :
    (reject resource reason).Only (OperatorCall.SparesKey key) := by
  have hget : OperatorCall.SparesKey key (.resource (.get resource)) := by
    rintro _ ⟨⟩
    exact .inr (by rintro n ⟨⟩)
  rw [reject_eq]
  refine .ask hget fun found => (reportsOn_rejection _ reason).mono fun c hc => ?_
  rcases hc with ⟨m, rfl⟩ | ⟨w, rfl⟩ | ⟨live, r, hlive, rfl⟩
  · rintro _ ⟨⟩
  · rintro _ ⟨⟩
  · rintro _ ⟨⟩
    refine .inr ?_
    rintro n ⟨⟩
    cases found <;> exact hkey

/-- A rejection reads the resource and reports. -/
theorem calls_reject (resource : ResourceName) (reason : String) :
    (reject resource reason).Only
      fun c : OperatorCall => c = .resource (.get resource) ∨ c.Reports := by
  rw [reject_eq]
  exact .ask (.inl rfl) fun found => (reportsOn_rejection _ reason).mono fun c hc =>
    .inr hc.reports

end Operator

open Operator in
/-- What an admitted trigger starts spares a resource that is not managed, unless the trigger
rejects that resource. -/
theorem Work.sparesKey (h : Reliable answer v) {l l' : Ledger} {t : Trigger} {work : Work}
    (ha : l.admission t = (.started work, l')) (hs : v.valid s)
    (hr : (v.resources s).get? key = some r) (hm : r.isManaged o.managed = false)
    (hother : ∀ reason, t ≠ .resourceRejected ⟨key⟩ reason) {m : OperatorCall × σ}
    (hmem : m ∈ (work.task o).moments answer s) : m.1.SparesKey key := by
  cases t with
  | sweep =>
    cases ha
    exact ((sparesKey_sweep o key).bind fun _ => .done _).of_mem_moments hmem
  | resourceRejected resource reason =>
    cases ha
    have hkey : resource.text ≠ key := by
      rintro rfl
      exact hother reason rfl
    exact ((sparesKey_reject hkey reason).bind fun _ => .done _).of_mem_moments hmem
  | _ =>
    -- All other triggers are about a topic and start an attempt.
    cases Ledger.work_of_topic rfl ha
    rw [task, Program.moments_bind, Program.moments_done, List.append_nil] at hmem
    exact (footprint_reconcile h o hs hmem).sparesKey hr hm

end Unmanaged

/-- What the operator does about an admitted trigger leaves a resource that it does not manage as it
is, after every call and in the end, in every world that refuses to create what is there: unless the
trigger is a rejection of that very resource. Then the resource keeps its name, its labels and its
specification, though not its status. -/
theorem Reliable.unmanaged_kept {σ : Type} {answer : (c : OperatorCall) → σ → c.Answer × σ}
    {v : View σ} (h : Reliable answer v) (hc : RefusesTaken answer v) (o : Operator)
    {l l' : Ledger} {t : Trigger} {work : Work} (ha : l.admission t = (.started work, l')) {s : σ}
    (hs : v.valid s) {key : String} {r : Resource} (hr : (v.resources s).get? key = some r)
    (hm : r.isManaged o.managed = false) :
    ((∀ reason, t ≠ .resourceRejected ⟨key⟩ reason) →
      (∀ m ∈ (work.task o).moments answer s,
        (v.resources (answer m.1 m.2).2).get? key = some r) ∧
      (v.resources ((work.task o).run answer s).2).get? key = some r) ∧
    ((∃ reason, t = .resourceRejected ⟨key⟩ reason) →
      (∀ m ∈ (work.task o).moments answer s,
        ∃ r', (v.resources (answer m.1 m.2).2).get? key = some r' ∧ r'.SameContent r) ∧
      ∃ r', (v.resources ((work.task o).run answer s).2).get? key = some r' ∧
        r'.SameContent r) := by
  constructor
  · intro hother
    have hstep : ∀ m ∈ (work.task o).moments answer s,
        v.valid m.2 ∧ (v.resources m.2).get? key = some r →
          v.valid (answer m.1 m.2).2 ∧
            (v.resources (answer m.1 m.2).2).get? key = some r := by
      rintro m hmem ⟨hs', hr'⟩
      have hspares := Work.sparesKey h ha hs hr hm hother hmem
      exact ⟨h.valid _ _ hs', h.get?_of_sparesKey hc hspares hs' hr'⟩
    obtain ⟨hafter, -, hend⟩ := Program.invariant_of_moments
      (J := fun s' => v.valid s' ∧ (v.resources s').get? key = some r) ⟨hs, hr⟩ hstep
    exact ⟨fun m hmem => (hafter m hmem).2, hend⟩
  · rintro ⟨reason, rfl⟩
    cases ha
    have hcalls : ((Work.reject ⟨key⟩ reason).task o).Only
        fun c : OperatorCall => c = .resource (.get ⟨key⟩) ∨ c.Reports :=
      (Operator.calls_reject ⟨key⟩ reason).bind fun _ => .done _
    have hstep : ∀ m ∈ ((Work.reject ⟨key⟩ reason).task o).moments answer s,
        (v.valid m.2 ∧ ∃ r', (v.resources m.2).get? key = some r' ∧ r'.SameContent r) →
          v.valid (answer m.1 m.2).2 ∧
            ∃ r', (v.resources (answer m.1 m.2).2).get? key = some r' ∧ r'.SameContent r := by
      rintro m hmem ⟨hs', r', hr', hsame⟩
      refine ⟨h.valid _ _ hs', ?_⟩
      rcases hcalls.of_mem_moments hmem with hget | hreports
      · refine ⟨r', ?_, hsame⟩
        rw [hget, h.elsewhere hs' (by rintro n ⟨⟩), hr']
      · obtain ⟨r'', hr'', hsame'⟩ := h.sameContent_of_reports hreports hs' hr'
        exact ⟨r'', hr'', hsame'.trans hsame⟩
    obtain ⟨hafter, -, hend⟩ := Program.invariant_of_moments
      (J := fun s' => v.valid s' ∧
        ∃ r', (v.resources s').get? key = some r' ∧ r'.SameContent r) ⟨hs, r, hr, .refl r⟩ hstep
    exact ⟨fun m hmem => (hafter m hmem).2, hend⟩

namespace Memory.World

/-- What a server says to a creation under a name that is taken. -/
def taken (t : Topic) : Failure :=
  .api <| .refused
    ⟨"Failure", "kafkatopics " ++ t.resourceName.text ++ " already exists", "AlreadyExists", 409⟩

/-- The world in memory, but for creations of resources that are there, which are refused. -/
def guarded : (c : OperatorCall) → World → c.Answer × World
  | .resource (.create t), w =>
    if w.resources.byName.contains t.resourceName.text then
      (.error (taken t), w.note (.resource (.create t)))
    else answer (.resource (.create t)) w
  | c, w => answer c w

theorem guarded_cases (c : OperatorCall) (w : World) :
    guarded c w = answer c w ∨
      ∃ t, c = .resource (.create t) ∧ (guarded c w).2 = w.note (.resource (.create t)) := by
  match c with
  | .resource (.create t) =>
    rw [guarded]
    split
    · exact .inr ⟨t, rfl, rfl⟩
    · exact .inl rfl
  | .resource (.get _) | .resource .list | .resource (.update _) | .resource (.delete _)
  | .resource (.updateStatus ..) | .broker _ | .store _ | .warn _ | .wait _ | .count _ =>
    exact .inl rfl

theorem reliable_guarded : Reliable guarded view where
  valid c w h := by
    rcases guarded_cases c w with he | ⟨t, -, he⟩
    · rw [he]
      exact reliable.valid c w h
    · rw [he]
      exact h
  ownName := reliable.ownName
  recordName := reliable.recordName
  get := reliable.get
  record := reliable.record
  topicName := reliable.topicName
  effect {c n w} h hc := by
    rcases guarded_cases (.resource c) w with he | ⟨t, -, he⟩
    · rw [he]
      exact reliable.effect h hc
    · rw [he]
      exact .unchanged _ _
  elsewhere {c key w} h hc := by
    rcases guarded_cases (.resource c) w with he | ⟨t, -, he⟩
    · rw [he]
      exact reliable.elsewhere h hc
    · exact he ▸ rfl
  otherCalls {c w} h hc := by
    rcases guarded_cases c w with he | ⟨t, rfl, -⟩
    · rw [he]
      exact reliable.otherCalls h hc
    · exact absurd rfl (hc _)
  count := reliable.count

theorem refusesTaken_guarded : RefusesTaken guarded view := by
  intro t r w _ hr
  have htaken : w.resources.byName.contains t.resourceName.text = true := by
    rw [TextMap.contains, show w.resources.byName.get? t.resourceName.text = some r from hr]
    rfl
  rw [guarded, if_pos htaken]
  exact hr

/-- The labels of a resource that another operator manages. -/
def foreignLabels : TextMap String :=
  TextMap.empty.insert "app.kubernetes.io/managed-by" "another-operator"

def foreignOrders : Resource :=
  Resource.ofTopic { Plan.ordersStored with labels := some foreignLabels } "kafka"

/-- The brokers hold a topic that another operator's resource describes. -/
def foreignWorld : World :=
  { empty with
    brokers := Brokers.empty.put Plan.ordersStored
    resources := Resources.empty.put foreignOrders }

theorem valid_foreignWorld : view.valid foreignWorld :=
  ⟨Resources.named_empty.insert rfl, Brokers.named_empty.insert rfl⟩

def foreignWork : Work := .attempt Plan.ordersStored.name none "KafkaTopicCreated"

theorem unmanaged_kept_foreign :
    foreignOrders.isManaged ordersOperator.managed = false ∧
      (view.resources foreignWorld).get? "orders" = some foreignOrders ∧
      (view.resources ((foreignWork.task ordersOperator).run guarded foreignWorld).2).get?
        "orders" = some foreignOrders := by
  have hstarted : (Ledger.empty.admission (.kafkaTopicCreated Plan.ordersStored.name)).1 =
      .started foreignWork := by
    decide
  have hmanaged : foreignOrders.isManaged ordersOperator.managed = false := by decide +kernel
  have hthere : (view.resources foreignWorld).get? "orders" = some foreignOrders := by
    decide +kernel
  have hkept := reliable_guarded.unmanaged_kept refusesTaken_guarded ordersOperator
    (Prod.ext hstarted rfl) valid_foreignWorld hthere hmanaged
  exact ⟨hmanaged, hthere, (hkept.1 (by rintro reason ⟨⟩)).2⟩

def foreignRejection : Work := .reject ⟨"orders"⟩ "Invalid topic name"

/-- The rejection of a resource that is not managed writes its status. -/
theorem rejection_marks_foreign :
    foreignOrders.isManaged ordersOperator.managed = false ∧
      (view.resources foreignWorld).get? "orders" = some foreignOrders ∧
      (∃ l, Ledger.empty.admission (.resourceRejected ⟨"orders"⟩ "Invalid topic name") =
        (.started foreignRejection, l)) ∧
      (view.resources ((foreignRejection.task ordersOperator).run guarded foreignWorld).2).get?
        "orders" ≠ some foreignOrders := by
  have hmarked : ((view.resources
      ((foreignRejection.task ordersOperator).run guarded foreignWorld).2).get? "orders").any
        (fun r => r.status.isSome) = true := by
    decide +kernel
  refine ⟨by decide +kernel, by decide +kernel, ⟨_, rfl⟩, fun hkept => ?_⟩
  rw [hkept] at hmarked
  exact absurd hmarked (by decide)

end Memory.World

end TopicSync
