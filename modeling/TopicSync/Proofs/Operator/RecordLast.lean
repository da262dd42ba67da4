import TopicSync.Proofs.Memory.Inventory
import TopicSync.Proofs.Operator.Attempt

/-!
That the record of a topic is written last. An attempt makes one call at most that changes the
store. By then everything else that was planned has been done, and a new topic has been seen; after
it there are only reports. So if an attempt fails, whatever has failed, all records are as before.
-/
namespace TopicSync

namespace OperatorCall

theorem Inquires.changesNothing {c : OperatorCall} (h : c.Inquires) :
    c.changesTopics = false ∧ c.changesResources = false := by
  rcases h with ⟨_, rfl⟩ | ⟨_, rfl⟩ | ⟨_, rfl⟩ <;> exact ⟨rfl, rfl⟩

theorem store_of_writesStore {c : OperatorCall} (h : c.writesStore = true) :
    ∃ sc, c = store sc := by
  cases c with
  | store sc => exact ⟨sc, rfl⟩
  | _ => cases h

theorem Reports.changesNothing {c : OperatorCall} (h : c.Reports) :
    c.changesTopics = false ∧ c.changesResources = false := by
  rcases h with ⟨m, rfl⟩ | ⟨w, rfl⟩ | ⟨name, r, rfl⟩ <;> exact ⟨rfl, rfl⟩

end OperatorCall

section Writes

variable {σ : Type} {answer : (c : OperatorCall) → σ → c.Answer × σ} {o : Operator}
  {topic : TopicName} {named : Option ResourceName} {s s' : σ} {subject : Subject} {p : Plan}
  {init : List Action} {last : Action} {ms before after : List (OperatorCall × σ)} {c : StoreCall}

/-- The one entry of its kind in a list is found wherever the list is cut at it. -/
theorem eq_of_append_cons_eq {α : Type} {P : α → Prop} {xs ys xs' ys' : List α} {x y : α}
    (hxs : ∀ a ∈ xs, ¬ P a) (hys : ∀ a ∈ ys, ¬ P a) (hy : P y)
    (h : xs ++ x :: ys = xs' ++ y :: ys') : xs' = xs ∧ y = x ∧ ys' = ys := by
  induction xs generalizing xs' with
  | nil =>
    cases xs' with
    | nil => simpa [eq_comm] using h
    | cons a as =>
      have hmem : y ∈ ys := by
        rw [(List.cons.inj h).2]
        simp
      exact absurd hy (hys y hmem)
  | cons a as ih =>
    cases xs' with
    | nil =>
      obtain ⟨rfl, -⟩ := List.cons.inj h
      exact absurd hy (hxs a (.head _))
    | cons b bs =>
      obtain ⟨rfl, htail⟩ := List.cons.inj h
      obtain ⟨rfl, rfl, rfl⟩ := ih (fun b hb => hxs b (.tail _ hb)) htail
      exact ⟨rfl, rfl, rfl⟩

/-- A write of the record comes last. It is the call of the last action of a plan made of what has
been read before; all other actions of the plan have been carried out by then; and only reports
follow. -/
inductive WrittenLast (answer : (c : OperatorCall) → σ → c.Answer × σ) (o : Operator)
    (topic : TopicName) (named : Option ResourceName) (s : σ)
    (before : List (OperatorCall × σ)) (c : StoreCall) (after : List (OperatorCall × σ)) :
    Prop where
  | intro {subject : Subject} {p : Plan} {reads done : List (OperatorCall × σ)} {s' : σ}
      {init : List Action} {last : Action}
      (hplanned : Operator.Planned answer o topic named (answer (.count .reconciliation) s).2
        subject p reads s')
      (hactions : p.actions = init ++ [last]) (hlast : last.call subject = .store c)
      (hbefore : before = (.count .reconciliation, s) :: (reads ++ done))
      (hdone : ∀ a ∈ init, a.CarriedOut answer subject done)
      (hafter : ∀ m ∈ after, m.1.Reports)

namespace Operator

theorem Planned.inquires {reads : List (OperatorCall × σ)}
    (h : Planned answer o topic named s subject p reads s') : ∀ m ∈ reads, m.1.Inquires := by
  cases h
  simp only [List.mem_cons, List.not_mem_nil, or_false]
  rintro m (rfl | rfl | rfl)
  · exact .inl ⟨_, rfl⟩
  · exact .inr (.inl ⟨_, rfl⟩)
  · exact .inr (.inr ⟨_, rfl⟩)

theorem spares_forAll (o : Operator) (subject : Subject) (s : σ)
    (hinit : ∀ a ∈ init, a.isOnRecord = false) :
    ∀ m ∈ (Program.forAll (o.execute subject) init).moments answer s,
      m.1.writesStore = false := by
  have honly : (Program.forAll (o.execute subject) init).Only
      fun c : OperatorCall => c.writesStore = false :=
    .forAll fun a ha => (o.calls_execute subject a).mono fun _ hc =>
      Action.writesStore_of_calls (hinit a ha) hc
  exact fun m hm => honly.of_mem_moments hm

/-- An action on the record ends as the store has it. -/
theorem error_of_isOnRecord {a : Action} (ha : a.isOnRecord = true) :
    ∃ c, a.call subject = .store c ∧ ∀ (s : σ) e,
      ((o.execute subject a).run answer s).1 = .error e →
        ∃ e', (answer (.store c) s).1 = .error e' := by
  cases a with
  | createStored t => exact ⟨_, rfl, fun _ _ h => (error_of_mapError h).imp fun _ he => he.1⟩
  | updateStored t => exact ⟨_, rfl, fun _ _ h => (error_of_mapError h).imp fun _ he => he.1⟩
  | deleteStored name => exact ⟨_, rfl, fun _ _ h => (error_of_mapError h).imp fun _ he => he.1⟩
  | _ => cases ha

/-- What the actions of a plan write to the store: nothing, or the last of them writes the record
when all others have been carried out. -/
theorem Planned.write_cases {reads : List (OperatorCall × σ)}
    (h : Planned answer o topic named s subject p reads s') :
    (∀ m ∈ (Program.forAll (o.execute subject) p.actions).moments answer s',
      m.1.writesStore = false) ∨
    ∃ init last c done s₁, p.actions = init ++ [last] ∧ last.call subject = .store c ∧
      (Program.forAll (o.execute subject) p.actions).moments answer s' =
        done ++ [(.store c, s₁)] ∧
      (∀ m ∈ done, m.1.writesStore = false) ∧ (∀ a ∈ init, a.CarriedOut answer subject done) ∧
      ∀ e, ((Program.forAll (o.execute subject) p.actions).run answer s').1 = .error e →
        ∃ e', (answer (.store c) s₁).1 = .error e' := by
  cases h with
  | intro _ _ _ _ _ hplan =>
    rcases Plan.record_last hplan with hempty | ⟨init, last, hactions, hlast, hinit⟩
    · left
      rw [hempty]
      simp [Program.forAll]
    · rw [hactions]
      rcases Program.forAll_concat_cases (o.execute _) init last s' with
        ⟨e, -, hms⟩ | ⟨s₁, hfirst, hrun, hms⟩
      · left
        rw [hms]
        exact spares_forAll o _ s' hinit
      · obtain ⟨c, hc, herror⟩ := error_of_isOnRecord hlast
        rw [moments_execute_of_isOnRecord hlast, hc] at hms
        rw [hrun]
        exact .inr ⟨init, last, c, _, s₁, rfl, hc, hms, spares_forAll o _ s' hinit,
          fun a ha => carriedOut_forAll hfirst ha, herror s₁⟩

/-- A call that writes the store comes last, and an attempt that fails has seen it fail. -/
theorem writtenLast_of_write (h : (o.reconcile topic named).moments answer s =
      before ++ (.store c, s') :: after) (hc : (OperatorCall.store c).writesStore = true) :
    WrittenLast answer o topic named s before c after ∧
      ∀ e, ((o.reconcile topic named).run answer s).1 = .error e →
        ∃ e', (answer (.store c) s').1 = .error e' := by
  obtain ⟨ms, outcome, tail, hmoments, hresult, hcourse, hconclusion⟩ :=
    course_reconcile answer o topic named s
  have htail := reports_of_conclusion hconclusion
  rw [hmoments] at h
  rw [hresult]
  have hsome : ¬ ∀ m ∈ ms, m.1.writesStore = false := by
    intro hms
    have hmem : (OperatorCall.store c, s') ∈ (.count .reconciliation, s) :: (ms ++ tail) := by
      rw [h]
      simp
    rcases List.mem_cons.1 hmem with he | hmem
    · cases he
    · rcases List.mem_append.1 hmem with hm | hm
      · simp [hms _ hm] at hc
      · simp [(htail _ hm).writesStore] at hc
  cases hcourse with
  | stopped hstop => exact absurd (fun m hm => (hstop m hm).writesStore) hsome
  | @planned subject p reads s₁ hplanned =>
    have hreads : ∀ m ∈ reads, m.1.writesStore = false :=
      fun m hm => (hplanned.inquires m hm).writesStore
    rcases hplanned.write_cases with
      hnone | ⟨init, last, c', done, s₂, hactions, hlast, hms, hspares, hdone, herror⟩
    · exact absurd (List.forall_mem_append.2 ⟨hreads, hnone⟩) hsome
    · rw [hms] at h
      have hfirst : ∀ m ∈ (OperatorCall.count .reconciliation, s) :: (reads ++ done),
          ¬ m.1.writesStore = true := by
        simp only [List.forall_mem_cons, List.forall_mem_append, Bool.not_eq_true]
        exact ⟨rfl, hreads, hspares⟩
      have hrest : ∀ m ∈ tail, ¬ m.1.writesStore = true :=
        fun m hm => by simp [(htail m hm).writesStore]
      obtain ⟨rfl, he, rfl⟩ := eq_of_append_cons_eq (x := (OperatorCall.store c', s₂))
        hfirst hrest hc (by simpa using h)
      cases he
      refine ⟨.intro hplanned hactions hlast rfl hdone htail, fun e he => ?_⟩
      cases hresult' : ((Program.forAll (o.execute subject) p.actions).run answer s₁).1 with
      | ok _ =>
        rw [hresult'] at he
        cases he
      | error e' => exact herror e' hresult'

end Operator

namespace Steady

variable {v : Inventory σ}

theorem valid_moments (h : Steady answer v) (hs : v.valid s) {α : Type} (t : Task α) :
    ∀ m ∈ t.moments answer s, v.valid m.2 := by
  have hmeets : Program.Meets answer t s (fun _ s => v.valid s) (fun _ => v.valid) :=
    .of_only (P := fun _ => True) (.of_forall fun _ => trivial)
      (fun c s _ hs => ⟨hs, h.valid c s hs⟩) hs
  exact hmeets.calls

theorem valid_of_planned (h : Steady answer v) (hs : v.valid s)
    {reads : List (OperatorCall × σ)}
    (hp : Operator.Planned answer o topic named s subject p reads s') : v.valid s' := by
  have hnext : ∀ {c : OperatorCall} {r : c.Answer} {s s' : σ}, answer c s = (r, s') →
      v.valid s → v.valid s' := by
    intro c r s s' he hs
    have hafter := h.valid c s hs
    rwa [he] at hafter
  cases hp with
  | intro hstored hlive _ _ hkafka _ => exact hnext hkafka (hnext hlive (hnext hstored hs))

/-- Actions fail with nothing that the planner would have said. -/
theorem isVerdict_of_forAll (h : Steady answer v) (hs : v.valid s) {actions : List Action}
    {e : Failure} (he : ((Program.forAll (o.execute subject) actions).run answer s).1 = .error e) :
    e.isVerdict = false := by
  obtain ⟨a, -, before, s', hms, hrun⟩ := Program.of_forAll_error he
  rcases Operator.failure_execute hrun with ⟨t, rfl⟩ | ⟨m, hm, hfails⟩
  · rfl
  · have hmem : m ∈ (Program.forAll (o.execute subject) actions).moments answer s := by
      rw [hms]
      exact List.mem_append_right _ hm
    exact h.verdicts (h.valid_moments hs _ m hmem) hfails

/-- An attempt that ends with a verdict of the planner has got no further than its reads. -/
theorem changesNothing_of_verdict (h : Steady answer v) (hs : v.valid s) {e : Failure}
    (he : ((o.reconcile topic named).run answer s).1 = .error e) (hv : e.isVerdict = true) :
    ∀ m ∈ (o.reconcile topic named).moments answer s,
      m.1.changesTopics = false ∧ m.1.changesResources = false := by
  obtain ⟨ms, outcome, tail, hmoments, hresult, hcourse, hconclusion⟩ :=
    Operator.course_reconcile answer o topic named s
  have htail := Operator.reports_of_conclusion hconclusion
  rw [hresult] at he
  rw [hmoments]
  simp only [List.forall_mem_cons, List.forall_mem_append]
  refine ⟨⟨rfl, rfl⟩, ?_, fun m hm => (htail m hm).changesNothing⟩
  cases hcourse with
  | stopped hstop => exact fun m hm => (hstop m hm).changesNothing
  | @planned subject p reads s₁ hplanned =>
    exfalso
    have hvalid := h.valid_of_planned (h.valid _ s hs) hplanned
    cases hrun : ((Program.forAll (o.execute subject) p.actions).run answer s₁).1 with
    | ok _ =>
      rw [hrun] at he
      cases he
    | error e' =>
      rw [hrun] at he
      cases he
      rw [h.isVerdict_of_forAll hvalid hrun] at hv
      cases hv

end Steady

/-- The record of a topic is written last, and only on success. If an attempt fails, all records
are as before; if it fails by a verdict of the planner, so are the topics, and the specifications
and labels of all resources. If it writes, replaces or deletes a record, that is the last action of
its plan: all others have been carried out by then, and a topic that was created has been read. -/
theorem Operator.record_written_last {v : Inventory σ} (h : Steady answer v) (hs : v.valid s)
    (o : Operator) (topic : TopicName) (named : Option ResourceName) :
    (∀ e, ((o.reconcile topic named).run answer s).1 = .error e →
      v.record ((o.reconcile topic named).run answer s).2 = v.record s ∧
        (e.isVerdict = true →
          v.topics ((o.reconcile topic named).run answer s).2 = v.topics s ∧
          ∀ key, ((v.resources ((o.reconcile topic named).run answer s).2).get? key).map
              Resource.edited = ((v.resources s).get? key).map Resource.edited)) ∧
    ∀ before c s₁ after,
      (o.reconcile topic named).moments answer s = before ++ (.store c, s₁) :: after →
      (OperatorCall.store c).writesStore = true →
      WrittenLast answer o topic named s before c after := by
  have hvalid := h.valid_moments hs (o.reconcile topic named)
  refine ⟨fun e he => ⟨?_, fun hv => ?_⟩, fun before c s₁ after hms hc =>
    (Operator.writtenLast_of_write hms hc).1⟩
  · refine Program.run_keeps fun m hm => ?_
    by_cases hw : m.1.writesStore = true
    · obtain ⟨c, hc⟩ := OperatorCall.store_of_writesStore hw
      obtain ⟨before, after, hms⟩ := List.append_of_mem hm
      obtain ⟨c', s₁⟩ := m
      cases hc
      obtain ⟨e', hfailed⟩ := (Operator.writtenLast_of_write hms hw).2 e he
      exact h.refused (hvalid _ hm) hfailed
    · exact h.records (hvalid m hm) (by simpa using hw)
  · have hnothing := h.changesNothing_of_verdict hs he hv
    refine ⟨Program.run_keeps fun m hm => h.topics (hvalid m hm) (hnothing m hm).1, fun key => ?_⟩
    exact Program.run_keeps (f := fun s => ((v.resources s).get? key).map Resource.edited)
      fun m hm => h.resources key (hvalid m hm) (hnothing m hm).2

end Writes

namespace Memory.World

/-- A new resource for the topic `orders`, while the store is down for writing. -/
def storeDown : World :=
  { empty with
    resources := Resources.empty.create Plan.ordersStored 1
    faults := Faults.none.add "store.create" [some (.store (.backend "down"))] }

theorem valid_storeDown : inventory.valid storeDown := by
  intro operation outcomes e hget he
  have hqueue : outcomes = [some (.store (.backend "down"))] := by
    simp only [storeDown, Faults.add, TextMap.get?_insert] at hget
    split at hget
    · exact (Option.some.inj hget).symm
    · cases hget
  rw [hqueue] at he
  simp only [List.mem_singleton, Option.some.injEq] at he
  rw [he]
  rfl

theorem record_written_last_storeDown :
    (∃ e, ((ordersOperator.reconcile Plan.ordersStored.name none).run answer storeDown).1 =
        .error e ∧
      inventory.record
        ((ordersOperator.reconcile Plan.ordersStored.name none).run answer storeDown).2 =
          inventory.record storeDown) ∧
    ∃ before c w after,
      (ordersOperator.reconcile Plan.ordersStored.name none).moments answer storeDown =
          before ++ (.store c, w) :: after ∧
        WrittenLast answer ordersOperator Plan.ordersStored.name none storeDown before c after := by
  have hlast := Operator.record_written_last steady valid_storeDown ordersOperator
    Plan.ordersStored.name none
  have hfails : ((ordersOperator.reconcile Plan.ordersStored.name none).run answer storeDown).1 =
      .error (.store (.backend "down")) := by
    decide +kernel
  have hwrites : (((ordersOperator.reconcile Plan.ordersStored.name none).moments answer
      storeDown).any fun m => m.1.writesStore) = true := by
    decide +kernel
  obtain ⟨⟨c, w⟩, hm, hc⟩ := List.any_eq_true.1 hwrites
  obtain ⟨sc, rfl⟩ : ∃ sc, c = .store sc := OperatorCall.store_of_writesStore hc
  obtain ⟨before, after, hms⟩ := List.append_of_mem hm
  exact ⟨⟨_, hfails, (hlast.1 _ hfails).1⟩, before, sc, w, after, hms, hlast.2 _ _ _ _ hms hc⟩

end Memory.World

end TopicSync
