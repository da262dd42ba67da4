import TopicSync.Memory.World
import TopicSync.Operator.Loop
import TopicSync.Proofs.TextMap
import TopicSync.Watch.ResourceView

/-!
What the view of the resources makes of the reports that the operator itself writes. A report
changes the status of a resource and the version of its object, which is nothing that the view goes
by. A resource that describes a legal topic therefore stays quiet, however often its status is
written. One that does not is turned down anew each time; as that is reported too, the operator
keeps itself busy with it.
-/
namespace TopicSync

/-- The second resource is the first with its status written: the server gives the object another
version, and leaves its generation, its labels and all else as they are. -/
structure Resource.SameButStatus (r r' : Resource) : Prop where
  metadata : { r'.metadata with resourceVersion := r.metadata.resourceVersion } = r.metadata
  spec : r'.spec = r.spec

namespace Resource.SameButStatus

variable {r r' : Resource} {managed : Selector}

theorem generation_eq (h : r.SameButStatus r') :
    r'.metadata.generation = r.metadata.generation := by
  rw [← h.metadata]

theorem nameText_eq (h : r.SameButStatus r') : r'.nameText = r.nameText := by
  rw [nameText, nameText, ← h.metadata]

theorem isManaged_eq (h : r.SameButStatus r') : r'.isManaged managed = r.isManaged managed := by
  rw [isManaged, isManaged, labels, labels, ← h.metadata]

theorem topicName_eq (h : r.SameButStatus r') : r'.topicName = r.topicName := by
  rw [topicName, topicName, topicText, topicText, h.spec, h.nameText_eq]

end Resource.SameButStatus

namespace ResourceView

variable {managed : Selector} {r r' : Resource}

/-- Take in events in turn: the triggers that follow from them, and the view after them. -/
def observeAll (v : ResourceView) : List WatchEvent → List Trigger × ResourceView
  | [] => ([], v)
  | e :: es =>
    let (ts, v) := v.observe e
    let (rest, v) := v.observeAll es
    (ts ++ rest, v)

/-- The trigger that turns a resource down: it is managed and names no legal topic. -/
def rejection? (managed : Selector) (r : Resource) : Option Trigger :=
  if r.isManaged managed then
    match r.topicName with
    | .error e => some (.resourceRejected ⟨r.nameText⟩ e.message)
    | .ok _ => none
  else none

theorem managed_apply (v : ResourceView) (r : Resource) : (v.apply r).2.managed = v.managed := by
  rw [apply]
  split
  · rfl
  · split <;> rfl

theorem managed_observe (v : ResourceView) (e : WatchEvent) :
    (v.observe e).2.managed = v.managed := by
  cases e with
  | start => rfl
  | listed r => exact managed_apply _ r
  | finished =>
    simp only [observe, finish]
    split <;> rfl
  | applied r => exact managed_apply v r
  | deleted r => rfl

theorem managed_observeAll (v : ResourceView) (es : List WatchEvent) :
    (v.observeAll es).2.managed = v.managed := by
  induction es generalizing v with
  | nil => rfl
  | cons e es ih => exact (ih _).trans (v.managed_observe e)

theorem observeAll_append (v : ResourceView) (es fs : List WatchEvent) :
    v.observeAll (es ++ fs) =
      ((v.observeAll es).1 ++ ((v.observeAll es).2.observeAll fs).1,
        ((v.observeAll es).2.observeAll fs).2) := by
  induction es generalizing v with
  | nil => rfl
  | cons e es ih =>
    simp only [List.cons_append, observeAll, ih, List.append_assoc]

/-- The view does not see what has become of the status. -/
theorem apply_congr (v : ResourceView) (h : r.SameButStatus r') : v.apply r' = v.apply r := by
  rw [apply, apply, h.isManaged_eq, h.topicName_eq, h.nameText_eq, h.generation_eq]

/-- Taking in a resource that has just been taken in changes nothing, and gives no trigger but a
rejection. -/
theorem apply_apply (v : ResourceView) (r : Resource) :
    (v.apply r).2.apply r = (rejection? v.managed r, (v.apply r).2) := by
  by_cases hm : r.isManaged v.managed = true
  · cases ht : r.topicName with
    | error e =>
      have happly : v.apply r = (some (.resourceRejected ⟨r.nameText⟩ e.message), v) := by
        simp [apply, hm, ht]
      simp [rejection?, happly, hm, ht]
    | ok topic =>
      have hagain : ∀ now : Seen,
          (v.seen.insert r.nameText now).insert r.nameText now = v.seen.insert r.nameText now := by
        intro now
        refine TextMap.ext fun k => ?_
        by_cases hk : k = r.nameText <;> simp [hk]
      simp [apply, rejection?, hm, ht, hagain]
  · have happly : v.apply r = (none, v) := by simp [apply, hm]
    simp [rejection?, happly, hm]

/-- The triggers of a number of writes of the status, right after the resource was taken in. -/
theorem observeAll_statusWrites (v : ResourceView) {rs : List Resource}
    (h : ∀ r' ∈ rs, r.SameButStatus r') :
    (v.apply r).2.observeAll (rs.map .applied) =
      (rs.flatMap fun _ => (rejection? v.managed r).toList, (v.apply r).2) := by
  induction rs with
  | nil => rfl
  | cons r' rs ih =>
    have hstep : (v.apply r).2.observe (.applied r') =
        ((rejection? v.managed r).toList, (v.apply r).2) := by
      simp only [observe, apply_congr _ (h r' (.head _)), apply_apply]
    rw [List.map_cons, observeAll, hstep]
    simp only [ih fun r'' hr'' => h r'' (.tail _ hr''), List.flatMap_cons]

/-- After a resource has been taken in, whatever was observed before, its status may be written any
number of times. No trigger follows if the resource describes a legal topic, or is not managed at
all; otherwise it is turned down once more at every write. -/
theorem triggers_of_statusWrites (managed : Selector) (before : List WatchEvent)
    {rs : List Resource} (h : ∀ r' ∈ rs, r.SameButStatus r') :
    let v := ((create managed).observeAll (before ++ [.applied r])).2
    ((r.isManaged managed = true → ∃ topic, r.topicName = .ok topic) →
      (v.observeAll (rs.map .applied)).1 = []) ∧
    ∀ e, r.isManaged managed = true → r.topicName = .error e →
      (v.observeAll (rs.map .applied)).1 =
        List.replicate rs.length (.resourceRejected ⟨r.nameText⟩ e.message) := by
  intro v
  have hv : v = (((create managed).observeAll before).2.apply r).2 := by
    simp only [v, observeAll_append]
    rfl
  have htriggers : (v.observeAll (rs.map .applied)).1 =
      rs.flatMap fun _ => (rejection? managed r).toList := by
    rw [hv, observeAll_statusWrites _ h, managed_observeAll]
    rfl
  rw [htriggers]
  constructor
  · intro hlegal
    have hnone : rejection? managed r = none := by
      rw [rejection?]
      split
      next hm =>
        obtain ⟨topic, ht⟩ := hlegal hm
        rw [ht]
      next => rfl
    simp [hnone]
  · intro e hm ht
    have hsome : rejection? managed r = some (.resourceRejected ⟨r.nameText⟩ e.message) := by
      simp [rejection?, hm, ht]
    rw [hsome, Option.toList_some, ← List.map_eq_flatMap, List.map_const']

/-- The resource of the topic `orders` as it was created. -/
def freshOrders : Resource where
  metadata := { Metadata.empty with
    name := some "orders"
    generation := some 1
    labels := some Selector.managed.labels
    resourceVersion := some "1" }
  spec := ⟨none, 3, 1, .empty⟩
  status := none

/-- The same once it has been reported to be in order. -/
def readyOrders : Resource :=
  { freshOrders with
    metadata := { freshOrders.metadata with resourceVersion := some "2" }
    status := some ((Report.ready 1).status Memory.Resources.epoch) }

theorem triggers_of_statusWrites_orders :
    freshOrders.SameButStatus readyOrders ∧
      (((create .managed).observeAll [.applied freshOrders]).2.observeAll
        [.applied readyOrders]).1 = [] := by
  have hsame : freshOrders.SameButStatus readyOrders := ⟨rfl, rfl⟩
  have hlegal : ∃ topic, freshOrders.topicName = .ok topic := ⟨⟨"orders", by decide⟩, rfl⟩
  have hwrites : ∀ r' ∈ [readyOrders], freshOrders.SameButStatus r' := by simpa using hsame
  exact ⟨hsame, (triggers_of_statusWrites .managed [] hwrites).1 fun _ => hlegal⟩

end ResourceView

namespace Memory

/-- A report on a resource leaves every resource as it was, apart from its status. -/
theorem Resources.sameButStatus_updateStatus {s : Resources} {name : ResourceName} {report : Report}
    {key : String} {r' : Resource}
    (h : (answer (.updateStatus name report) s).2.byName.get? key = some r') :
    ∃ r, s.byName.get? key = some r ∧ r.SameButStatus r' := by
  simp only [answer, updateStatus] at h
  split at h
  next r hr =>
    simp only [TextMap.get?_insert] at h
    split at h
    next hk =>
      cases h
      exact ⟨r, hk ▸ hr, rfl, rfl⟩
    next => exact ⟨r', h, rfl, rfl⟩
  next => exact ⟨r', h, rfl, rfl⟩

namespace World

/-- A resource that describes no legal topic. -/
def misnamed : Resource :=
  { ResourceView.freshOrders with spec := ⟨some "not valid", 3, 1, .empty⟩ }

def misnamedReason : String :=
  "Invalid topic name 'not valid': only ASCII alphanumerics, '.', '_' and '-' are allowed"

/-- The trigger that turns the resource down. -/
def misnamedRejection : Trigger := .resourceRejected ⟨"orders"⟩ misnamedReason

def misnamedWork : Work := .reject ⟨"orders"⟩ misnamedReason

def misnamedWorld : World := { empty with resources := Resources.empty.put misnamed }

/-- The resource after the operator has reported on it. -/
def misnamedReported : Resource :=
  { misnamed with
    status := some ((Report.failed 1 (.invalidResource "orders" misnamedReason)).status
      Resources.epoch) }

/-- A resource without a legal topic is turned down, and the operator writes that into its status.
The view takes the object with that status for a reason to turn the resource down again, which the
operator meets in the same way. -/
theorem rejection_returns :
    ((ResourceView.create .managed).observe (.applied misnamed)).1 = [misnamedRejection] ∧
      (Ledger.empty.admission misnamedRejection).1 = .started misnamedWork ∧
      ((misnamedWork.task ⟨.managed, .default⟩).run answer misnamedWorld).2.resources.byName.get?
        "orders" = some misnamedReported ∧
      misnamed.SameButStatus misnamedReported ∧
      (((ResourceView.create .managed).observe (.applied misnamed)).2.observe
        (.applied misnamedReported)).1 = [misnamedRejection] := by
  refine ⟨by decide +kernel, by decide +kernel, by decide +kernel, ⟨rfl, rfl⟩, by decide +kernel⟩

end World

end Memory

end TopicSync
