import TopicSync.Proofs.Memory.View
import TopicSync.Proofs.Operator.Indifference
import TopicSync.Proofs.TextMap

/-!
The world in memory, and one in which reports get lost, as worlds that differ only in what they make
of reports. What they have in common are the topics, the resources but for their statuses, the
records, and the failures that are arranged for anything but writing a status.
-/
namespace TopicSync

def Resource.withoutStatus (r : Resource) : Resource := { r with status := none }

namespace Memory

namespace Resources

/-- The same resources, without their statuses. -/
def blank (s : Resources) : Resources := ⟨s.byName.map Resource.withoutStatus⟩

theorem blank_updateStatus (s : Resources) (name : ResourceName) (r : Report) :
    (s.updateStatus name r).blank = s.blank := by
  rw [updateStatus]
  split
  next found hfound =>
    refine congrArg Resources.mk (TextMap.ext fun key => ?_)
    simp only [TextMap.get?_map, TextMap.get?_insert]
    split
    next hkey =>
      rw [hkey, hfound]
      rfl
    next => rfl
  next => rfl

/-- Resources are rewritten by all that they have but their statuses. -/
theorem blank_update (s : Resources) (t : Topic) : (s.update t).blank = s.blank.update t := by
  rw [update, update, blank]
  refine congrArg Resources.mk ?_
  rw [TextMap.map_insert]
  refine congrArg (TextMap.insert _ _) ?_
  simp only [blank, TextMap.get?_map]
  cases s.byName.get? t.resourceName.text <;> rfl

theorem blank_answer {c : ResourceCall} (ha : (OperatorCall.resource c).announces = false)
    (hs : (OperatorCall.resource c).showsStatus = false) (s : Resources) :
    (answer c s).1 = (answer c s.blank).1 ∧ (answer c s).2.blank = (answer c s.blank).2 := by
  cases c with
  | get name => cases hs
  | list => cases hs
  | create t => exact ⟨rfl, congrArg Resources.mk (TextMap.map_insert _ _ _ _)⟩
  | update t => exact ⟨rfl, blank_update s t⟩
  | delete name => exact ⟨rfl, congrArg Resources.mk (TextMap.map_erase _ _ _)⟩
  | updateStatus name r => cases ha

end Resources

namespace World

variable {w : World}

/-- What a world holds that no report changes. -/
def content (w : World) : World :=
  { w with
    resources := w.resources.blank
    faults := ⟨w.faults.queues.erase "k8s.update_status"⟩
    counters := .zero
    now := 0
    log := [] }

theorem content_eq_iff {w w' : World} : w.content = w'.content ↔
    w.brokers = w'.brokers ∧ w.resources.blank = w'.resources.blank ∧ w.store = w'.store ∧
      w.tree = w'.tree ∧ w.faults.queues.erase "k8s.update_status" =
        w'.faults.queues.erase "k8s.update_status" := by
  simp [content]

/-- Failures arranged for other operations than writing a status come in their turn, whatever is
arranged for that. -/
theorem nextFault_congr {w w' : World} (h : w.content = w'.content) {operation : String}
    (hop : operation ≠ "k8s.update_status") (c : OperatorCall) :
    ∃ e w₁ w₂, (w.note c).nextFault operation = (e, w₁) ∧
      (w'.note c).nextFault operation = (e, w₂) ∧ w₁.content = w₂.content := by
  obtain ⟨hb, hr, hs, ht, hf⟩ := content_eq_iff.1 h
  have hqueue : w.faults.queues.get? operation = w'.faults.queues.get? operation := by
    have hget := congrArg (TextMap.get? · operation) hf
    simpa only [TextMap.get?_erase, if_neg hop] using hget
  simp only [nextFault, Faults.next, note, ← hqueue]
  cases w.faults.queues.get? operation with
  | none => exact ⟨_, _, _, rfl, rfl, content_eq_iff.2 ⟨hb, hr, hs, ht, hf⟩⟩
  | some outcomes =>
    cases outcomes with
    | nil => exact ⟨_, _, _, rfl, rfl, content_eq_iff.2 ⟨hb, hr, hs, ht, hf⟩⟩
    | cons o os =>
      refine ⟨_, _, _, rfl, rfl, content_eq_iff.2 ⟨hb, hr, hs, ht, ?_⟩⟩
      simp only [TextMap.erase_insert_of_ne hop, hf]

theorem content_nextFault (w : World) (c : OperatorCall) :
    ∃ e w₁, (w.note c).nextFault "k8s.update_status" = (e, w₁) ∧ w₁.content = w.content := by
  refine ⟨_, _, rfl, content_eq_iff.2 ⟨rfl, rfl, rfl, rfl, ?_⟩⟩
  simp only [note]
  split
  · exact TextMap.erase_insert_self _ _ _
  · rfl

/-- What a call that shows no status is answered, and what it leaves, is settled by the content. -/
theorem answer_congr {c : OperatorCall} (ha : c.announces = false) (hs : c.showsStatus = false)
    {w w' : World} (h : w.content = w'.content) :
    (answer c w).1 = (answer c w').1 ∧ (answer c w).2.content = (answer c w').2.content := by
  cases c with
  | broker bc =>
    have hop : brokerOperation bc ≠ "k8s.update_status" := by cases bc <;> simp [brokerOperation]
    obtain ⟨e, w₁, w₂, h₁, h₂, hcontent⟩ := nextFault_congr h hop (.broker bc)
    rw [answer, answer, h₁, h₂]
    cases e with
    | some e => exact ⟨rfl, hcontent⟩
    | none =>
      obtain ⟨hb, hr, hst, ht, hf⟩ := content_eq_iff.1 hcontent
      dsimp only
      rw [hb]
      exact ⟨rfl, content_eq_iff.2 ⟨rfl, hr, hst, ht, hf⟩⟩
  | resource rc =>
    have hop : resourceOperation rc ≠ "k8s.update_status" := by
      cases rc with
      | updateStatus name r => cases ha
      | _ => simp [resourceOperation]
    obtain ⟨e, w₁, w₂, h₁, h₂, hcontent⟩ := nextFault_congr h hop (.resource rc)
    rw [answer, answer, h₁, h₂]
    cases e with
    | some e => exact ⟨rfl, hcontent⟩
    | none =>
      obtain ⟨hb, hr, hst, ht, hf⟩ := content_eq_iff.1 hcontent
      obtain ⟨hvalue, hblank⟩ := Resources.blank_answer ha hs w₁.resources
      obtain ⟨hvalue', hblank'⟩ := Resources.blank_answer ha hs w₂.resources
      rw [hr] at hvalue hblank
      exact ⟨hvalue.trans hvalue'.symm,
        content_eq_iff.2 ⟨hb, hblank.trans hblank'.symm, hst, ht, hf⟩⟩
  | store sc =>
    have hop : storeOperation sc ≠ "k8s.update_status" := by cases sc <;> simp [storeOperation]
    obtain ⟨e, w₁, w₂, h₁, h₂, hcontent⟩ := nextFault_congr h hop (.store sc)
    rw [answer, answer, h₁, h₂]
    cases e with
    | some e => exact ⟨rfl, hcontent⟩
    | none =>
      obtain ⟨hb, hr, hst, ht, hf⟩ := content_eq_iff.1 hcontent
      dsimp only [performStore]
      rw [hst, ht]
      exact ⟨rfl, content_eq_iff.2 ⟨hb, hr, rfl, rfl, hf⟩⟩
  | warn x => cases ha
  | wait ms => exact ⟨rfl, content_eq_iff.2 (content_eq_iff.1 h)⟩
  | count m => exact ⟨rfl, content_eq_iff.2 (content_eq_iff.1 h)⟩

theorem content_updateStatus (w : World) (name : ResourceName) (r : Report) :
    (answer (.resource (.updateStatus name r)) w).2.content = w.content := by
  obtain ⟨e, w₁, h₁, hcontent⟩ := content_nextFault w (.resource (.updateStatus name r))
  rw [answer, resourceOperation, h₁]
  cases e with
  | some e => exact hcontent
  | none =>
    obtain ⟨hb, hr, hst, ht, hf⟩ := content_eq_iff.1 hcontent
    exact content_eq_iff.2 ⟨hb, (Resources.blank_updateStatus _ _ _).trans hr, hst, ht, hf⟩

/-- A world in which no report arrives: events are lost, and writing a status fails. -/
def deaf : (c : OperatorCall) → World → c.Answer × World
  | .warn _, w => ((), w)
  | .resource (.updateStatus ..), w => (.error (.api .broken), w)
  | c, w => answer c w

theorem differInReports : DifferInReports answer deaf content where
  same {c} hc w := by
    cases c with
    | warn x => cases hc
    | resource rc =>
      cases rc with
      | updateStatus name r => cases hc
      | _ => rfl
    | _ => rfl
  kept {c} hc w := by
    cases c with
    | warn x => exact ⟨rfl, rfl⟩
    | resource rc =>
      cases rc with
      | updateStatus name r => exact ⟨content_updateStatus w name r, rfl⟩
      | _ => cases hc
    | _ => cases hc
  settled ha hs _ _ h := answer_congr ha hs h

end World

end Memory

end TopicSync
