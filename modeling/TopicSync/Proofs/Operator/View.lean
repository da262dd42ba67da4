import TopicSync.Proofs.Resource.Description

/-!
What the operator can rely on, whatever world it works in: that reads tell what is there, and that
nobody but its own calls changes the resources. Which calls succeed is left open.
-/
namespace TopicSync

/-- The resources and records of a world, and the states that it can be in. -/
structure View (σ : Type) where
  valid : σ → Prop
  resources : σ → TextMap Resource
  record : σ → TopicName → Option Topic

namespace ResourceCall

/-- The resource that the call may write. -/
def target? : ResourceCall → Option ResourceName
  | get _ | list => none
  | create t | update t => some t.resourceName
  | delete name | updateStatus name _ => some name

/-- What a call may make of the resource that it writes, whether or not it reports success. -/
inductive Effect : ResourceCall → Option Resource → Option Resource → Prop where
  | unchanged (c : ResourceCall) (r : Option Resource) : Effect c r r
  | create {t : Topic} {ns : String} {old : Option Resource} {new : Resource}
      (h : new.SameContent (.ofTopic t ns)) : Effect (.create t) old (some new)
  | update {t : Topic} {ns : String} {old : Option Resource} {new : Resource}
      (h : new.SameContent ((old.getD (.ofTopic t ns)).withTopic t)) :
      Effect (.update t) old (some new)
  | delete (name : ResourceName) (old : Option Resource) : Effect (.delete name) old none
  | updateStatus (name : ResourceName) (r : Report) {old new : Resource}
      (h : new.SameContent old) : Effect (.updateStatus name r) (some old) (some new)

end ResourceCall

/-- What the operator can rely on. Reads tell what is there, and resources change by calls on them
alone, each of which changes no resource but its own. Any call may fail, before or after it has had
its effect. -/
structure Reliable {σ : Type} (answer : (c : OperatorCall) → σ → c.Answer × σ) (v : View σ) :
    Prop where
  valid : ∀ (c : OperatorCall) (s : σ), v.valid s → v.valid (answer c s).2
  ownName : ∀ {s : σ} {key : String} {r : Resource}, v.valid s →
    (v.resources s).get? key = some r → r.nameText = key
  recordName : ∀ {s : σ} {topic : TopicName} {t : Topic}, v.valid s →
    v.record s topic = some t → t.name = topic
  get : ∀ {n : ResourceName} {r : Option Resource} {s : σ}, v.valid s →
    (answer (.resource (.get n)) s).1 = .ok r → (v.resources s).get? n.text = r
  record : ∀ {topic : TopicName} {r : Option Topic} {s : σ}, v.valid s →
    (answer (.store (.read topic)) s).1 = .ok r → v.record s topic = r
  topicName : ∀ {name : TopicName} {t : Topic} {s : σ}, v.valid s →
    (answer (.broker (.read name)) s).1 = .ok (some t) → t.name = name
  effect : ∀ {c : ResourceCall} {n : ResourceName} {s : σ}, v.valid s → c.target? = some n →
    c.Effect ((v.resources s).get? n.text)
      ((v.resources (answer (.resource c) s).2).get? n.text)
  elsewhere : ∀ {c : ResourceCall} {key : String} {s : σ}, v.valid s →
    (∀ n, c.target? = some n → n.text ≠ key) →
    (v.resources (answer (.resource c) s).2).get? key = (v.resources s).get? key
  otherCalls : ∀ {c : OperatorCall} {s : σ}, v.valid s → (∀ rc, c ≠ .resource rc) →
    v.resources (answer c s).2 = v.resources s
  count : ∀ {m : Metric} {s : σ}, v.valid s → v.record (answer (.count m) s).2 = v.record s

/-- What can be relied on can be relied on in any states that calls do not leave. -/
theorem Reliable.restrict {σ : Type} {answer : (c : OperatorCall) → σ → c.Answer × σ} {v : View σ}
    (h : Reliable answer v) {valid : σ → Prop} (hvalid : ∀ s, valid s → v.valid s)
    (hanswer : ∀ c s, valid s → valid (answer c s).2) :
    Reliable answer { v with valid := valid } where
  valid := hanswer
  ownName hs := h.ownName (hvalid _ hs)
  recordName hs := h.recordName (hvalid _ hs)
  get hs := h.get (hvalid _ hs)
  record hs := h.record (hvalid _ hs)
  topicName hs := h.topicName (hvalid _ hs)
  effect hs := h.effect (hvalid _ hs)
  elsewhere hs := h.elsewhere (hvalid _ hs)
  otherCalls hs := h.otherCalls (hvalid _ hs)
  count hs := h.count (hvalid _ hs)

end TopicSync
