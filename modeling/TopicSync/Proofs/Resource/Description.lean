import TopicSync.Proofs.Operator.Deletion
import TopicSync.Proofs.Resource.Mapping

/-!
Which topic a resource describes: that is settled by its name, its labels and its specification. A
resource written for a snapshot describes the topic of the snapshot.
-/
namespace TopicSync

namespace Resource

variable {r r' : Resource} {t : Topic} {topic : TopicName} {managed : Selector}

/-- What the operator goes by is the same; all else a server may fill in. -/
structure SameContent (r r' : Resource) : Prop where
  name : r.nameText = r'.nameText
  labels : r.labels = r'.labels
  spec : r.spec = r'.spec

theorem SameContent.describes_iff (h : SameContent r r') :
    r.Describes managed topic ↔ r'.Describes managed topic := by
  have htext : r.topicText = r'.topicText := by rw [topicText, topicText, h.spec, h.name]
  have hmanaged : r.isManaged managed = r'.isManaged managed := by
    rw [isManaged, isManaged, h.labels]
  have hname : r.topicName = r'.topicName := by rw [topicName, topicName, htext]
  constructor
  · rintro ⟨hm, ht⟩
    exact ⟨hmanaged ▸ hm, hname ▸ ht⟩
  · rintro ⟨hm, ht⟩
    exact ⟨hmanaged ▸ hm, hname ▸ ht⟩

/-- Whatever topic is described by a resource whose topic name is that of a snapshot, it is the
topic of the snapshot. -/
theorem Describes.eq_of_topicText (h : r.Describes managed topic) (ht : r.topicText = t.name.text) :
    topic = t.name := by
  have hname := h.topic
  rw [topicName, ht, TopicName.ofText_text] at hname
  exact (Except.ok.inj hname).symm

theorem of_toTopic (h : r.toTopic = .ok t) :
    r.topicName = .ok t.name ∧ t.resourceName = ⟨r.nameText⟩ := by
  have hg := (gives_of_toTopic h).2
  exact ⟨TopicName.ofText_eq_ok_iff.2 hg.name, congrArg ResourceName.mk hg.resourceName⟩

end Resource

end TopicSync
