import TopicSync.Topic.Name

/-!
Which texts are topic names, said without the order in which a text is checked, and what follows for
every topic name.
-/
namespace TopicSync

/-- What a text has to be like to name a topic. -/
structure IsTopicName (s : String) : Prop where
  nonempty : 1 ≤ s.utf8ByteSize
  short : s.utf8ByteSize ≤ 249
  unreserved : s ≠ "." ∧ s ≠ ".."
  chars : ∀ c ∈ s.toList, isNameChar c = true

theorem nameFault?_eq_none_iff {s : String} : nameFault? s = none ↔ IsTopicName s := by
  rw [nameFault?]
  split
  next hsize =>
    refine iff_of_false nofun fun h => ?_
    have hpos := h.nonempty
    have hle := h.short
    omega
  next hsize =>
    split
    next hreserved =>
      refine iff_of_false nofun fun h => ?_
      rcases hreserved with rfl | rfl
      · exact h.unreserved.1 rfl
      · exact h.unreserved.2 rfl
    next hreserved =>
      split
      next hall =>
        refine iff_of_true rfl ⟨?_, ?_, not_or.1 hreserved, List.all_eq_true.1 hall⟩
        · omega
        · omega
      next hall => exact iff_of_false nofun fun h => hall (List.all_eq_true.2 h.chars)

instance (s : String) : Decidable (IsTopicName s) :=
  decidable_of_iff (nameFault? s = none) nameFault?_eq_none_iff

theorem length_le_utf8ByteSize (s : String) : s.length ≤ s.utf8ByteSize := by
  have hsize : ∀ cs : List Char, cs.length ≤ cs.utf8Encode.size := by
    intro cs
    induction cs with
    | nil => exact Nat.zero_le _
    | cons c cs ih =>
      have hc := c.utf8Size_pos
      rw [List.utf8Encode_cons, ByteArray.size_append, List.utf8Encode_singleton,
        List.size_toByteArray, String.length_utf8EncodeChar, List.length_cons]
      omega
  have hs := hsize s.toList
  rw [String.length_toList, String.utf8Encode_toList] at hs
  exact hs

theorem IsTopicName.length {s : String} (h : IsTopicName s) : 1 ≤ s.length ∧ s.length ≤ 249 := by
  have hle := length_le_utf8ByteSize s
  have hpos := h.nonempty
  have hshort := h.short
  have hne : s.length ≠ 0 := by
    intro hzero
    rw [String.length_eq_zero_iff, ← String.utf8ByteSize_eq_zero_iff] at hzero
    omega
  omega

namespace TopicName

theorem isTopicName (n : TopicName) : IsTopicName n.text := nameFault?_eq_none_iff.1 n.legal

theorem text_ne_empty (n : TopicName) : n.text ≠ "" := by
  intro h
  have hpos := n.isTopicName.nonempty
  rw [h] at hpos
  exact absurd hpos (by decide)

theorem isNameChar_of_mem (n : TopicName) {c : Char} (hc : c ∈ n.text.toList) :
    isNameChar c = true :=
  n.isTopicName.chars c hc

theorem utf8ByteSize_le (n : TopicName) : n.text.utf8ByteSize ≤ 249 := n.isTopicName.short

/-- A legal topic name is short enough to stand in a specification. -/
theorem length_text (n : TopicName) : 1 ≤ n.text.length ∧ n.text.length ≤ 249 :=
  n.isTopicName.length

theorem ofText_cases (s : String) :
    (∃ n : TopicName, n.text = s ∧ ofText s = .ok n) ∨
      ∃ f, nameFault? s = some f ∧ ofText s = .error (.invalidTopicName s f.message) := by
  rw [ofText, check]
  split
  next n hn =>
    split at hn
    next => exact .inl ⟨n, by cases hn; rfl, rfl⟩
    next => cases hn
  next f hf =>
    split at hf
    next => cases hf
    next g hg =>
      cases hf
      exact .inr ⟨f, hg, rfl⟩

theorem ofText_eq_ok_iff {s : String} {n : TopicName} : ofText s = .ok n ↔ n.text = s := by
  rcases ofText_cases s with ⟨m, hm, hok⟩ | ⟨f, hf, herror⟩
  · rw [hok, Except.ok.injEq]
    exact ⟨fun h => h ▸ hm, fun h => ext (hm.trans h.symm)⟩
  · refine iff_of_false (fun h => by rw [herror] at h; cases h) ?_
    rintro rfl
    rw [n.legal] at hf
    cases hf

theorem ofText_text (n : TopicName) : ofText n.text = .ok n := ofText_eq_ok_iff.2 rfl

theorem ofText?_eq_some_iff {text : String} {name : TopicName} :
    ofText? text = some name ↔ text = name.text := by
  constructor
  · intro h
    rw [ofText?] at h
    split at h
    · cases h
      rfl
    · cases h
  · rintro rfl
    rw [ofText?, dif_pos name.legal]

theorem ofText?_eq_some_iff_ofText {text : String} {name : TopicName} :
    ofText? text = some name ↔ ofText text = .ok name := by
  rw [ofText?_eq_some_iff, ofText_eq_ok_iff, eq_comm]

theorem nameFault?_of_ofText {s : String} {e : Failure} (h : ofText s = .error e) :
    ∃ f, nameFault? s = some f ∧ e = .invalidTopicName s f.message := by
  rcases ofText_cases s with ⟨n, -, hok⟩ | ⟨f, hf, herror⟩
  · rw [hok] at h
    cases h
  · rw [herror] at h
    cases h
    exact ⟨f, hf, rfl⟩

end TopicName

end TopicSync
