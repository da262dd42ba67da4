import Mathlib.Data.List.Chain
import TopicSync.Proofs.Store.MapNames
import TopicSync.Proofs.Store.Paths

/-!
The names of the resources that stand for topics. They are never too long, have only characters that
object names may have, and begin and end with a letter or a digit. They are domain names just if
each point stands between letters and digits, which is up to the points of the topic's name. Two
topics share a resource just if one of them has the name of the other's resource.
-/
namespace TopicSync

/-- What a list of characters has to be like to be an object name. -/
theorem isObjectName_iff {cs : List Char} : isObjectName cs = true ↔
    cs ≠ [] ∧ (∀ c ∈ cs, isObjectChar c = true) ∧ (∀ c ∈ cs.head?, isLowerAlnum c = true) ∧
      ∀ c ∈ cs.getLast?, isLowerAlnum c = true := by
  cases cs with
  | nil => simp [isObjectName]
  | cons d ds =>
    have hlast := List.getLast?_eq_some_getLast (List.cons_ne_nil d ds)
    rw [isObjectName, hlast]
    simp only [Bool.and_eq_true, List.all_eq_true, Option.mem_some_iff, List.head?_cons,
      forall_eq', ne_eq, reduceCtorEq, not_false_eq_true, true_and, isObjectChar]
    tauto

section Domains

/-- A label of a domain name: letters in lower case, digits and hyphens, of which the first and the
last is no hyphen. -/
structure IsLabel (cs : List Char) : Prop where
  nonempty : cs ≠ []
  chars : ∀ c ∈ cs, isLowerAlnum c = true ∨ c = '-'
  first : ∀ c ∈ cs.head?, isLowerAlnum c = true
  last : ∀ c ∈ cs.getLast?, isLowerAlnum c = true

/-- A domain name that objects may have: labels with points between them. -/
structure IsDomainName (s : String) : Prop where
  length : s.length ≤ 253
  labels : ∀ part ∈ Text.splitOn '.' s.toList, IsLabel part

/-- If one of two neighbours is a point, the other is a letter or a digit. -/
def Apart (c d : Char) : Prop :=
  (c = '.' → d.isAlphanum = true) ∧ (d = '.' → c.isAlphanum = true)

/-- Each point stands between letters and digits, as far as it has neighbours. -/
def PointsApart (cs : List Char) : Prop := cs.IsChain Apart

theorem pointsApart_of_not_mem {cs : List Char} (h : '.' ∉ cs) : PointsApart cs := by
  induction cs with
  | nil => exact .nil
  | cons c cs ih =>
    rw [List.mem_cons, not_or] at h
    refine List.isChain_cons.2 ⟨fun d hd => ⟨?_, ?_⟩, ih h.2⟩
    · rintro rfl
      exact absurd rfl h.1
    · rintro rfl
      exact absurd (List.mem_of_mem_head? hd) h.2

theorem isLabel_iff {cs : List Char} : IsLabel cs ↔ isObjectName cs = true ∧ '.' ∉ cs := by
  rw [isObjectName_iff]
  constructor
  · rintro ⟨hne, hchars, hfirst, hlast⟩
    refine ⟨⟨hne, fun c hc => ?_, hfirst, hlast⟩, fun hpoint => ?_⟩
    · rcases hchars c hc with h | rfl
      · simp [isObjectChar, h]
      · decide
    · exact absurd (hchars _ hpoint) (by decide)
  · rintro ⟨⟨hne, hchars, hfirst, hlast⟩, hpoint⟩
    refine ⟨hne, fun c hc => ?_, hfirst, hlast⟩
    have hobject := hchars c hc
    simp only [isObjectChar, Bool.or_eq_true, decide_eq_true_eq] at hobject
    rcases hobject with (h | rfl) | rfl
    · exact .inl h
    · exact absurd hc hpoint
    · exact .inr rfl

theorem not_isLowerAlnum_point : ¬ isLowerAlnum '.' = true := by decide

/-- A text with a point in it is an object name with its points apart just if both sides of the
point are. -/
theorem isObjectName_append_point {as bs : List Char} :
    isObjectName (as ++ '.' :: bs) = true ∧ PointsApart (as ++ '.' :: bs) ↔
      (isObjectName as = true ∧ PointsApart as) ∧ isObjectName bs = true ∧ PointsApart bs := by
  simp only [isObjectName_iff, PointsApart, List.isChain_append, List.isChain_cons,
    List.forall_mem_append, List.forall_mem_cons]
  constructor
  · rintro ⟨⟨-, ⟨hcas, -, hcbs⟩, hfirst, hlast⟩, has, ⟨hright, hbs⟩, hleft⟩
    have hnas : as ≠ [] := by
      rintro rfl
      exact not_isLowerAlnum_point (hfirst '.' rfl)
    have hnbs : bs ≠ [] := by
      rintro rfl
      exact not_isLowerAlnum_point (hlast '.' (by simp))
    rw [List.head?_append_of_ne_nil _ hnas] at hfirst
    rw [List.getLast?_append_of_ne_nil _ (List.cons_ne_nil _ _),
      List.getLast?_cons_of_ne_nil hnbs] at hlast
    refine ⟨⟨⟨hnas, hcas, hfirst, fun c hc => ?_⟩, has⟩, ⟨hnbs, hcbs, fun c hc => ?_, hlast⟩, hbs⟩
    · exact isLowerAlnum_of_isAlphanum (hcas c (List.mem_of_mem_getLast? hc))
        ((hleft c hc '.' rfl).2 rfl)
    · exact isLowerAlnum_of_isAlphanum (hcbs c (List.mem_of_mem_head? hc)) ((hright c hc).1 rfl)
  · rintro ⟨⟨⟨hnas, hcas, hfirst, hlast⟩, has⟩, ⟨hnbs, hcbs, hfirst', hlast'⟩, hbs⟩
    rw [List.head?_append_of_ne_nil _ hnas,
      List.getLast?_append_of_ne_nil _ (List.cons_ne_nil _ _), List.getLast?_cons_of_ne_nil hnbs]
    refine ⟨⟨by simp, ⟨hcas, by decide, hcbs⟩, hfirst, hlast'⟩, has, ⟨fun c hc => ?_, hbs⟩, ?_⟩
    · have halnum := isAlphanum_of_isLowerAlnum (hfirst' c hc)
      exact ⟨fun _ => halnum, fun h => absurd (h ▸ hfirst' c hc) not_isLowerAlnum_point⟩
    · intro c hc d hd
      cases Option.mem_some.1 hd
      have halnum := isAlphanum_of_isLowerAlnum (hlast c hc)
      exact ⟨fun h => absurd (h ▸ hlast c hc) not_isLowerAlnum_point, fun _ => halnum⟩

/-- Between its points a text has labels just if it is an object name with its points apart. -/
theorem labels_iff {cs : List Char} : (∀ part ∈ Text.splitOn '.' cs, IsLabel part) ↔
    isObjectName cs = true ∧ PointsApart cs := by
  by_cases hpoint : '.' ∈ cs
  · obtain ⟨as, bs, hcs, -⟩ := List.eq_append_cons_of_mem hpoint
    have has : as.length < cs.length := by simp [hcs]
    have hbs : bs.length < cs.length := by simp [hcs]; omega
    rw [hcs, Text.splitOn_append, List.forall_mem_append, isObjectName_append_point]
    exact and_congr labels_iff labels_iff
  · rw [Text.splitOn_of_not_mem hpoint, List.forall_mem_singleton, isLabel_iff]
    simp [hpoint, pointsApart_of_not_mem hpoint]
termination_by cs.length

end Domains

namespace TopicName

section Characters

variable {c d : Char}

theorem isAlphanum_legalChar (h : c.isAlphanum = true) : (legalChar c).isAlphanum = true := by
  rw [legalChar]
  split
  · exact h
  · split
    next hupper => exact isAlphanum_of_isLowerAlnum (isLowerAlnum_toLower hupper)
    next hlower hupper =>
      -- A letter or a digit is in lower case or in upper case.
      simp only [Bool.or_eq_true, decide_eq_true_eq, isLowerAlnum, not_or] at hlower
      rw [isAlphanum_iff] at h
      tauto

theorem eq_point_of_legalChar (h : legalChar c = '.') : c = '.' := by
  rw [legalChar] at h
  split at h
  · exact h
  · split at h
    next hupper => exact absurd (h ▸ isLowerAlnum_toLower hupper) not_isLowerAlnum_point
    next => exact absurd h (by decide)

theorem apart_legalChar (h : Apart c d) : Apart (legalChar c) (legalChar d) :=
  ⟨fun hc => isAlphanum_legalChar (h.1 (eq_point_of_legalChar hc)),
    fun hd => isAlphanum_legalChar (h.2 (eq_point_of_legalChar hd))⟩

end Characters

section Stem

variable {n : TopicName} {c : Char}

theorem stem_start (n : TopicName) :
    n.stem <+: Text.strip (fun c => !c.isAlphanum) (n.text.toList.map legalChar) :=
  (Text.stripEnd_start _ _).trans (List.take_prefix _ _)

theorem length_stem_le (n : TopicName) :
    n.stem.length ≤ maxObjectNameLength - nameHashLength - 3 :=
  (Text.stripEnd_start _ _).length_le.trans (List.length_take_le _ _)

theorem isLowerAlnum_of_mem_stem (h : c ∈ n.stem) (hnot : (!c.isAlphanum) = false) :
    isLowerAlnum c = true :=
  isLowerAlnum_of_isAlphanum (isObjectChar_of_mem_stem h) (by simpa using hnot)

theorem stem_first (h : c ∈ n.stem.head?) : isLowerAlnum c = true := by
  have hfirst := Text.mem_head?_of_start n.stem_start h
  exact isLowerAlnum_of_mem_stem (List.mem_of_mem_head? h)
    (Text.not_of_mem_head?_strip (p := fun c : Char => !c.isAlphanum) hfirst)

theorem stem_last (h : c ∈ n.stem.getLast?) : isLowerAlnum c = true := by
  have hmem := List.mem_of_mem_getLast? h
  rw [stem] at h
  exact isLowerAlnum_of_mem_stem hmem
    (Text.not_of_mem_getLast?_stripEnd (p := fun c : Char => !c.isAlphanum) h)

/-- The stem is cut out of the name, so that its points have no other neighbours. -/
theorem pointsApart_stem (h : PointsApart n.text.toList) : PointsApart n.stem := by
  have hmap : PointsApart (n.text.toList.map legalChar) :=
    List.isChain_map_of_isChain legalChar (fun _ _ => apart_legalChar) h
  exact hmap.infix (n.stem_start.isInfix.trans (Text.strip_within _ _))

end Stem

section Derived

variable {n : TopicName}

/-- What precedes the hash in a name that is not the topic's own. -/
def lead (n : TopicName) : List Char := if n.stem = [] then [] else n.stem ++ ['-', '-', '-']

/-- A resource has the name of its topic, or the lead and the hash of it. -/
theorem resourceName_cases (n : TopicName) :
    (n.resourceName.text = n.text ∧ isObjectName n.text.toList = true) ∨
      n.resourceName.text.toList = n.lead ++ (nameHash n.text).toList := by
  rw [resourceName, lead]
  split
  next hkept => exact .inl ⟨rfl, hkept.2⟩
  next =>
    refine .inr ?_
    by_cases hstem : n.stem = []
    · simp [hstem]
    · simp [hstem, String.toList_append]

theorem length_lead_le (n : TopicName) :
    n.lead.length ≤ maxObjectNameLength - nameHashLength := by
  have hstem := n.length_stem_le
  have hroom :
      maxObjectNameLength - nameHashLength = maxObjectNameLength - nameHashLength - 3 + 3 := rfl
  rw [lead]
  split
  · exact Nat.zero_le _
  · rw [List.length_append, List.length_cons, List.length_cons, List.length_singleton]
    omega

theorem lead_chars {c : Char} (h : c ∈ n.lead) : isObjectChar c = true := by
  rw [lead] at h
  split at h
  · cases h
  · rcases List.mem_append.1 h with h | h
    · exact isObjectChar_of_mem_stem h
    · have hhyphen : c = '-' := by simpa using h
      exact hhyphen ▸ by decide

theorem lead_first {c : Char} (h : c ∈ n.lead.head?) : isLowerAlnum c = true := by
  rw [lead] at h
  split at h
  · cases h
  next hstem =>
    rw [List.head?_append_of_ne_nil _ hstem] at h
    exact stem_first h

/-- No point is next to the hash, or to the hyphens that precede it. -/
theorem pointsApart_lead_append {bs : List Char} (h : PointsApart n.text.toList)
    (hbs : ∀ c ∈ bs, isLowerAlnum c = true) : PointsApart (n.lead ++ bs) := by
  have hpoint : '.' ∉ bs := fun hmem => not_isLowerAlnum_point (hbs '.' hmem)
  rw [lead]
  split
  · exact pointsApart_of_not_mem hpoint
  · rw [List.append_assoc]
    refine List.isChain_append.2 ⟨pointsApart_stem h, pointsApart_of_not_mem (by simpa), ?_⟩
    intro c hc d hd
    have hlast := stem_last hc
    have hhyphen : d = '-' := by simpa using hd.symm
    exact ⟨fun he => absurd (he ▸ hlast) not_isLowerAlnum_point,
      fun he => absurd (hhyphen.symm.trans he) (by decide)⟩

theorem isObjectName_lead_append {bs : List Char} (hne : bs ≠ [])
    (hbs : ∀ c ∈ bs, isLowerAlnum c = true) : isObjectName (n.lead ++ bs) = true := by
  refine isObjectName_iff.2 ⟨by simp [hne], ?_, ?_, ?_⟩
  · exact List.forall_mem_append.2
      ⟨fun c => lead_chars, fun c hc => isObjectChar_of_isLowerAlnum (hbs c hc)⟩
  · by_cases hlead : n.lead = []
    · rw [hlead, List.nil_append]
      exact fun c hc => hbs c (List.mem_of_mem_head? hc)
    · rw [List.head?_append_of_ne_nil _ hlead]
      exact fun c => lead_first
  · rw [List.getLast?_append_of_ne_nil _ hne]
    exact fun c hc => hbs c (List.mem_of_mem_getLast? hc)

theorem isObjectName_resourceName (n : TopicName) :
    isObjectName n.resourceName.text.toList = true := by
  rcases n.resourceName_cases with ⟨htext, hname⟩ | htext
  · rwa [htext]
  · rw [htext]
    exact isObjectName_lead_append (nameHash_ne_nil n.text) fun c => isLowerAlnum_of_mem_nameHash

theorem length_resourceName_le (n : TopicName) :
    n.resourceName.text.length ≤ maxObjectNameLength := by
  rcases n.resourceName_cases with ⟨htext, -⟩ | htext
  · have hchars := n.ofObjectChars_resourceName.utf8ByteSize_eq
    have hbytes := n.utf8ByteSize_le
    have hlimit : 249 ≤ maxObjectNameLength := by decide
    rw [htext] at hchars ⊢
    rw [← String.length_toList]
    omega
  · have hlead := n.length_lead_le
    have hhash := length_nameHash n.text
    have hroom : maxObjectNameLength - nameHashLength + nameHashLength = maxObjectNameLength := rfl
    rw [← String.length_toList, htext, List.length_append]
    omega

theorem pointsApart_resourceName (h : PointsApart n.text.toList) :
    PointsApart n.resourceName.text.toList := by
  rcases n.resourceName_cases with ⟨htext, -⟩ | htext
  · rwa [htext]
  · rw [htext]
    exact pointsApart_lead_append h fun c => isLowerAlnum_of_mem_nameHash

/-- The name of a resource is a domain name just if its points stand between letters and digits. -/
theorem isDomainName_resourceName_iff (n : TopicName) :
    IsDomainName n.resourceName.text ↔ PointsApart n.resourceName.text.toList := by
  refine ⟨fun h => (labels_iff.1 h.labels).2, fun h => ⟨n.length_resourceName_le, ?_⟩⟩
  exact labels_iff.2 ⟨n.isObjectName_resourceName, h⟩

/-- The name of a resource is never too long, and is made of the characters of object names, between
letters and digits. It is a domain name just if its points stand between letters and digits, as they
do if those of the topic's name do. -/
theorem resourceName_legal (n : TopicName) :
    n.resourceName.text.length ≤ 253 ∧ isObjectName n.resourceName.text.toList = true ∧
      (IsDomainName n.resourceName.text ↔ PointsApart n.resourceName.text.toList) ∧
      (PointsApart n.text.toList → IsDomainName n.resourceName.text) :=
  ⟨n.length_resourceName_le, n.isObjectName_resourceName, n.isDomainName_resourceName_iff,
    fun h => n.isDomainName_resourceName_iff.2 (pointsApart_resourceName h)⟩

/-- Points in a row are kept, though no label is between them. -/
theorem not_isDomainName_resourceName :
    ¬ ∀ n : TopicName, IsDomainName n.resourceName.text := by
  intro h
  let n : TopicName := ⟨"a..b", by decide⟩
  have hname : n.resourceName.text = "a..b" := by decide
  have hempty := ((hname ▸ h n).labels [] (by decide)).nonempty
  exact hempty rfl

/-- With points that stand between letters, the resource of `Orders.EU` has a domain name. -/
theorem isDomainName_resourceName_points :
    PointsApart "Orders.EU".toList ∧ IsDomainName (resourceName ⟨"Orders.EU", by decide⟩).text :=
  have hpoints : PointsApart "Orders.EU".toList := by unfold PointsApart Apart; decide
  ⟨hpoints, (resourceName_legal ⟨"Orders.EU", by decide⟩).2.2.2 hpoints⟩

end Derived

section Shared

variable {a b n : TopicName}

/-- A topic whose name is an object name has a resource of that name. -/
theorem resourceName_of_isObjectName (h : isObjectName n.text.toList = true) :
    n.resourceName = ⟨n.text⟩ := by
  have hbytes := n.utf8ByteSize_le
  have hlimit : 249 ≤ maxObjectNameLength := by decide
  rw [resourceName, if_pos ⟨by omega, h⟩]

/-- A topic with the name of a resource shares that resource. -/
theorem resourceName_eq_of_text (h : a.text = b.resourceName.text) :
    a.resourceName = b.resourceName := by
  have hname : isObjectName a.text.toList = true := h ▸ b.isObjectName_resourceName
  rw [resourceName_of_isObjectName hname, h]

/-- Hashes are all of one length, so that the end of a name tells which hash it is. -/
theorem nameHash_eq_of_append (h : a.lead ++ (nameHash a.text).toList =
    b.lead ++ (nameHash b.text).toList) : nameHash a.text = nameHash b.text :=
  String.toList_injective (List.append_inj_right' h
    ((length_nameHash a.text).trans (length_nameHash b.text).symm))

/-- Two topics whose names are told apart by their hashes share a resource just if they are one
topic, or if one of them has the name of the other's resource. -/
theorem resourceName_eq_iff (h : nameHash a.text = nameHash b.text → a = b) :
    a.resourceName = b.resourceName ↔
      a = b ∨ a.text = b.resourceName.text ∨ b.text = a.resourceName.text := by
  constructor
  · intro hsame
    rcases a.resourceName_cases with ⟨ha, -⟩ | ha
    · exact .inr (.inl (hsame ▸ ha.symm))
    · rcases b.resourceName_cases with ⟨hb, -⟩ | hb
      · exact .inr (.inr (hsame ▸ hb.symm))
      · exact .inl (h (nameHash_eq_of_append (by rw [← ha, ← hb, hsame])))
  · rintro (rfl | htext | htext)
    · rfl
    · exact resourceName_eq_of_text htext
    · exact (resourceName_eq_of_text htext).symm

/-- The topics `Orders` and `orders` have different resources. -/
theorem resourceName_orders_ne :
    (nameHash "Orders" = nameHash "orders" →
      (⟨"Orders", by decide⟩ : TopicName) = ⟨"orders", by decide⟩) ∧
    resourceName ⟨"Orders", by decide⟩ ≠ resourceName ⟨"orders", by decide⟩ := by
  have hhash : nameHash "Orders" = nameHash "orders" →
      (⟨"Orders", by decide⟩ : TopicName) = ⟨"orders", by decide⟩ :=
    fun h => absurd h (by decide +kernel)
  have hiff := resourceName_eq_iff (a := ⟨"Orders", by decide⟩) (b := ⟨"orders", by decide⟩) hhash
  exact ⟨hhash, fun hsame => absurd (hiff.1 hsame) (by decide +kernel)⟩

/-- A short object name may be the name of a topic. -/
theorem nameFault?_eq_none {s : String} (h : isObjectName s.toList = true)
    (hlength : s.length ≤ 249) : nameFault? s = none := by
  obtain ⟨hne, hchars, hfirst, -⟩ := isObjectName_iff.1 h
  have hbytes : s.utf8ByteSize = s.toList.length := OfObjectChars.utf8ByteSize_eq hchars
  have hpos := List.length_pos_iff.2 hne
  rw [← String.length_toList] at hlength
  refine nameFault?_eq_none_iff.2 ⟨by omega, by omega, ⟨?_, ?_⟩, fun c hc => ?_⟩
  · rintro rfl
    exact absurd (hfirst '.' rfl) not_isLowerAlnum_point
  · rintro rfl
    exact absurd (hfirst '.' rfl) not_isLowerAlnum_point
  · refine of_isObjectChar (P := fun c => isNameChar c = true) (fun c hc => ?_) (by decide)
      (by decide) (hchars c hc)
    simp [isNameChar, hc]

/-- Every object name that is not too long for a topic names the resource of one. -/
theorem exists_resourceName {cs : List Char} (h : isObjectName cs = true)
    (hlength : cs.length ≤ 249) : ∃ n : TopicName, n.resourceName.text.toList = cs := by
  obtain ⟨text, rfl⟩ : ∃ s : String, s.toList = cs := ⟨String.ofList cs, String.toList_ofList⟩
  let n : TopicName := ⟨text, nameFault?_eq_none h hlength⟩
  exact ⟨n, congrArg (fun r => r.text.toList) (resourceName_of_isObjectName (n := n) h)⟩

/-- Whenever the resource of a topic has a short name of its own, another topic shares it: the one
of that name. -/
theorem exists_ne_resourceName_eq (hown : isObjectName n.text.toList = false)
    (hlength : n.resourceName.text.length ≤ 249) :
    ∃ m : TopicName, m ≠ n ∧ m.resourceName = n.resourceName := by
  have hname := n.isObjectName_resourceName
  refine ⟨⟨n.resourceName.text, nameFault?_eq_none hname hlength⟩, fun h => ?_,
    resourceName_eq_of_text rfl⟩
  have htext : n.resourceName.text = n.text := congrArg text h
  rw [htext, hown] at hname
  exact absurd hname (by decide)

/-- Hashes that differ do not keep topics from sharing a resource. -/
theorem not_resourceName_injective :
    ¬ ∀ a b : TopicName, (nameHash a.text = nameHash b.text → a = b) →
      a.resourceName = b.resourceName → a = b := by
  intro h
  let a : TopicName := ⟨"Orders", by decide⟩
  let b : TopicName := ⟨"orders---b7e8acdd522e6190ac9567ad16dff9873cbb7888", by decide⟩
  have htext : b.text = a.resourceName.text := by decide +kernel
  have hhash : nameHash a.text ≠ nameHash b.text := by decide +kernel
  have hsame := h a b (fun heq => absurd heq hhash) (resourceName_eq_of_text htext).symm
  exact absurd hsame (by decide)

end Shared

end TopicName

end TopicSync
