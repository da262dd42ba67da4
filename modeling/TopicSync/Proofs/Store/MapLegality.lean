import TopicSync.Proofs.Topic.ResourceName

/-!
Which ConfigMaps have legal names. Whatever prefix the settings hold, a name is short enough, has
only characters that object names may have, and ends with a letter or a digit. It begins like the
prefix: it is a domain name just if the prefix does not begin with a hyphen.
-/
namespace TopicSync

theorem isDomainName_iff {s : String} : IsDomainName s ↔
    s.length ≤ maxObjectNameLength ∧ isObjectName s.toList = true ∧ PointsApart s.toList :=
  ⟨fun h => ⟨h.length, labels_iff.1 h.labels⟩, fun h => ⟨h.1, labels_iff.2 h.2⟩⟩

/-- A hyphen may stand between any two texts that have no point next to it. -/
theorem pointsApart_hyphen {as bs : List Char} (ha : PointsApart as) (hb : PointsApart bs)
    (hlast : '.' ∉ as.getLast?) (hfirst : '.' ∉ bs.head?) : PointsApart (as ++ '-' :: bs) := by
  refine List.isChain_append.2 ⟨ha, List.isChain_cons.2 ⟨fun c hc => ?_, hb⟩, ?_⟩
  · exact ⟨fun h => absurd h (by decide), fun h => absurd (h ▸ hc) hfirst⟩
  · intro c hc d hd
    have hhyphen : d = '-' := by simpa using hd.symm
    exact ⟨fun h => absurd (h ▸ hc) hlast, fun h => absurd (hhyphen.symm.trans h) (by decide)⟩

namespace Settings

/-- A prefix has a first character: a letter, a digit or a hyphen. -/
theorem isStorePrefix_first {s : String} (h : isStorePrefix s = true) :
    ∃ c, s.toList.head? = some c ∧ (isLowerAlnum c = true ∨ c = '-') := by
  rw [isStorePrefix, Bool.and_eq_true, List.all_eq_true] at h
  obtain ⟨hne, hchars⟩ := h
  cases hs : s.toList with
  | nil =>
    rw [String.toList_eq_nil_iff] at hs
    simp [hs] at hne
  | cons c cs =>
    have hc := hchars c (hs ▸ List.mem_cons_self)
    simp only [isStorePrefixChar, Bool.or_eq_true, decide_eq_true_eq] at hc
    exact ⟨c, rfl, by simpa [isLowerAlnum] using hc⟩

theorem point_not_mem_of_isStorePrefix {s : String} (h : isStorePrefix s = true) :
    '.' ∉ s.toList := by
  rw [isStorePrefix, Bool.and_eq_true, List.all_eq_true] at h
  exact fun hpoint => absurd (h.2 '.' hpoint) (by decide)

end Settings

namespace ConfigMapStore

variable {chosen : String} {n : TopicName}

/-- The name of the store and of the resource, however long they are. -/
def fullName (chosen : String) (n : TopicName) : String := chosen ++ "-" ++ n.resourceName.text

/-- What is left of a full name that is too long: its beginning, up to a letter or a digit. -/
def cutHead (chosen : String) (n : TopicName) : List Char :=
  Text.stripEnd (fun c => !c.isAlphanum)
    ((fullName chosen n).toList.take (maxObjectNameLength - nameHashLength - 1))

/-- The name of a ConfigMap whose full name is too long. -/
def cutName (chosen : String) (n : TopicName) : String :=
  String.ofList (cutHead chosen n) ++ "-" ++ nameHash n.text

/-- The full name is short enough to be the name of an object. -/
def Fits (chosen : String) (n : TopicName) : Prop :=
  (fullName chosen n).utf8ByteSize ≤ maxObjectNameLength

theorem mapName_of_fits (h : Fits chosen n) : mapName chosen n = fullName chosen n := if_pos h

theorem mapName_of_not_fits (h : ¬ Fits chosen n) : mapName chosen n = cutName chosen n := if_neg h

theorem mapName_cases (chosen : String) (n : TopicName) :
    (Fits chosen n ∧ mapName chosen n = fullName chosen n) ∨
      ¬ Fits chosen n ∧ mapName chosen n = cutName chosen n := by
  by_cases h : Fits chosen n
  · exact .inl ⟨h, mapName_of_fits h⟩
  · exact .inr ⟨h, mapName_of_not_fits h⟩

theorem toList_fullName (chosen : String) (n : TopicName) :
    (fullName chosen n).toList = chosen.toList ++ '-' :: n.resourceName.text.toList := by
  simp [fullName, String.toList_append]

theorem toList_cutName (chosen : String) (n : TopicName) :
    (cutName chosen n).toList = cutHead chosen n ++ '-' :: (nameHash n.text).toList := by
  simp [cutName, String.toList_append]

theorem cutHead_start (chosen : String) (n : TopicName) :
    cutHead chosen n <+: (fullName chosen n).toList :=
  (Text.stripEnd_start _ _).trans (List.take_prefix _ _)

theorem cutHead_last {c : Char} (h : c ∈ (cutHead chosen n).getLast?) : c.isAlphanum = true := by
  simpa using Text.not_of_mem_getLast?_stripEnd (p := fun c : Char => !c.isAlphanum) h

/-- If nothing is left, then nothing but hyphens was there. -/
theorem not_isAlphanum_of_cutHead (h : cutHead chosen n = []) {c : Char}
    (hc : c ∈ (fullName chosen n).toList.head?) : c.isAlphanum = false := by
  have hall : ∀ d ∈ (fullName chosen n).toList.take (maxObjectNameLength - nameHashLength - 1),
      (!d.isAlphanum) = true := List.rdropWhile_eq_nil_iff.1 h
  have hmem : c ∈ (fullName chosen n).toList.take (maxObjectNameLength - nameHashLength - 1) := by
    refine List.mem_of_mem_head? ?_
    rwa [List.head?_take, if_neg (by decide)]
  simpa using hall c hmem

/-- A name begins like the prefix. If nothing is left of the prefix, then the hyphen before the hash
stands for those that the prefix has. -/
theorem head?_mapName (h : Settings.isStorePrefix chosen = true) (n : TopicName) :
    (mapName chosen n).toList.head? = chosen.toList.head? := by
  obtain ⟨c, hc, hfirst⟩ := Settings.isStorePrefix_first h
  have hfull : (fullName chosen n).toList.head? = some c := by
    rw [toList_fullName, List.head?_append, hc]
    rfl
  rw [hc]
  rcases mapName_cases chosen n with ⟨-, hname⟩ | ⟨-, hname⟩
  · rw [hname, hfull]
  · rw [hname, toList_cutName]
    cases hhead : cutHead chosen n with
    | nil =>
      have hnot := not_isAlphanum_of_cutHead hhead hfull
      have hhyphen : c = '-' := hfirst.resolve_left fun hlower =>
        absurd (isAlphanum_of_isLowerAlnum hlower) (by simp [hnot])
      rw [hhyphen]
      rfl
    | cons d ds =>
      have hd := Text.mem_head?_of_start (cutHead_start chosen n) (c := d) (by rw [hhead]; rfl)
      rw [hfull] at hd
      exact hd.symm

theorem mapName_last (chosen : String) (n : TopicName) {c : Char}
    (h : c ∈ (mapName chosen n).toList.getLast?) : isLowerAlnum c = true := by
  rcases mapName_cases chosen n with ⟨-, hname⟩ | ⟨-, hname⟩
  · obtain ⟨hne, -, -, hlast⟩ := isObjectName_iff.1 n.isObjectName_resourceName
    rw [hname, toList_fullName, List.getLast?_append_of_ne_nil _ (List.cons_ne_nil _ _),
      List.getLast?_cons_of_ne_nil hne] at h
    exact hlast c h
  · rw [hname, toList_cutName, List.getLast?_append_of_ne_nil _ (List.cons_ne_nil _ _),
      List.getLast?_cons_of_ne_nil (nameHash_ne_nil n.text)] at h
    exact isLowerAlnum_of_mem_nameHash (List.mem_of_mem_getLast? h)

/-- A prefix has no points, so that they all are those of the resource's name. -/
theorem pointsApart_fullName (h : Settings.isStorePrefix chosen = true)
    (hn : PointsApart n.resourceName.text.toList) : PointsApart (fullName chosen n).toList := by
  have hpoint := Settings.point_not_mem_of_isStorePrefix h
  obtain ⟨-, -, hfirst, -⟩ := isObjectName_iff.1 n.isObjectName_resourceName
  rw [toList_fullName]
  exact pointsApart_hyphen (pointsApart_of_not_mem hpoint) hn
    (fun hlast => hpoint (List.mem_of_mem_getLast? hlast))
    (fun hhead => not_isLowerAlnum_point (hfirst '.' hhead))

theorem pointsApart_mapName (h : Settings.isStorePrefix chosen = true)
    (hn : PointsApart n.resourceName.text.toList) : PointsApart (mapName chosen n).toList := by
  have hfull := pointsApart_fullName h hn
  rcases mapName_cases chosen n with ⟨-, hname⟩ | ⟨-, hname⟩
  · rwa [hname]
  · have hhash : '.' ∉ (nameHash n.text).toList := fun hmem =>
      not_isLowerAlnum_point (isLowerAlnum_of_mem_nameHash hmem)
    have hhead : PointsApart (cutHead chosen n) :=
      List.IsChain.infix hfull (cutHead_start chosen n).isInfix
    rw [hname, toList_cutName]
    exact pointsApart_hyphen hhead (pointsApart_of_not_mem hhash)
      (fun hlast => absurd (cutHead_last hlast) (by decide))
      (fun hfirst => hhash (List.mem_of_mem_head? hfirst))

theorem length_mapName_le (h : Settings.isStorePrefix chosen = true) (n : TopicName) :
    (mapName chosen n).length ≤ maxObjectNameLength := by
  have hchosen := Settings.ofObjectChars_of_isStorePrefix h
  have hchars := (ofObjectChars_mapName hchosen n).utf8ByteSize_eq
  have hbytes := utf8ByteSize_mapName_le hchosen n
  rw [← String.length_toList]
  omega

theorem isObjectName_mapName_iff (h : Settings.isStorePrefix chosen = true) :
    isObjectName (mapName chosen n).toList = true ↔ chosen.toList.head? ≠ some '-' := by
  have hchars := ofObjectChars_mapName (Settings.ofObjectChars_of_isStorePrefix h) n
  obtain ⟨c, hc, hfirst⟩ := Settings.isStorePrefix_first h
  have hhead : (mapName chosen n).toList.head? = some c := (head?_mapName h n).trans hc
  have hne : (mapName chosen n).toList ≠ [] := List.ne_nil_of_mem (List.mem_of_mem_head? hhead)
  rw [isObjectName_iff, hhead, hc]
  constructor
  · rintro ⟨-, -, hlower, -⟩ hhyphen
    have hnot : ¬ isLowerAlnum '-' = true := by decide
    exact hnot (hlower '-' hhyphen)
  · intro hhyphen
    have hlower := hfirst.resolve_right fun he => hhyphen (congrArg some he)
    refine ⟨hne, hchars, fun d hd => ?_, fun d => mapName_last chosen n⟩
    cases hd
    exact hlower

/-- With a prefix that the settings may hold, the ConfigMap of a topic whose resource has a legal
name has itself a name that is short enough, has only characters that it may have, and ends with a
letter or a digit. It is a domain name just if the prefix does not begin with a hyphen. -/
theorem mapName_legal {s : Settings} (hs : s.validate = .ok ())
    (hn : IsDomainName n.resourceName.text) :
    (mapName s.storePrefix n).length ≤ 253 ∧ OfObjectChars (mapName s.storePrefix n) ∧
      (∀ c ∈ (mapName s.storePrefix n).toList.getLast?, isLowerAlnum c = true) ∧
      (IsDomainName (mapName s.storePrefix n) ↔ s.storePrefix.toList.head? ≠ some '-') := by
  have hprefix := Settings.isStorePrefix_of_validate hs
  have hlength := length_mapName_le hprefix n
  have hpoints := pointsApart_mapName hprefix (isDomainName_iff.1 hn).2.2
  refine ⟨hlength, ofObjectChars_mapName (Settings.ofObjectChars_of_isStorePrefix hprefix) n,
    fun c => mapName_last _ n, ?_⟩
  rw [← isObjectName_mapName_iff hprefix (n := n), isDomainName_iff]
  exact ⟨fun h => h.2.1, fun h => ⟨hlength, h, hpoints⟩⟩

/-- The topic `invoices`, whose resource has the same name. -/
def invoices : TopicName := ⟨"invoices", by decide⟩

theorem isDomainName_invoices : IsDomainName invoices.resourceName.text :=
  (TopicName.isDomainName_resourceName_iff invoices).2 (by unfold PointsApart Apart; decide)

/-- The default settings name the ConfigMap of `invoices` legally. -/
theorem mapName_legal_invoices :
    Settings.default.validate = .ok () ∧ IsDomainName invoices.resourceName.text ∧
      IsDomainName (mapName Settings.default.storePrefix invoices) := by
  have hvalid := Settings.validate_default
  exact ⟨hvalid, isDomainName_invoices,
    (mapName_legal hvalid isDomainName_invoices).2.2.2.2 (by decide +kernel)⟩

/-- Settings may hold a prefix that begins with a hyphen, and then no ConfigMap has a legal name. -/
theorem not_isDomainName_mapName :
    ¬ ∀ (s : Settings) (n : TopicName), s.validate = .ok () → IsDomainName n.resourceName.text →
      IsDomainName (mapName s.storePrefix n) := by
  intro h
  let s : Settings := { Settings.default with storePrefix := "-store" }
  have hvalid : s.validate = .ok () := Settings.validate_eq_ok_iff.2 (by decide +kernel)
  have hname := (isDomainName_iff.1 (h s invoices hvalid isDomainName_invoices)).2.1
  rw [isObjectName_mapName_iff (Settings.isStorePrefix_of_validate hvalid)] at hname
  exact hname (by decide +kernel)

end ConfigMapStore

end TopicSync
