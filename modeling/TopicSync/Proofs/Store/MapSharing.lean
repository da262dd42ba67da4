import TopicSync.Proofs.Store.MapLegality

/-!
Which topics share a ConfigMap. Full names tell resources apart, and so do the hashes that cut names
end with. But a cut name may be the full name of another topic: of one whose resource has what the
cut leaves of the first resource's name, and the hash. With a prefix that is neither very short nor
very long every topic whose name is cut has such a twin.
-/
namespace TopicSync

/-- Where a list is taken apart at some element, after which there is no other, no more of it is
left than where it is taken apart at any such element. -/
theorem within_of_append_cons_eq {α : Type} {c : α} {as bs cs ds : List α}
    (h : as ++ c :: bs = cs ++ c :: ds) (hc : c ∉ ds) : as.length ≤ cs.length ∧ ds <:+ bs := by
  rcases List.append_eq_append_iff.1 h with ⟨es, rfl, hrest⟩ | ⟨es, rfl, hrest⟩
  · rw [List.length_append]
    refine ⟨Nat.le_add_right _ _, ?_⟩
    cases es with
    | nil => exact ⟨[], (List.cons.inj hrest).2.symm⟩
    | cons e es => exact ⟨es ++ [c], by rw [(List.cons.inj hrest).2]; simp⟩
  · cases es with
    | nil => exact ⟨by rw [List.append_nil], [], (List.cons.inj hrest).2⟩
    | cons e es =>
      refine absurd ?_ hc
      rw [(List.cons.inj hrest).2]
      exact List.mem_append_right _ List.mem_cons_self

theorem isObjectName_nameHash (s : String) : isObjectName (nameHash s).toList = true :=
  isObjectName_iff.2 ⟨nameHash_ne_nil s, fun c => ofObjectChars_nameHash s c,
    fun _ hc => isLowerAlnum_of_mem_nameHash (List.mem_of_mem_head? hc),
    fun _ hc => isLowerAlnum_of_mem_nameHash (List.mem_of_mem_getLast? hc)⟩

theorem isObjectName_hyphen {as bs : List Char} (ha : isObjectName as = true)
    (hb : isObjectName bs = true) : isObjectName (as ++ '-' :: bs) = true := by
  obtain ⟨hna, hca, hfirst, -⟩ := isObjectName_iff.1 ha
  obtain ⟨hnb, hcb, -, hlast⟩ := isObjectName_iff.1 hb
  refine isObjectName_iff.2 ⟨by simp, ?_, ?_, ?_⟩
  · exact List.forall_mem_append.2 ⟨hca, List.forall_mem_cons.2 ⟨by decide, hcb⟩⟩
  · rwa [List.head?_append_of_ne_nil _ hna]
  · rwa [List.getLast?_append_of_ne_nil _ (List.cons_ne_nil _ _), List.getLast?_cons_of_ne_nil hnb]

theorem hyphen_not_mem_nameHash (s : String) : '-' ∉ (nameHash s).toList := fun h =>
  absurd (isLowerAlnum_of_mem_nameHash h) (by decide)

namespace ConfigMapStore

variable {chosen : String} {a b n : TopicName}

section Lengths

theorem length_cutHead_le (chosen : String) (n : TopicName) :
    (cutHead chosen n).length ≤ maxObjectNameLength - nameHashLength - 1 :=
  (Text.stripEnd_start _ _).length_le.trans (List.length_take_le _ _)

theorem fits_iff (h : Settings.isStorePrefix chosen = true) : Fits chosen n ↔
    chosen.toList.length + 1 + n.resourceName.text.toList.length ≤ maxObjectNameLength := by
  have hfull : OfObjectChars (fullName chosen n) :=
    .append (.append (Settings.ofObjectChars_of_isStorePrefix h) (by decide))
      n.ofObjectChars_resourceName
  rw [Fits, hfull.utf8ByteSize_eq, toList_fullName, List.length_append, List.length_cons]
  omega

end Lengths

section Remnant

/-- What the cut leaves of the name of a resource that follows a prefix. -/
def remnant (chosen : String) (n : TopicName) : List Char :=
  Text.stripEnd (fun c => !c.isAlphanum) (n.resourceName.text.toList.take
    (maxObjectNameLength - nameHashLength - 2 - chosen.toList.length))

theorem remnant_start (chosen : String) (n : TopicName) :
    remnant chosen n <+: n.resourceName.text.toList :=
  (Text.stripEnd_start _ _).trans (List.take_prefix _ _)

theorem length_remnant_le (chosen : String) (n : TopicName) :
    (remnant chosen n).length ≤
      maxObjectNameLength - nameHashLength - 2 - chosen.toList.length :=
  (Text.stripEnd_start _ _).length_le.trans (List.length_take_le _ _)

/-- A prefix that leaves room for the resource's first character leaves something of its name. -/
theorem remnant_ne_nil (h : chosen.toList.length < maxObjectNameLength - nameHashLength - 2) :
    remnant chosen n ≠ [] := by
  intro hnil
  obtain ⟨hne, -, hfirst, -⟩ := isObjectName_iff.1 n.isObjectName_resourceName
  have hhead := List.head?_eq_some_head hne
  have hall := List.rdropWhile_eq_nil_iff.1 hnil
  have hmem : n.resourceName.text.toList.head hne ∈ n.resourceName.text.toList.take
      (maxObjectNameLength - nameHashLength - 2 - chosen.toList.length) := by
    refine List.mem_of_mem_head? ?_
    rw [List.head?_take, if_neg (by omega), hhead]
    rfl
  have halnum := isAlphanum_of_isLowerAlnum (hfirst _ hhead)
  simpa [halnum] using hall _ hmem

theorem isObjectName_remnant (h : remnant chosen n ≠ []) :
    isObjectName (remnant chosen n) = true := by
  obtain ⟨-, hchars, hfirst, -⟩ := isObjectName_iff.1 n.isObjectName_resourceName
  have hstart := remnant_start chosen n
  refine isObjectName_iff.2 ⟨h, fun c hc => hchars c (hstart.subset hc),
    fun c hc => hfirst c (Text.mem_head?_of_start hstart hc), fun c hc => ?_⟩
  have halnum := Text.not_of_mem_getLast?_stripEnd (p := fun c : Char => !c.isAlphanum) hc
  exact isLowerAlnum_of_isAlphanum (hchars c (hstart.subset (List.mem_of_mem_getLast? hc)))
    (by simpa using halnum)

/-- A cut that leaves something of the resource's name leaves the whole prefix. -/
theorem cutHead_eq (h : chosen.toList.length < maxObjectNameLength - nameHashLength - 2) :
    cutHead chosen n = chosen.toList ++ '-' :: remnant chosen n := by
  have hroom : maxObjectNameLength - nameHashLength - 1 - chosen.toList.length =
      maxObjectNameLength - nameHashLength - 2 - chosen.toList.length + 1 := by omega
  have htake : (fullName chosen n).toList.take (maxObjectNameLength - nameHashLength - 1) =
      (chosen.toList ++ ['-']) ++ n.resourceName.text.toList.take
        (maxObjectNameLength - nameHashLength - 2 - chosen.toList.length) := by
    rw [toList_fullName, List.take_append, List.take_of_length_le (by omega), hroom,
      List.take_succ_cons, List.append_assoc]
    rfl
  rw [cutHead, htake, Text.stripEnd_append (remnant_ne_nil h), List.append_assoc]
  rfl

end Remnant

/-- A topic whose name is cut is bereft of it by one that has the cut name as its full name. -/
structure TakesName (chosen : String) (b a : TopicName) : Prop where
  cut : ¬ Fits chosen a
  same : fullName chosen b = cutName chosen a

namespace TakesName

/-- No name is cut to one that would have to be cut. -/
theorem mapName_eq (h : TakesName chosen b a) (hchosen : Settings.isStorePrefix chosen = true) :
    mapName chosen b = mapName chosen a := by
  have hcut := mapName_of_not_fits h.cut
  have hfits : Fits chosen b := by
    have hbytes := utf8ByteSize_mapName_le (Settings.ofObjectChars_of_isStorePrefix hchosen) a
    rwa [hcut, ← h.same] at hbytes
  rw [mapName_of_fits hfits, h.same, hcut]

/-- The hash, in which there are no hyphens, is all at the end of the other resource's name, so that
the prefix lies in what precedes the hash. -/
theorem within (h : TakesName chosen b a) :
    chosen.toList.length ≤ maxObjectNameLength - nameHashLength - 1 ∧
      (nameHash a.text).toList <:+ b.resourceName.text.toList := by
  have hsame := congrArg String.toList h.same
  rw [toList_fullName, toList_cutName] at hsame
  obtain ⟨hchosen, hend⟩ := within_of_append_cons_eq hsame (hyphen_not_mem_nameHash a.text)
  exact ⟨hchosen.trans (length_cutHead_le chosen a), hend⟩

end TakesName

/-- Cut names end with the hash, and all hashes are of one length. -/
theorem nameHash_eq_of_cutName (h : cutName chosen a = cutName chosen b) :
    nameHash a.text = nameHash b.text := by
  have hlist := congrArg String.toList h
  rw [toList_cutName, toList_cutName] at hlist
  have hlength : (nameHash a.text).toList.length = (nameHash b.text).toList.length :=
    (length_nameHash a.text).trans (length_nameHash b.text).symm
  have hends := List.append_inj_right' hlist (by rw [List.length_cons, List.length_cons, hlength])
  exact String.toList_injective (List.cons.inj hends).2

theorem resourceName_eq_of_fullName (h : fullName chosen a = fullName chosen b) :
    a.resourceName = b.resourceName := by
  have hlist := congrArg String.toList h
  rw [toList_fullName, toList_fullName] at hlist
  have htext := String.toList_injective (List.cons.inj (List.append_cancel_left hlist)).2
  cases ha : a.resourceName
  cases hb : b.resourceName
  rw [ha, hb] at htext
  exact congrArg ResourceName.mk htext

/-- Two topics with different resources, whose names are told apart by their hashes, share a
ConfigMap just if one of them has the full name to which the name of the other is cut. That needs a
prefix of at most 212 characters, and a resource named so as to end with the other topic's hash. -/
theorem mapName_eq_iff {s : Settings} (hs : s.validate = .ok ())
    (hne : a.resourceName ≠ b.resourceName) (hhash : nameHash a.text = nameHash b.text → a = b) :
    (mapName s.storePrefix a = mapName s.storePrefix b ↔
      TakesName s.storePrefix b a ∨ TakesName s.storePrefix a b) ∧
    (mapName s.storePrefix a = mapName s.storePrefix b →
      s.storePrefix.toList.length ≤ 212 ∧
        ((nameHash a.text).toList <:+ b.resourceName.text.toList ∨
          (nameHash b.text).toList <:+ a.resourceName.text.toList)) := by
  have hchosen := Settings.isStorePrefix_of_validate hs
  have hiff : mapName s.storePrefix a = mapName s.storePrefix b ↔
      TakesName s.storePrefix b a ∨ TakesName s.storePrefix a b := by
    constructor
    · intro hsame
      rcases mapName_cases s.storePrefix a with ⟨-, ha⟩ | ⟨hcuta, ha⟩ <;>
        rcases mapName_cases s.storePrefix b with ⟨-, hb⟩ | ⟨hcutb, hb⟩ <;>
        rw [ha, hb] at hsame
      · exact absurd (resourceName_eq_of_fullName hsame) hne
      · exact .inr ⟨hcutb, hsame⟩
      · exact .inl ⟨hcuta, hsame.symm⟩
      · exact absurd (congrArg _ (hhash (nameHash_eq_of_cutName hsame))) hne
    · rintro (htakes | htakes)
      · exact (htakes.mapName_eq hchosen).symm
      · exact htakes.mapName_eq hchosen
  refine ⟨hiff, fun hsame => ?_⟩
  rcases hiff.1 hsame with htakes | htakes
  · exact ⟨htakes.within.1, .inl htakes.within.2⟩
  · exact ⟨htakes.within.1, .inr htakes.within.2⟩

/-- Whenever a prefix of 3 to 210 characters makes the name of a ConfigMap too long, another topic
shares it: the one named like what is left of the resource's name and the hash. -/
theorem exists_ne_mapName_eq (hchosen : Settings.isStorePrefix chosen = true)
    (hshort : 3 ≤ chosen.toList.length) (hlong : chosen.toList.length ≤ 210)
    (hcut : ¬ Fits chosen a) :
    ∃ b : TopicName, b.resourceName ≠ a.resourceName ∧ mapName chosen b = mapName chosen a := by
  have hroom : chosen.toList.length < maxObjectNameLength - nameHashLength - 2 :=
    Nat.lt_of_le_of_lt hlong (by decide)
  have hname := isObjectName_hyphen (isObjectName_remnant (n := a) (remnant_ne_nil hroom))
    (isObjectName_nameHash a.text)
  have hlength : (remnant chosen a ++ '-' :: (nameHash a.text).toList).length =
      (remnant chosen a).length + 41 := by
    rw [List.length_append, List.length_cons, length_nameHash]
    rfl
  have hremnant : (remnant chosen a).length ≤ 211 - chosen.toList.length :=
    length_remnant_le chosen a
  obtain ⟨b, hb⟩ := TopicName.exists_resourceName hname (by omega)
  refine ⟨b, fun hsame => ?_, TakesName.mapName_eq ⟨hcut, ?_⟩ hchosen⟩
  · -- What is left is shorter than what had to be cut.
    have hfull : ¬ chosen.toList.length + 1 + a.resourceName.text.toList.length ≤ 253 :=
      mt (fits_iff hchosen).2 hcut
    rw [← hsame, hb] at hfull
    omega
  · refine String.toList_injective ?_
    rw [toList_fullName, toList_cutName, cutHead_eq hroom, hb, List.append_assoc]
    rfl

section Twins

/-- The text of a name that is too long. All that the cut leaves of it is `orders`. -/
def longText : List Char := "orders".toList ++ List.replicate 232 '-' ++ "eu".toList

theorem isObjectName_longText : isObjectName longText = true := by decide +kernel

/-- A topic that the default settings give a ConfigMap with a cut name. -/
def longName : TopicName :=
  ⟨String.ofList longText, TopicName.nameFault?_eq_none
    (String.toList_ofList.symm ▸ isObjectName_longText)
    (by rw [String.length_ofList]; decide +kernel)⟩

/-- The topic whose ConfigMap has that name uncut. -/
def twinName : TopicName := ⟨"orders-9ac0d6a3043c6e82dbe56b26f07e35a286dad430", by decide⟩

theorem resourceName_longName : longName.resourceName.text.toList = longText := by
  rw [TopicName.resourceName_of_isObjectName] <;> rw [longName, String.toList_ofList]
  exact isObjectName_longText

theorem resourceName_twinName_ne : longName.resourceName ≠ twinName.resourceName := by
  intro h
  have htext := resourceName_longName
  rw [h] at htext
  exact absurd htext (by decide +kernel)

theorem nameHash_longName :
    nameHash longName.text = "9ac0d6a3043c6e82dbe56b26f07e35a286dad430" := by decide +kernel

theorem nameHash_twinName_ne : nameHash longName.text ≠ nameHash twinName.text := by
  rw [nameHash_longName]
  decide +kernel

theorem takesName_twinName : TakesName Settings.default.storePrefix twinName longName where
  cut := by
    rw [fits_iff (by decide), resourceName_longName]
    decide +kernel
  same := by
    refine String.toList_injective ?_
    rw [toList_fullName, toList_cutName, cutHead_eq (by decide), remnant, resourceName_longName,
      nameHash_longName]
    decide +kernel

/-- With the default settings a topic that has a long name and its twin share a ConfigMap. -/
theorem mapName_eq_iff_longName :
    Settings.default.validate = .ok () ∧ longName.resourceName ≠ twinName.resourceName ∧
      (nameHash longName.text = nameHash twinName.text → longName = twinName) ∧
      mapName Settings.default.storePrefix longName =
        mapName Settings.default.storePrefix twinName := by
  have hhash : nameHash longName.text = nameHash twinName.text → longName = twinName :=
    fun h => absurd h nameHash_twinName_ne
  have hiff := (mapName_eq_iff Settings.validate_default resourceName_twinName_ne hhash).1
  exact ⟨Settings.validate_default, resourceName_twinName_ne, hhash,
    hiff.2 (.inl takesName_twinName)⟩

/-- Resources and hashes that differ do not keep topics from sharing a ConfigMap. -/
theorem not_mapName_injective :
    ¬ ∀ (s : Settings) (a b : TopicName), s.validate = .ok () → a.resourceName ≠ b.resourceName →
      (nameHash a.text = nameHash b.text → a = b) →
      mapName s.storePrefix a ≠ mapName s.storePrefix b := by
  intro h
  have hchosen := Settings.isStorePrefix_of_validate Settings.validate_default
  exact h Settings.default longName twinName Settings.validate_default resourceName_twinName_ne
    (fun hhash => absurd hhash nameHash_twinName_ne)
    (takesName_twinName.mapName_eq hchosen).symm

end Twins

end ConfigMapStore

end TopicSync
