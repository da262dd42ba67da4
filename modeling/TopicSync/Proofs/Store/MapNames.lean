import TopicSync.Proofs.Api.Target
import TopicSync.Proofs.Text.Strip
import TopicSync.Settings
import TopicSync.Store.ConfigMap

/-!
The names of ConfigMaps. With any prefix that the settings may hold, they consist of lower-case
letters, digits, points and hyphens, and none is longer than the names of objects may be.
-/
namespace TopicSync

/-- A character that object names may have. -/
def isObjectChar (c : Char) : Bool := isLowerAlnum c || c = '.' || c = '-'

section Characters

variable {c : Char}

theorem isAlphanum_iff :
    c.isAlphanum = true ↔ (c.isUpper = true ∨ c.isLower = true) ∨ c.isDigit = true := by
  change ((c.isUpper || c.isLower) || c.isDigit) = true ↔ _
  rw [Bool.or_eq_true, Bool.or_eq_true]

theorem isAlphanum_of_isLowerAlnum (h : isLowerAlnum c = true) : c.isAlphanum = true := by
  rw [isLowerAlnum, Bool.or_eq_true] at h
  exact isAlphanum_iff.2 (h.imp .inr id)

/-- What holds of letters, digits, the point and the hyphen holds of the characters of names. -/
theorem of_isObjectChar {P : Char → Prop} (halnum : ∀ c : Char, c.isAlphanum = true → P c)
    (hpoint : P '.') (hhyphen : P '-') (h : isObjectChar c = true) : P c := by
  simp only [isObjectChar, Bool.or_eq_true, decide_eq_true_eq] at h
  rcases h with (h | rfl) | rfl
  · exact halnum c (isAlphanum_of_isLowerAlnum h)
  · exact hpoint
  · exact hhyphen

theorem isObjectChar_of_isStorePrefixChar (h : Settings.isStorePrefixChar c = true) :
    isObjectChar c = true := by
  simp only [Settings.isStorePrefixChar, Bool.or_eq_true, decide_eq_true_eq] at h
  simp only [isObjectChar, isLowerAlnum, Bool.or_eq_true, decide_eq_true_eq]
  exact h.imp .inl id

theorem isObjectChar_of_isLowerAlnum (h : isLowerAlnum c = true) : isObjectChar c = true := by
  simp [isObjectChar, h]

theorem isLowerAlnum_of_isAlphanum (h : isObjectChar c = true) (halnum : c.isAlphanum = true) :
    isLowerAlnum c = true := by
  simp only [isObjectChar, Bool.or_eq_true, decide_eq_true_eq] at h
  rcases h with (h | rfl) | rfl
  · exact h
  · exact absurd halnum (by decide)
  · exact absurd halnum (by decide)

theorem isLowerAlnum_toLower (h : c.isUpper = true) : isLowerAlnum c.toLower = true := by
  -- Of the ASCII characters each can be looked at.
  have hascii : ∀ n < 128, (Char.ofNat n).isUpper = true →
      isLowerAlnum (Char.ofNat n).toLower = true := by decide
  have hrange := Api.Target.toNat_of_isAlphanum (isAlphanum_iff.2 (.inl (.inl h)))
  have hc := hascii c.toNat (by omega)
  rw [Char.ofNat_toNat] at hc
  exact hc h

theorem isObjectChar_legalChar (c : Char) : isObjectChar (TopicName.legalChar c) = true := by
  rw [TopicName.legalChar]
  split
  next h => exact h
  next =>
    split
    next hupper => exact isObjectChar_of_isLowerAlnum (isLowerAlnum_toLower hupper)
    next => decide

theorem isLowerAlnum_hexDigit : ∀ d < 16, isLowerAlnum (Sha256.hexDigit d) = true := by decide

end Characters

/-- Every character of a text may be in an object name. -/
def OfObjectChars (s : String) : Prop := ∀ c ∈ s.toList, isObjectChar c = true

instance (s : String) : Decidable (OfObjectChars s) := decidable_of_iff _ List.all_eq_true

namespace OfObjectChars

variable {s t : String}

theorem append (hs : OfObjectChars s) (ht : OfObjectChars t) : OfObjectChars (s ++ t) := by
  intro c hc
  rw [String.toList_append] at hc
  exact (List.mem_append.1 hc).elim (hs c) (ht c)

theorem ofPathChars (h : OfObjectChars s) : Api.Target.OfPathChars s := fun c hc =>
  of_isObjectChar (P := fun c => Api.Target.isPathChar c = true)
    (fun _ => Api.Target.isPathChar_of_isAlphanum) (by decide) (by decide) (h c hc)

theorem isPlain (h : OfObjectChars s) : ∀ c ∈ s.toList, Text.Form.isPlain c = true := fun c hc =>
  of_isObjectChar (P := fun c => Text.Form.isPlain c = true)
    (fun c hc => by simp [Text.Form.isPlain, hc]) (by decide) (by decide) (h c hc)

theorem utf8Size_eq_one {c : Char} (h : isObjectChar c = true) : c.utf8Size = 1 := by
  have hascii : c.toNat ≤ 127 := by
    refine of_isObjectChar (P := fun c => c.toNat ≤ 127) (fun c hc => ?_) (by decide) (by decide) h
    have hrange := Api.Target.toNat_of_isAlphanum hc
    omega
  exact Char.utf8Size_eq_one_iff.2 (UInt32.le_iff_toNat_le.2 hascii)

/-- Such a text has as many bytes as characters. -/
theorem utf8ByteSize_eq (h : OfObjectChars s) : s.utf8ByteSize = s.toList.length := by
  have hlist : ∀ cs : List Char, (∀ c ∈ cs, isObjectChar c = true) →
      (cs.flatMap String.utf8EncodeChar).length = cs.length := by
    intro cs hcs
    induction cs with
    | nil => rfl
    | cons c cs ih =>
      obtain ⟨hc, hrest⟩ := List.forall_mem_cons.1 hcs
      rw [List.flatMap_cons, List.length_append, String.length_utf8EncodeChar, utf8Size_eq_one hc,
        ih hrest, List.length_cons]
      omega
  rw [String.utf8ByteSize, ← String.utf8Encode_toList, List.utf8Encode, List.size_toByteArray]
  exact hlist s.toList h

end OfObjectChars

namespace Settings

theorem ofObjectChars_of_isStorePrefix {s : String} (h : isStorePrefix s = true) :
    OfObjectChars s := by
  rw [isStorePrefix, Bool.and_eq_true, List.all_eq_true] at h
  exact fun c hc => isObjectChar_of_isStorePrefixChar (h.2 c hc)

theorem ite_some_eq_none_iff {α : Type} {p : Prop} [Decidable p] {a : α} {o : Option α} :
    (if p then some a else o) = none ↔ ¬ p ∧ o = none := by
  by_cases h : p <;> simp [h]

/-- What settings have to be like so that nobody complains. -/
theorem complaint?_eq_none_iff {s : Settings} : s.complaint? = none ↔
    (Text.trim s.bootstrapServers).isEmpty = false ∧ s.namespace.isEmpty = false ∧
      s.resourceLabels.isEmpty = false ∧ s.fullReconciliationInterval ≠ 0 ∧
      s.kafkaPollInterval ≠ 0 ∧ s.operationTimeout ≠ 0 ∧ s.retry.maxAttempts ≠ 0 ∧
      isStorePrefix s.storePrefix = true := by
  rw [complaint?]
  simp only [ite_some_eq_none_iff, Bool.not_eq_true, Bool.not_eq_false', and_true, ne_eq]

theorem validate_eq_ok_iff {s : Settings} : s.validate = .ok () ↔ s.complaint? = none := by
  rw [validate]
  cases s.complaint? with
  | none => exact iff_of_true rfl rfl
  | some c => exact iff_of_false nofun nofun

theorem validate_default : default.validate = .ok () := validate_eq_ok_iff.2 (by decide +kernel)

theorem isStorePrefix_of_validate {s : Settings} (h : s.validate = .ok ()) :
    isStorePrefix s.storePrefix = true :=
  (complaint?_eq_none_iff.1 (validate_eq_ok_iff.1 h)).2.2.2.2.2.2.2

end Settings

section Names

theorem isLowerAlnum_of_mem_hexDigits {n v : Nat} {c : Char} (h : c ∈ Sha256.hexDigits n v) :
    isLowerAlnum c = true := by
  induction n generalizing v with
  | zero => cases h
  | succ n ih =>
    rw [Sha256.hexDigits, List.mem_append, List.mem_singleton] at h
    rcases h with h | rfl
    · exact ih h
    · exact isLowerAlnum_hexDigit _ (Nat.mod_lt v (by decide))

theorem length_hexDigits (n v : Nat) : (Sha256.hexDigits n v).length = n := by
  induction n generalizing v with
  | zero => rfl
  | succ n ih => rw [Sha256.hexDigits, List.length_append, ih, List.length_singleton]

theorem isLowerAlnum_of_mem_nameHash {s : String} {c : Char} (hc : c ∈ (nameHash s).toList) :
    isLowerAlnum c = true := by
  rw [nameHash, Sha256.hex, String.toList_ofList, String.toList_ofList] at hc
  obtain ⟨w, -, hw⟩ := List.mem_flatMap.1 (List.mem_of_mem_take hc)
  exact isLowerAlnum_of_mem_hexDigits hw

theorem ofObjectChars_nameHash (s : String) : OfObjectChars (nameHash s) :=
  fun _ hc => isObjectChar_of_isLowerAlnum (isLowerAlnum_of_mem_nameHash hc)

/-- All hashes are of one length: a digest has eight words, and each word eight digits. -/
theorem length_nameHash (s : String) : (nameHash s).toList.length = nameHashLength := by
  have hdigest : (Sha256.hex s).toList.length = 64 := by
    rw [Sha256.hex, String.toList_ofList, List.length_flatMap]
    simp only [length_hexDigits]
    rfl
  rw [nameHash, String.toList_ofList, List.length_take, hdigest]
  rfl

theorem nameHash_ne_nil (s : String) : (nameHash s).toList ≠ [] := by
  intro hnil
  have hlength := length_nameHash s
  rw [hnil] at hlength
  exact absurd hlength (by decide)

namespace TopicName

theorem isObjectChar_of_mem_stem {n : TopicName} {c : Char} (h : c ∈ n.stem) :
    isObjectChar c = true := by
  have hcut := List.mem_of_mem_take ((Text.stripEnd_sublist _ _).mem h)
  obtain ⟨d, -, rfl⟩ := List.mem_map.1 ((Text.strip_sublist _ _).mem hcut)
  exact isObjectChar_legalChar d

theorem ofObjectChars_resourceName (n : TopicName) : OfObjectChars n.resourceName.text := by
  rw [resourceName]
  split
  next h =>
    intro c hc
    have hname := h.2
    unfold isObjectName at hname
    split at hname
    · cases hname
    · simp only [Bool.and_eq_true, List.all_eq_true] at hname
      exact hname.1.2 c hc
  next =>
    split
    · exact ofObjectChars_nameHash n.text
    · refine .append (.append (fun c hc => ?_) (by decide)) (ofObjectChars_nameHash n.text)
      rw [String.toList_ofList] at hc
      exact isObjectChar_of_mem_stem hc

end TopicName

namespace ConfigMapStore

variable {chosen : String}

theorem ofObjectChars_mapName (h : OfObjectChars chosen) (n : TopicName) :
    OfObjectChars (mapName chosen n) := by
  have hfull : OfObjectChars (chosen ++ "-" ++ n.resourceName.text) :=
    .append (.append h (by decide)) n.ofObjectChars_resourceName
  rw [mapName]
  split
  · exact hfull
  · refine .append (.append (fun c hc => ?_) (by decide)) (ofObjectChars_nameHash n.text)
    rw [String.toList_ofList] at hc
    exact hfull c (List.mem_of_mem_take ((Text.stripEnd_sublist _ _).mem hc))

/-- No name is too long for an object. -/
theorem utf8ByteSize_mapName_le (h : OfObjectChars chosen) (n : TopicName) :
    (mapName chosen n).utf8ByteSize ≤ maxObjectNameLength := by
  have hchars := ofObjectChars_mapName h n
  rw [mapName] at hchars ⊢
  split
  next hshort => exact hshort
  next hlong =>
    have hhead : (Text.stripEnd (fun c => !c.isAlphanum)
        ((chosen ++ "-" ++ n.resourceName.text).toList.take
          (maxObjectNameLength - nameHashLength - 1))).length ≤
        maxObjectNameLength - nameHashLength - 1 :=
      (Text.stripEnd_sublist _ _).length_le.trans (List.length_take_le _ _)
    have hhash := length_nameHash n.text
    have hhyphen : "-".toList.length = 1 := rfl
    have hbudget : maxObjectNameLength - nameHashLength - 1 + 1 + nameHashLength =
        maxObjectNameLength := rfl
    rw [if_neg hlong] at hchars
    rw [hchars.utf8ByteSize_eq, String.toList_append, String.toList_append, String.toList_ofList,
      List.length_append, List.length_append, hhyphen]
    omega

theorem mapName_ne_empty (chosen : String) (n : TopicName) : mapName chosen n ≠ "" := by
  intro h
  have hlist := congrArg String.toList h
  rw [mapName] at hlist
  split at hlist <;> simp [String.toList_append] at hlist

end ConfigMapStore

end Names

end TopicSync
