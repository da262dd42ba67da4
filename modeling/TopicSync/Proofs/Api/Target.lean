import TopicSync.Api.Target
import TopicSync.Proofs.Text.Form

/-!
A target that is short enough is asked for as it was put together: its path, if each character may
stand in one, and its parameters, whatever they are.
-/
namespace TopicSync.Api.Target

theorem toNat_of_isAlphanum {c : Char} (h : c.isAlphanum = true) :
    0x30 ≤ c.toNat ∧ c.toNat ≤ 0x39 ∨ 0x41 ≤ c.toNat ∧ c.toNat ≤ 0x5a ∨
      0x61 ≤ c.toNat ∧ c.toNat ≤ 0x7a := by
  delta Char.isAlphanum Char.isAlpha Char.isUpper Char.isLower Char.isDigit at h
  simp only [Bool.or_eq_true, Bool.and_eq_true, decide_eq_true_eq] at h
  change 0x30 ≤ c.val.toNat ∧ c.val.toNat ≤ 0x39 ∨ 0x41 ≤ c.val.toNat ∧ c.val.toNat ≤ 0x5a ∨
    0x61 ≤ c.val.toNat ∧ c.val.toNat ≤ 0x7a
  rcases h with (⟨hlo, hhi⟩ | ⟨hlo, hhi⟩) | ⟨hlo, hhi⟩
  · exact .inr (.inl ⟨hlo, hhi⟩)
  · exact .inr (.inr ⟨hlo, hhi⟩)
  · exact .inl ⟨hlo, hhi⟩

theorem ne_of_isAlphanum {c : Char} (h : c.isAlphanum = true) {d : Char}
    (hd : d.isAlphanum = false) : c ≠ d := by
  rintro rfl
  exact Bool.false_ne_true (hd.symm.trans h)

theorem isQueryChar_of_isAlphanum {c : Char} (h : c.isAlphanum = true) : isQueryChar c = true := by
  have hrange := toNat_of_isAlphanum h
  have hlow : 0x21 ≤ c.toNat := by omega
  have hhigh : c.toNat ≠ 0x7f := by omega
  have hmark : c ≠ '#' ∧ c ≠ '"' ∧ c ≠ '<' ∧ c ≠ '>' :=
    ⟨ne_of_isAlphanum h (by decide), ne_of_isAlphanum h (by decide),
      ne_of_isAlphanum h (by decide), ne_of_isAlphanum h (by decide)⟩
  simp [isQueryChar, hlow, hhigh, hmark]

theorem isPathChar_of_isAlphanum {c : Char} (h : c.isAlphanum = true) : isPathChar c = true := by
  have hrange := toNat_of_isAlphanum h
  have hlow : 0x21 ≤ c.toNat := by omega
  have hhigh : c.toNat ≠ 0x7f := by omega
  have hquote : c.toNat ≠ 0x60 := by omega
  have hmark : c ≠ '#' ∧ c ≠ '?' ∧ c ≠ '<' ∧ c ≠ '>' :=
    ⟨ne_of_isAlphanum h (by decide), ne_of_isAlphanum h (by decide),
      ne_of_isAlphanum h (by decide), ne_of_isAlphanum h (by decide)⟩
  simp [isPathChar, hlow, hhigh, hquote, hmark]

theorem isQueryChar_of_isWritten {c : Char} (h : Text.Form.isWritten c = true) :
    isQueryChar c = true := by
  simp only [Text.Form.isWritten, Text.Form.isPlain, Bool.or_eq_true, decide_eq_true_eq] at h
  rcases h with (((((h | rfl) | rfl) | rfl) | rfl) | rfl) | rfl
  · exact isQueryChar_of_isAlphanum h
  all_goals decide

theorem isQueryChar_of_mem_pair {p : String × String} {c : Char} (h : c ∈ Text.Form.pair p) :
    isQueryChar c = true := by
  rw [Text.Form.pair, List.mem_append, List.mem_cons, List.mem_cons] at h
  rcases h with (rfl | h) | rfl | h
  · decide
  · exact isQueryChar_of_isWritten (Text.Form.isWritten_of_mem_encode h)
  · decide
  · exact isQueryChar_of_isWritten (Text.Form.isWritten_of_mem_encode h)

/-- Every character of a text may stand in a path. -/
def OfPathChars (s : String) : Prop := ∀ c ∈ s.toList, isPathChar c = true

instance (s : String) : Decidable (OfPathChars s) := decidable_of_iff _ List.all_eq_true

theorem OfPathChars.append {s t : String} (hs : OfPathChars s) (ht : OfPathChars t) :
    OfPathChars (s ++ t) := by
  intro c hc
  rw [String.toList_append] at hc
  exact (List.mem_append.1 hc).elim (hs c) (ht c)

theorem ofText?_text {path : String} {parameters : Option (List (String × String))}
    (hpath : OfPathChars path)
    (hsize : (text path parameters).utf8ByteSize ≤ maxLength) :
    ofText? (text path parameters) = some ⟨path, parameters.getD []⟩ := by
  have hmark : ∀ c : Char, isPathChar c = false → c ∉ path.toList := fun c hc hmem =>
    Bool.false_ne_true (hc.symm.trans (hpath c hmem))
  have hnumber : '#' ∉ path.toList := hmark '#' (by decide)
  have hquestion : '?' ∉ path.toList := hmark '?' (by decide)
  have hall : path.toList.all isPathChar = true := List.all_eq_true.2 hpath
  cases parameters with
  | none =>
    have htext : text path none = path := rfl
    rw [htext] at hsize ⊢
    rw [ofText?, Text.takeWhile_of_not_mem hnumber, Text.takeWhile_of_not_mem hquestion,
      Text.dropWhile_of_not_mem hquestion, String.ofList_toList]
    exact if_pos ⟨hsize, hall, rfl⟩
  | some ps =>
    have hquery : ∀ c ∈ ps.flatMap Text.Form.pair, isQueryChar c = true := by
      intro c hc
      obtain ⟨p, -, hp⟩ := List.mem_flatMap.1 hc
      exact isQueryChar_of_mem_pair hp
    have hsign : '#' ∉ path.toList ++ '?' :: ps.flatMap Text.Form.pair := by
      intro h
      rcases List.mem_append.1 h with h | h
      · exact hnumber h
      · rcases List.mem_cons.1 h with h | h
        · exact absurd h (by decide)
        · exact absurd (hquery '#' h) (by decide)
    have htext : (text path (some ps)).toList =
        path.toList ++ '?' :: ps.flatMap Text.Form.pair := by
      rw [text, String.toList_append, String.toList_ofList]
    rw [ofText?, htext, Text.takeWhile_of_not_mem hsign,
      Text.takeWhile_append_cons_of_not_mem hquestion,
      Text.dropWhile_append_cons_of_not_mem hquestion, List.drop_one, List.tail_cons,
      String.ofList_toList, Text.Form.pairs_flatMap_pair]
    exact if_pos ⟨hsize, hall, List.all_eq_true.2 hquery⟩

/-- A question mark is written even without parameters. -/
theorem utf8ByteSize_text_nil (path : String) :
    (text path (some [])).utf8ByteSize = path.utf8ByteSize + 1 :=
  String.utf8ByteSize_append

/-- Nothing is asked for under a target that is too long. -/
theorem ofText?_eq_none {s : String} (h : maxLength < s.utf8ByteSize) : ofText? s = none :=
  if_neg fun hall => absurd hall.1 (Nat.not_le.2 h)

end TopicSync.Api.Target
