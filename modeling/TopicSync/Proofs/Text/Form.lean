import Mathlib.Data.List.TakeWhile
import TopicSync.Proofs.Store.Paths
import TopicSync.Text.Form

/-!
Names and values are read back as they were written in a form, whatever characters they have. What
is written is plain: letters, digits, percent signs, plus signs and a few marks, so that neither
part of a pair is cut short by the signs between parts.
-/
namespace TopicSync.Text

/-- A part without the separator goes in front of the first part of what follows. -/
theorem splitOn_append_of_not_mem {sep : Char} {as bs : List Char} {part : List Char}
    {parts : List (List Char)} (h : sep ∉ as) (hbs : splitOn sep bs = part :: parts) :
    splitOn sep (as ++ bs) = (as ++ part) :: parts := by
  induction as with
  | nil => exact hbs
  | cons a as ih =>
    obtain ⟨hne, hrest⟩ := not_or.1 (mt List.mem_cons.2 h)
    rw [List.cons_append, splitOn, if_neg (Ne.symm hne), ih hrest]
    rfl

section Separators

variable {sep : Char} {as : List Char}

theorem forall_ne_of_not_mem (h : sep ∉ as) : ∀ c ∈ as, decide (c ≠ sep) = true :=
  fun _ hc => decide_eq_true fun heq => h (heq ▸ hc)

theorem takeWhile_of_not_mem (h : sep ∉ as) : as.takeWhile (· ≠ sep) = as :=
  List.takeWhile_eq_self_iff.2 (forall_ne_of_not_mem h)

theorem dropWhile_of_not_mem (h : sep ∉ as) : as.dropWhile (· ≠ sep) = [] :=
  List.dropWhile_eq_nil_iff.2 (forall_ne_of_not_mem h)

/-- What is before the first separator. -/
theorem takeWhile_append_cons_of_not_mem (h : sep ∉ as) (bs : List Char) :
    (as ++ sep :: bs).takeWhile (· ≠ sep) = as := by
  rw [List.takeWhile_append_of_pos (forall_ne_of_not_mem h)]
  simp

/-- What begins with the first separator. -/
theorem dropWhile_append_cons_of_not_mem (h : sep ∉ as) (bs : List Char) :
    (as ++ sep :: bs).dropWhile (· ≠ sep) = sep :: bs := by
  rw [List.dropWhile_append_of_pos (forall_ne_of_not_mem h)]
  simp

end Separators

namespace Form

section Bytes

theorem digitValue?_hexDigit : ∀ n < 16, digitValue? 16 (hexDigit n) = some n := by decide

theorem bytes_byte (b : UInt8) (rest : List Char) :
    bytes ('%' :: hexDigit (b.toNat / 16) :: hexDigit (b.toNat % 16) :: rest) =
      b :: bytes rest := by
  have hb : b.toNat < 256 := b.toNat_lt
  have hhigh := digitValue?_hexDigit (b.toNat / 16) (by omega)
  have hlow := digitValue?_hexDigit (b.toNat % 16) (by omega)
  have hvalue : b.toNat / 16 * 16 + b.toNat % 16 = b.toNat := by omega
  simp only [bytes, hhigh, hlow, hvalue]
  exact congrArg (· :: bytes rest) (UInt8.ofNat_toNat)

theorem bytes_escapes (bs : List UInt8) (rest : List Char) :
    bytes (bs.flatMap (fun b => ['%', hexDigit (b.toNat / 16), hexDigit (b.toNat % 16)]) ++ rest) =
      bs ++ bytes rest := by
  induction bs with
  | nil => rfl
  | cons b bs ih =>
    rw [List.flatMap_cons, List.append_assoc]
    exact (bytes_byte b _).trans (congrArg (b :: ·) ih)

/-- Any other character is written as it is. -/
theorem bytes_cons {c : Char} (hplus : c ≠ '+') (hpercent : c ≠ '%') (cs : List Char) :
    bytes (c :: cs) = String.utf8EncodeChar c ++ bytes cs := by
  rw [bytes]
  · exact hplus
  · exact fun _ _ _ h => absurd h hpercent

theorem encodeChar_of_isPlain {c : Char} (h : isPlain c = true) : encodeChar c = [c] := by
  have hspace : c ≠ ' ' := by
    rintro rfl
    exact absurd h (by decide)
  rw [encodeChar, if_neg hspace, if_pos h]

/-- A plain text is written as it is. -/
theorem encode_of_isPlain {s : String} (h : ∀ c ∈ s.toList, isPlain c = true) :
    encode s = s.toList := by
  have hchars : s.toList.map encodeChar = s.toList.map ([·]) :=
    List.map_congr_left fun c hc => encodeChar_of_isPlain (h c hc)
  rw [encode, List.flatMap_def, hchars, ← List.flatMap_def, List.flatMap_singleton']

theorem bytes_encodeChar (c : Char) (rest : List Char) :
    bytes (encodeChar c ++ rest) = String.utf8EncodeChar c ++ bytes rest := by
  rw [encodeChar]
  split
  next hspace =>
    subst hspace
    rfl
  next =>
    split
    next hplain =>
      have hplus : c ≠ '+' := by
        rintro rfl
        exact absurd hplain (by decide)
      have hpercent : c ≠ '%' := by
        rintro rfl
        exact absurd hplain (by decide)
      exact bytes_cons hplus hpercent rest
    next => exact bytes_escapes _ rest

theorem bytes_encode (s : String) : bytes (encode s) = s.toList.flatMap String.utf8EncodeChar := by
  rw [encode]
  induction s.toList with
  | nil => rfl
  | cons c cs ih => rw [List.flatMap_cons, bytes_encodeChar, ih, List.flatMap_cons]

/-- The text of bytes is read character by character, from wherever one begins. -/
theorem textFrom_utf8Encode (cs before : List Char) {n : Nat} (h : cs.utf8Encode.size ≤ n) :
    textFrom (before.utf8Encode ++ cs.utf8Encode) n before.utf8Encode.size = cs := by
  induction cs generalizing before n with
  | nil =>
    cases n with
    | zero => rfl
    | succ n => simp [textFrom]
  | cons c cs ih =>
    have hone : [c].utf8Encode.size = c.utf8Size := by
      simp [List.utf8Encode, List.size_toByteArray]
    have hsize : (c :: cs).utf8Encode.size = c.utf8Size + cs.utf8Encode.size := by
      rw [List.utf8Encode_cons, ByteArray.size_append, hone]
    have hpos := c.utf8Size_pos
    have hchar : (before.utf8Encode ++ (c :: cs).utf8Encode).utf8DecodeChar?
        before.utf8Encode.size = some c := by
      rw [ByteArray.utf8DecodeChar?_eq_utf8DecodeChar?_extract,
        ByteArray.extract_append_eq_right rfl ByteArray.size_append]
      exact List.utf8DecodeChar?_utf8Encode_cons
    have hbefore : (before ++ [c]).utf8Encode.size = before.utf8Encode.size + c.utf8Size := by
      rw [List.utf8Encode_append, ByteArray.size_append, hone]
    cases n with
    | zero => omega
    | succ n =>
      have hthere : before.utf8Encode.size <
          (before.utf8Encode ++ (c :: cs).utf8Encode).size := by
        rw [ByteArray.size_append]
        omega
      have hrest := ih (before ++ [c]) (n := n) (by omega)
      rw [hbefore, List.utf8Encode_append, ByteArray.append_assoc, ← List.utf8Encode_cons] at hrest
      rw [textFrom, if_pos hthere, hchar]
      exact congrArg (c :: ·) hrest

theorem decode_encode (s : String) : decode (encode s) = s := by
  have hbytes : ByteArray.mk (bytes (encode s)).toArray = s.toList.utf8Encode := by
    rw [bytes_encode]
    exact ByteArray.ext List.data_toByteArray.symm
  have htext := textFrom_utf8Encode s.toList [] (Nat.le_refl _)
  rw [decode, hbytes]
  exact (congrArg String.ofList htext).trans String.ofList_toList

end Bytes

section Pairs

/-- Characters that are written in a form. -/
def isWritten (c : Char) : Bool := isPlain c || c = '+' || c = '%'

theorem isWritten_hexDigit : ∀ n < 16, isWritten (hexDigit n) = true := by decide

theorem isWritten_of_mem_encodeChar {c d : Char} (h : d ∈ encodeChar c) : isWritten d = true := by
  rw [encodeChar] at h
  split at h
  next =>
    rw [List.mem_singleton.1 h]
    decide
  next =>
    split at h
    next hplain =>
      rw [List.mem_singleton.1 h, isWritten, hplain]
      rfl
    next =>
      obtain ⟨b, -, hd⟩ := List.mem_flatMap.1 h
      have hb : b.toNat < 256 := b.toNat_lt
      simp only [List.mem_cons, List.not_mem_nil, or_false] at hd
      rcases hd with rfl | rfl | rfl
      · decide
      · exact isWritten_hexDigit _ (by omega)
      · exact isWritten_hexDigit _ (by omega)

theorem isWritten_of_mem_encode {s : String} {d : Char} (h : d ∈ encode s) :
    isWritten d = true := by
  obtain ⟨c, -, hd⟩ := List.mem_flatMap.1 h
  exact isWritten_of_mem_encodeChar hd

theorem not_mem_encode {d : Char} (h : isWritten d = false) (s : String) : d ∉ encode s :=
  fun hd => Bool.false_ne_true (h.symm.trans (isWritten_of_mem_encode hd))

/-- A pair without the ampersand. -/
def body (p : String × String) : List Char := encode p.1 ++ '=' :: encode p.2

theorem ampersand_not_mem_body (p : String × String) : '&' ∉ body p := by
  have hencode := not_mem_encode (d := '&') (by decide)
  simp [body, hencode]

theorem splitOn_flatMap_pair (ps : List (String × String)) :
    splitOn '&' (ps.flatMap pair) = [] :: ps.map body := by
  induction ps with
  | nil => rfl
  | cons p ps ih =>
    have hrest := splitOn_append_of_not_mem (ampersand_not_mem_body p) ih
    have hfirst : (p :: ps).flatMap pair = '&' :: (body p ++ ps.flatMap pair) := rfl
    rw [hfirst, splitOn, if_pos rfl, hrest, List.append_nil]
    rfl

theorem takeWhile_body (p : String × String) : (body p).takeWhile (· ≠ '=') = encode p.1 :=
  takeWhile_append_cons_of_not_mem (not_mem_encode (by decide) p.1) _

theorem dropWhile_body (p : String × String) :
    (body p).dropWhile (· ≠ '=') = '=' :: encode p.2 :=
  dropWhile_append_cons_of_not_mem (not_mem_encode (by decide) p.1) _

/-- Pairs are read as they were written. -/
theorem pairs_flatMap_pair (ps : List (String × String)) : pairs (ps.flatMap pair) = ps := by
  have hbodies : (ps.map body).filter (!·.isEmpty) = ps.map body := by
    refine List.filter_eq_self.2 fun part hpart => ?_
    obtain ⟨p, -, rfl⟩ := List.mem_map.1 hpart
    simp [body]
  rw [pairs, splitOn_flatMap_pair, List.filter_cons_of_neg (by decide), hbodies, List.map_map]
  refine List.map_id'' (fun p => ?_) ps
  simp only [Function.comp_def, takeWhile_body, dropWhile_body, List.drop_one, List.tail_cons,
    decode_encode]

end Pairs

end Form

end TopicSync.Text
