import Mathlib.Data.List.TakeDrop
import TopicSync.Proofs.Text.Form
import TopicSync.Proofs.Text.Strip
import TopicSync.Proofs.TextMap
import TopicSync.Selector

/-!
Selectors and their texts. A text is read part by part, and fails on the parts that are not blank
and have no key. What is read is the same in whatever order its entries are written, with any white
space around them and with blank parts in between; the text that a selector is written as is one of
those.
-/
namespace TopicSync

namespace Selector

variable {part s : String} {parts : List String} {e : String × String}
  {es : List (String × String)} {p : Selector} {key value : List Char}

/-- Nothing but white space. -/
def IsBlank (s : String) : Prop := ∀ c ∈ s.toList, Text.isBlank c = true

instance (s : String) : Decidable (IsBlank s) :=
  decidable_of_iff (s.toList.all Text.isBlank = true) List.all_eq_true

theorem trim_eq_empty_iff : Text.trim s = "" ↔ IsBlank s := by
  rw [Text.trim, String.ofList_eq_empty_iff, Text.strip_eq_nil_iff, IsBlank]

/-- The key of an entry is what precedes the first equals sign, the value what follows it; both lose
the white space around them. -/
structure Reads (part : String) (e : String × String) : Prop where
  cut : ∃ key value, part.toList = key ++ '=' :: value ∧ '=' ∉ key ∧
    e.1 = Text.trim (String.ofList key) ∧ e.2 = Text.trim (String.ofList value)
  key_ne : e.1 ≠ ""

section Entries

theorem parseEntry_trim (hpart : part.toList = key ++ '=' :: value) (hkey : '=' ∉ key) :
    parseEntry (Text.trim part) =
      if Text.trim (String.ofList key) = "" then
        .error (.invalidConfig s!"label selector entry '{Text.trim part}' has an empty key")
      else .ok (Text.trim (String.ofList key), Text.trim (String.ofList value)) := by
  have htrim : (Text.trim part).toList =
      key.dropWhile Text.isBlank ++ '=' :: Text.stripEnd Text.isBlank value := by
    rw [Text.toList_trim, hpart, Text.strip_append_cons (by decide)]
  have hfree : '=' ∉ key.dropWhile Text.isBlank := fun h =>
    hkey ((List.dropWhile_suffix _).mem h)
  have hkeyTrim : Text.trim (String.ofList (key.dropWhile Text.isBlank)) =
      Text.trim (String.ofList key) := by
    rw [Text.trim_ofList, Text.strip_dropWhile, Text.trim_ofList]
  have hvalueTrim : Text.trim (String.ofList (Text.stripEnd Text.isBlank value)) =
      Text.trim (String.ofList value) := by
    rw [Text.trim_ofList, Text.strip_stripEnd, Text.trim_ofList]
  rw [parseEntry, htrim, List.span_eq_takeWhile_dropWhile,
    Text.takeWhile_append_cons_of_not_mem hfree, Text.dropWhile_append_cons_of_not_mem hfree]
  simp only [hkeyTrim, hvalueTrim, String.isEmpty_iff]

theorem parseEntry_of_not_mem (h : '=' ∉ part.toList) :
    ∃ f, parseEntry (Text.trim part) = .error f := by
  have hfree : '=' ∉ (Text.trim part).toList := fun hm => by
    rw [Text.toList_trim] at hm
    exact h ((Text.strip_sublist _ _).mem hm)
  rw [parseEntry, List.span_eq_takeWhile_dropWhile, Text.dropWhile_of_not_mem hfree]
  exact ⟨_, rfl⟩

/-- A part with an equals sign has one that is the first. -/
theorem exists_cut (h : '=' ∈ part.toList) :
    ∃ key value, part.toList = key ++ '=' :: value ∧ '=' ∉ key :=
  List.eq_append_cons_of_mem h

theorem parseEntry_eq_ok_iff : parseEntry (Text.trim part) = .ok e ↔ Reads part e := by
  constructor
  · intro h
    by_cases hmem : '=' ∈ part.toList
    · obtain ⟨key, value, hpart, hkey⟩ := exists_cut hmem
      rw [parseEntry_trim hpart hkey] at h
      split at h
      next => cases h
      next hne =>
        cases h
        exact ⟨⟨key, value, hpart, hkey, rfl, rfl⟩, hne⟩
    · obtain ⟨f, hf⟩ := parseEntry_of_not_mem hmem
      cases hf.symm.trans h
  · rintro ⟨⟨key, value, hpart, hkey, hfst, hsnd⟩, hne⟩
    rw [parseEntry_trim hpart hkey, ← hfst, ← hsnd, if_neg hne]

/-- There is no equals sign, or nothing but white space before the first one. -/
def Keyless (part : String) : Prop :=
  '=' ∉ part.toList ∨ ∀ c ∈ part.toList.takeWhile (· ≠ '='), Text.isBlank c = true

theorem keyless_iff : Keyless part ↔ ∀ e, ¬ Reads part e := by
  by_cases hmem : '=' ∈ part.toList
  · obtain ⟨key, value, hpart, hkey⟩ := exists_cut hmem
    have hbefore : part.toList.takeWhile (· ≠ '=') = key := by
      rw [hpart, Text.takeWhile_append_cons_of_not_mem hkey]
    have hblank : (∀ c ∈ key, Text.isBlank c = true) ↔ Text.trim (String.ofList key) = "" := by
      rw [trim_eq_empty_iff, IsBlank, String.toList_ofList]
    rw [Keyless, hbefore, hblank]
    constructor
    · rintro (hnot | hempty) e he
      · exact hnot hmem
      · rw [← parseEntry_eq_ok_iff, parseEntry_trim hpart hkey, if_pos hempty] at he
        cases he
    · intro hnone
      refine .inr (by_contra fun hne => ?_)
      exact hnone (Text.trim (String.ofList key), Text.trim (String.ofList value))
        ⟨⟨key, value, hpart, hkey, rfl, rfl⟩, hne⟩
  · refine iff_of_true (.inl hmem) fun e he => ?_
    obtain ⟨⟨key, value, hpart, -⟩, -⟩ := he
    exact hmem (by simp [hpart])

theorem Reads.not_isBlank (h : Reads part e) : ¬ IsBlank part := by
  obtain ⟨⟨key, value, hpart, -⟩, -⟩ := h
  intro hblank
  exact absurd (hblank '=' (by simp [hpart])) (by decide)

end Entries

/-- The parts that are not blank stand for the entries, one each and in their order. -/
inductive Made (stands : String → String × String → Prop) :
    List String → List (String × String) → Prop where
  | nil : Made stands [] []
  | blank {part : String} {parts : List String} {es : List (String × String)}
      (h : IsBlank part) (rest : Made stands parts es) : Made stands (part :: parts) es
  | entry {part : String} {e : String × String} {parts : List String}
      {es : List (String × String)} (h : stands part e) (rest : Made stands parts es) :
      Made stands (part :: parts) (e :: es)

section Texts

variable {stands : String → String × String → Prop}

theorem Made.of_mem (h : Made stands parts es) (he : e ∈ es) : ∃ part ∈ parts, stands part e := by
  induction h with
  | nil => cases he
  | blank _ _ ih =>
    obtain ⟨part, hpart, hstands⟩ := ih he
    exact ⟨part, .tail _ hpart, hstands⟩
  | entry h _ ih =>
    rcases List.mem_cons.1 he with rfl | he
    · exact ⟨_, .head _, h⟩
    · obtain ⟨part, hpart, hstands⟩ := ih he
      exact ⟨part, .tail _ hpart, hstands⟩

theorem exists_made_iff : (∃ es, Made stands parts es) ↔
    ∀ part ∈ parts, IsBlank part ∨ ∃ e, stands part e := by
  induction parts with
  | nil => exact iff_of_true ⟨[], .nil⟩ (by rintro part ⟨⟩)
  | cons part parts ih =>
    rw [List.forall_mem_cons, ← ih]
    constructor
    · rintro ⟨es, hes⟩
      cases hes with
      | blank h rest => exact ⟨.inl h, _, rest⟩
      | entry h rest => exact ⟨.inr ⟨_, h⟩, _, rest⟩
    · rintro ⟨hblank | ⟨e, he⟩, es, hes⟩
      · exact ⟨es, .blank hblank hes⟩
      · exact ⟨e :: es, .entry he hes⟩

theorem mapM_parseEntry_eq_ok_iff :
    ((parts.map Text.trim).filter fun part => !part.isEmpty).mapM parseEntry = .ok es ↔
      Made Reads parts es := by
  induction parts generalizing es with
  | nil =>
    constructor
    · intro h
      cases h
      exact .nil
    · rintro ⟨⟩
      rfl
  | cons part parts ih =>
    by_cases hblank : IsBlank part
    · have hempty : (Text.trim part).isEmpty = true :=
        String.isEmpty_iff.2 (trim_eq_empty_iff.2 hblank)
      rw [List.map_cons, List.filter_cons_of_neg (by simp [hempty]), ih]
      constructor
      · exact .blank hblank
      · rintro (_ | ⟨-, rest⟩ | ⟨h, -⟩)
        · exact rest
        · exact absurd hblank h.not_isBlank
    · have hempty : (Text.trim part).isEmpty = false := by
        simpa [String.isEmpty_iff] using mt trim_eq_empty_iff.1 hblank
      rw [List.map_cons, List.filter_cons_of_pos (by simp [hempty]), List.mapM_cons]
      constructor
      · intro h
        cases hhead : parseEntry (Text.trim part) with
        | error f =>
          rw [hhead] at h
          cases h
        | ok e =>
          rw [hhead] at h
          cases hrest :
              ((parts.map Text.trim).filter fun part => !part.isEmpty).mapM parseEntry with
          | error f =>
            rw [hrest] at h
            cases h
          | ok rest =>
            rw [hrest] at h
            cases h
            exact .entry (parseEntry_eq_ok_iff.1 hhead) (ih.1 hrest)
      · rintro (_ | ⟨h, -⟩ | ⟨h, rest⟩)
        · exact absurd h hblank
        · rw [parseEntry_eq_ok_iff.2 h, ih.2 rest]
          rfl

theorem parse_eq_ok_iff : parse s = .ok p ↔
    ∃ es, Made Reads (Text.split ',' s) es ∧ p = ⟨TextMap.ofList es⟩ := by
  rw [parse, entriesOf]
  constructor
  · intro h
    split at h
    next es hes =>
      cases h
      exact ⟨es, mapM_parseEntry_eq_ok_iff.1 hes, rfl⟩
    next => cases h
  · rintro ⟨es, hes, rfl⟩
    rw [mapM_parseEntry_eq_ok_iff.2 hes]

/-- Just the parts that are not blank and have no key make a text fail. -/
theorem parse_eq_error_iff : (∃ f, parse s = .error f) ↔
    ∃ part ∈ Text.split ',' s, ¬ IsBlank part ∧ Keyless part := by
  have hok : (∃ p, parse s = .ok p) ↔
      ∀ part ∈ Text.split ',' s, IsBlank part ∨ ∃ e, Reads part e := by
    rw [← exists_made_iff]
    constructor
    · rintro ⟨p, hp⟩
      obtain ⟨es, hes, -⟩ := parse_eq_ok_iff.1 hp
      exact ⟨es, hes⟩
    · rintro ⟨es, hes⟩
      exact ⟨_, parse_eq_ok_iff.2 ⟨es, hes, rfl⟩⟩
  have hfail : (∃ f, parse s = .error f) ↔ ¬ ∃ p, parse s = .ok p := by
    cases parse s <;> simp
  rw [hfail, hok]
  simp only [keyless_iff, not_forall, not_or, not_exists, exists_prop]

end Texts

/-- An entry as it is read: neither key nor value begins or ends with white space or holds a comma,
and the key is there and has no equals sign. -/
structure IsEntry (e : String × String) : Prop where
  key_ne : e.1 ≠ ""
  key_trim : Text.trim e.1 = e.1
  value_trim : Text.trim e.2 = e.2
  equals : '=' ∉ e.1.toList
  commas : ',' ∉ e.1.toList ∧ ',' ∉ e.2.toList

section Canonical

theorem Reads.isEntry (h : Reads part e) (hpart : ',' ∉ part.toList) : IsEntry e := by
  obtain ⟨⟨key, value, hcut, hkey, hfst, hsnd⟩, hne⟩ := h
  have hmem : ∀ (c : Char) (cs : List Char), c ∉ cs →
      c ∉ (Text.trim (String.ofList cs)).toList := by
    intro c cs hc hm
    rw [Text.toList_trim, String.toList_ofList] at hm
    exact hc ((Text.strip_sublist _ _).mem hm)
  rw [hcut, List.mem_append, List.mem_cons, not_or, not_or] at hpart
  exact
    { key_ne := hne
      key_trim := by rw [hfst, Text.trim_trim]
      value_trim := by rw [hsnd, Text.trim_trim]
      equals := hfst ▸ hmem '=' key hkey
      commas := ⟨hfst ▸ hmem ',' key hpart.1, hsnd ▸ hmem ',' value hpart.2.2⟩ }

theorem isEntry_of_parse (h : parse s = .ok p) : ∀ e ∈ p.labels.toList, IsEntry e := by
  intro e he
  obtain ⟨es, hes, rfl⟩ := parse_eq_ok_iff.1 h
  have hmem : e ∈ es := TextMap.mem_of_get?_ofList (TextMap.get?_eq_some_iff.2 he)
  obtain ⟨part, hpart, hreads⟩ := hes.of_mem hmem
  obtain ⟨cs, hcs, rfl⟩ := List.mem_map.1 hpart
  exact hreads.isEntry (by rw [String.toList_ofList]; exact Text.not_mem_of_mem_splitOn hcs)

/-- The text of an entry with any white space around it, around its key and around its value. -/
def Spells (part : String) (e : String × String) : Prop :=
  ∃ a b c d : String, IsBlank a ∧ IsBlank b ∧ IsBlank c ∧ IsBlank d ∧
    part = a ++ e.1 ++ b ++ "=" ++ (c ++ e.2 ++ d)

theorem not_mem_of_isBlank (h : IsBlank s) {c : Char} (hc : Text.isBlank c = false) :
    c ∉ s.toList := by
  intro hm
  rw [h c hm] at hc
  cases hc

theorem trim_of_isBlank {a b : String} (ha : IsBlank a) (hb : IsBlank b) (s : String) :
    Text.trim (String.ofList (a.toList ++ s.toList ++ b.toList)) = Text.trim s := by
  rw [Text.trim_ofList, Text.strip_append_of_forall ha hb, Text.trim]

theorem Spells.reads (h : Spells part e) (he : IsEntry e) : Reads part e := by
  obtain ⟨a, b, c, d, ha, hb, hc, hd, rfl⟩ := h
  refine ⟨⟨a.toList ++ e.1.toList ++ b.toList, c.toList ++ e.2.toList ++ d.toList, ?_, ?_, ?_, ?_⟩,
    he.key_ne⟩
  · simp [String.toList_append]
  · simp only [List.mem_append, not_or]
    exact ⟨⟨not_mem_of_isBlank ha (by decide), he.equals⟩, not_mem_of_isBlank hb (by decide)⟩
  · rw [trim_of_isBlank ha hb, he.key_trim]
  · rw [trim_of_isBlank hc hd, he.value_trim]

theorem Spells.comma_not_mem (h : Spells part e) (he : IsEntry e) : ',' ∉ part.toList := by
  obtain ⟨a, b, c, d, ha, hb, hc, hd, rfl⟩ := h
  have hfree : ∀ {w : String}, IsBlank w → ',' ∉ w.toList := fun hw =>
    not_mem_of_isBlank hw (by decide)
  have hequals : ',' ∉ "=".toList := by decide
  simp only [String.toList_append, List.mem_append, not_or]
  exact ⟨⟨⟨⟨hfree ha, he.commas.1⟩, hfree hb⟩, hequals⟩, ⟨hfree hc, he.commas.2⟩, hfree hd⟩

theorem Made.reads (h : Made Spells parts es) (hes : ∀ e ∈ es, IsEntry e) :
    Made Reads parts es := by
  induction h with
  | nil => exact .nil
  | blank h _ ih => exact .blank h (ih hes)
  | entry h _ ih =>
    obtain ⟨he, hrest⟩ := List.forall_mem_cons.1 hes
    exact .entry (h.reads he) (ih hrest)

theorem Made.comma_not_mem (h : Made Spells parts es) (hes : ∀ e ∈ es, IsEntry e) :
    ∀ part ∈ parts, ',' ∉ part.toList := by
  induction h with
  | nil => rintro part ⟨⟩
  | blank h _ ih =>
    exact List.forall_mem_cons.2 ⟨not_mem_of_isBlank h (by decide), ih hes⟩
  | entry h _ ih =>
    obtain ⟨he, hrest⟩ := List.forall_mem_cons.1 hes
    exact List.forall_mem_cons.2 ⟨h.comma_not_mem he, ih hrest⟩

theorem split_intercalate (hne : parts ≠ []) (h : ∀ part ∈ parts, ',' ∉ part.toList) :
    Text.split ',' (",".intercalate parts) = parts := by
  induction parts with
  | nil => exact absurd rfl hne
  | cons part parts ih =>
    obtain ⟨hpart, hrest⟩ := List.forall_mem_cons.1 h
    cases parts with
    | nil => simp [Text.split, Text.splitOn_of_not_mem hpart]
    | cons next parts =>
      have hlist : (",".intercalate (part :: next :: parts)).toList =
          part.toList ++ ',' :: (",".intercalate (next :: parts)).toList := by
        simp [String.intercalate_cons_cons, String.toList_append]
      have hsplit := ih (List.cons_ne_nil _ _) hrest
      rw [Text.split] at hsplit ⊢
      rw [hlist, Text.splitOn_append, Text.splitOn_of_not_mem hpart, List.map_append, hsplit]
      simp

theorem parse_of_made (h : Made Spells parts es) (hes : ∀ e ∈ es, IsEntry e) :
    parse (",".intercalate parts) = .ok ⟨TextMap.ofList es⟩ := by
  refine parse_eq_ok_iff.2 ⟨es, ?_, rfl⟩
  by_cases hnil : parts = []
  · subst hnil
    cases h
    exact .blank (by rintro c hc; simp at hc) .nil
  · rw [split_intercalate hnil (h.comma_not_mem hes)]
    exact h.reads hes

theorem made_text (es : List (String × String)) :
    Made Spells (es.map fun e => s!"{e.1}={e.2}") es := by
  have hempty : IsBlank "" := by rintro c ⟨⟩
  induction es with
  | nil => exact .nil
  | cons e es ih =>
    refine .entry ⟨"", "", "", "", hempty, hempty, hempty, hempty, ?_⟩ ih
    simp [toString]

/-- A selector that has been read is read from any text made of its entries, in whatever order, with
white space around them, their keys and their values, and with blank parts in between; so it is read
from its own text. A text fails just if some part of it is neither blank nor has a key. -/
theorem parse_canonical (s : String) :
    (∀ p, parse s = .ok p → parse p.text = .ok p ∧
      ∀ es parts, es.Perm p.labels.toList → Made Spells parts es →
        parse (",".intercalate parts) = .ok p) ∧
    ((∃ f, parse s = .error f) ↔
      ∃ part ∈ Text.split ',' s, ¬ IsBlank part ∧ Keyless part) := by
  refine ⟨fun p hp => ?_, parse_eq_error_iff⟩
  have hentries := isEntry_of_parse hp
  have hmade : ∀ es parts, es.Perm p.labels.toList → Made Spells parts es →
      parse (",".intercalate parts) = .ok p := by
    intro es parts hperm hmade
    rw [parse_of_made hmade fun e he => hentries e (hperm.mem_iff.1 he),
      TextMap.ofList_of_perm hperm]
  exact ⟨hmade _ _ (.refl _) (made_text _), hmade⟩

theorem parse_canonical_twoLabels :
    let p : Selector := ⟨.ofList [("app", "a=b"), ("team", "payments")]⟩
    parse " team = payments,,app=x, app=a=b\t" = .ok p ∧ parse p.text = .ok p ∧
      parse "team\n=payments , ,\u3000app= a=b" = .ok p := by
  have hparse : parse " team = payments,,app=x, app=a=b\t" =
      .ok ⟨.ofList [("app", "a=b"), ("team", "payments")]⟩ := by
    decide +kernel
  have hmade : Made Spells ["team\n=payments ", " ", "\u3000app= a=b"]
      [("team", "payments"), ("app", "a=b")] :=
    .entry ⟨"", "\n", "", " ", by decide, by decide, by decide, by decide, by decide⟩ <|
      .blank (by decide) <|
      .entry ⟨"\u3000", "", " ", "", by decide, by decide, by decide, by decide, by decide⟩ .nil
  exact ⟨hparse, ((parse_canonical _).1 _ hparse).1,
    ((parse_canonical _).1 _ hparse).2 _ _ (.swap _ _ _) hmade⟩

end Canonical

end Selector

end TopicSync
