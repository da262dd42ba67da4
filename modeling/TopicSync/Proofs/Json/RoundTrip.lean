import TopicSync.Json.Parser
import TopicSync.Json.Printer

/-!
What is written compactly is read back as it was, whatever characters its texts have. The numbers
have to be integers of 64 bits, and arrays and objects nested no deeper than a reader allows.
-/
namespace TopicSync.Json

section Strings

theorem hexValue?_hexDigit : ∀ d < 16, hexValue? (Sha256.hexDigit d) = some d := by decide

theorem pieces_unitEscape {n : Nat} (h : n < 65536) (rest : List Symbol) :
    pieces ((unitEscape n).map some ++ rest) =
      (pieces rest).map fun r => (.unit n :: r.1, r.2) := by
  have hdigits : Sha256.hexDigits 4 n = [Sha256.hexDigit (n / 16 / 16 / 16 % 16),
      Sha256.hexDigit (n / 16 / 16 % 16), Sha256.hexDigit (n / 16 % 16),
      Sha256.hexDigit (n % 16)] := rfl
  have hvalue : ∀ m, hexValue? (Sha256.hexDigit (m % 16)) = some (m % 16) := fun m =>
    hexValue?_hexDigit _ (Nat.mod_lt _ (by decide))
  have hunit : hexUnit? (Sha256.hexDigit (n / 16 / 16 / 16 % 16))
      (Sha256.hexDigit (n / 16 / 16 % 16)) (Sha256.hexDigit (n / 16 % 16))
      (Sha256.hexDigit (n % 16)) = some n := by
    simp only [hexUnit?, hvalue, Option.bind_eq_bind, Option.bind_some, Option.pure_def,
      Option.some.injEq]
    omega
  simp only [unitEscape, hdigits, List.map_cons, List.map_nil, List.cons_append, List.nil_append]
  rw [pieces, hunit]

theorem assemble_char (c : Char) (ps : List Piece) :
    assemble (.char c :: ps) = (assemble ps).map (c :: ·) := by
  rw [assemble]

/-- A unit that belongs to no pair is a character by itself. -/
theorem assemble_unit {n : Nat} (hhigh : isHighUnit n = false) (hlow : isLowUnit n = false)
    (ps : List Piece) : assemble (.unit n :: ps) = (assemble ps).map (Char.ofNat n :: ·) := by
  rcases ps with _ | ⟨_ | _ | _, ps⟩ <;> simp [assemble, hhigh, hlow]

/-- Each character is written as one piece of a literal, which stands for it. -/
theorem pieces_charText (c : Char) : ∃ p, (∀ rest, pieces ((charText false c).map some ++ rest) =
      (pieces rest).map fun r => (p :: r.1, r.2)) ∧
    ∀ ps, assemble (p :: ps) = (assemble ps).map (c :: ·) := by
  by_cases hescaped : c ∈ ['"', '\\', '\n', '\r', '\t', Char.ofNat 8, Char.ofNat 12]
  · refine ⟨.char c, fun rest => ?_, assemble_char c⟩
    simp only [List.mem_cons, List.not_mem_nil, or_false] at hescaped
    rcases hescaped with rfl | rfl | rfl | rfl | rfl | rfl | rfl <;>
      simp [charText, pieces, escaped?]
  · have hplain : ∀ d ∈ ['"', '\\', '\n', '\r', '\t', Char.ofNat 8, Char.ofNat 12], c ≠ d :=
      fun d hd h => hescaped (h ▸ hd)
    simp only [List.forall_mem_cons] at hplain
    obtain ⟨hquote, hslash, hline, hreturn, htab, hback, hform, -⟩ := hplain
    have h8 : c.toNat ≠ 8 := fun h => hback (by rw [← h, Char.ofNat_toNat])
    have h12 : c.toNat ≠ 12 := fun h => hform (by rw [← h, Char.ofNat_toNat])
    have htext : charText false c = if c.toNat < 0x20 then unitEscape c.toNat else [c] := by
      simp [charText, hquote, hslash, hline, hreturn, htab, h8, h12]
    rw [htext]
    by_cases hcontrol : c.toNat < 0x20
    · refine ⟨.unit c.toNat, fun rest => ?_, fun ps => ?_⟩
      · rw [if_pos hcontrol, pieces_unitEscape (by omega)]
      · rw [assemble_unit, Char.ofNat_toNat] <;> simp [isHighUnit, isLowUnit] <;> omega
    · refine ⟨.char c, fun rest => ?_, assemble_char c⟩
      rw [if_neg hcontrol]
      simp [pieces, hslash, hcontrol]

theorem pieces_charTexts (cs : List Char) (rest : List Symbol) :
    ∃ ps, pieces ((cs.flatMap (charText false) ++ ['"']).map some ++ rest) =
      some (ps, some rest) ∧ assemble ps = some cs := by
  induction cs with
  | nil => exact ⟨[], by simp [pieces], by rw [assemble]⟩
  | cons c cs ih =>
    obtain ⟨ps, hpieces, htext⟩ := ih
    obtain ⟨p, hp, hassemble⟩ := pieces_charText c
    refine ⟨p :: ps, ?_, ?_⟩
    · rw [List.flatMap_cons, List.append_assoc, List.map_append, List.append_assoc, hp, hpieces]
      rfl
    · rw [hassemble, htext]
      rfl

/-- A string literal is read as the text that it was written for. -/
theorem literal_stringText (s : String) (rest : List Symbol) :
    literal ((s.toList.flatMap (charText false) ++ ['"']).map some ++ rest) =
      some (some s, rest) := by
  obtain ⟨ps, hpieces, htext⟩ := pieces_charTexts s.toList rest
  rw [literal, hpieces]
  simp [htext]

end Strings

section Numbers

/-- What follows a number does not go on with it. -/
def EndsNumber (rest : List Symbol) : Prop :=
  ∀ c cs, rest = some c :: cs → c.isDigit = false ∧ c ≠ '.' ∧ c ≠ 'e' ∧ c ≠ 'E'

theorem endsNumber_nil : EndsNumber [] := by
  rintro c cs ⟨⟩

theorem spanDigits_append {ds : List Char} (hds : ∀ c ∈ ds, c.isDigit = true) {rest : List Symbol}
    (hrest : EndsNumber rest) : spanDigits (ds.map some ++ rest) = (ds, rest) := by
  induction ds with
  | nil =>
    rcases rest with _ | ⟨_ | c, cs⟩
    · rfl
    · rfl
    · simp [spanDigits, (hrest c cs rfl).1]
  | cons d ds ih =>
    have ih := ih fun c hc => hds c (.tail _ hc)
    simp [spanDigits, hds d (.head _), ih]

theorem isDigit_of_mem_natText {n : Nat} {c : Char} (h : c ∈ natText n) : c.isDigit = true :=
  Nat.isDigit_of_mem_toDigits (by decide) (by decide) h

theorem digitChar_ne_zero : ∀ n < 10, n ≠ 0 → n.digitChar ≠ '0' := by decide

/-- Only zero begins with a zero. -/
theorem head?_natText {n : Nat} (h : n ≠ 0) : (natText n).head? ≠ some '0' := by
  induction n using Nat.strongRecOn with
  | ind n ih =>
    by_cases hn : n < 10
    · rw [natText, Nat.toDigits_of_lt_base hn]
      simpa using digitChar_ne_zero n hn h
    · have htext : natText n = natText (n / 10) ++ [(n % 10).digitChar] :=
        Nat.toDigits_of_base_le (by decide) (by omega)
      have ih := ih (n / 10) (by omega) (by omega)
      rw [htext, List.head?_append]
      cases hhead : natText (n / 10) with
      | nil => exact absurd hhead Nat.toDigits_ne_nil
      | cons c cs =>
        rw [hhead] at ih
        exact ih

theorem wholeDigits?_natText (n : Nat) {rest : List Symbol} (hrest : EndsNumber rest) :
    wholeDigits? ((natText n).map some ++ rest) = some (natText n, rest) := by
  rw [wholeDigits?, spanDigits_append (fun _ => isDigit_of_mem_natText) hrest]
  match htext : natText n with
  | [] => exact absurd htext Nat.toDigits_ne_nil
  | [c] => rfl
  | c :: d :: ds =>
    have hn : n ≠ 0 := by
      rintro rfl
      cases htext
    have hc : c ≠ '0' := by simpa [htext] using head?_natText hn
    simp [hc]

theorem le_ofDigitChars (cs : List Char) (n : Nat) : n ≤ Nat.ofDigitChars 10 cs n := by
  induction cs generalizing n with
  | nil => exact Nat.le_refl _
  | cons c cs ih =>
    rw [Nat.ofDigitChars_cons]
    exact Nat.le_trans (by omega) (ih _)

theorem appendDigits_eq {cs : List Char} {n : Nat} (h : Nat.ofDigitChars 10 cs n ≤ maxInteger) :
    appendDigits n cs = (Nat.ofDigitChars 10 cs n, []) := by
  induction cs generalizing n with
  | nil => rfl
  | cons c cs ih =>
    have hnext : n * 10 + (c.toNat - 48) = 10 * n + (c.toNat - '0'.toNat) := by
      rw [Nat.mul_comm]
      rfl
    rw [Nat.ofDigitChars_cons] at h ⊢
    rw [appendDigits, hnext, if_pos (Nat.le_trans (le_ofDigitChars _ _) h), ih h]

theorem appendDigits_natText {n : Nat} (h : n ≤ maxInteger) :
    appendDigits 0 (natText n) = (n, []) := by
  have hvalue : Nat.ofDigitChars 10 (natText n) 0 = n :=
    Nat.ofDigitChars_toDigits (by decide) (by decide)
  rw [appendDigits_eq (by rw [hvalue]; exact h), hvalue]

theorem number?_natText {negative : Bool} {n : Nat} (h : n ≤ maxInteger)
    (hnegative : negative = true → 0 < n ∧ n ≤ maxNegated) {rest : List Symbol}
    (hrest : EndsNumber rest) :
    number? negative ((natText n).map some ++ rest) =
      some (.integer (if negative then -n else n), rest) := by
  have hfraction : fraction? rest = some ([], rest) := by
    rcases rest with _ | ⟨_ | c, cs⟩
    · rfl
    · rfl
    · simp [fraction?, (hrest c cs rfl).2.1]
  have hexponent : exponent? rest = some (none, rest) := by
    rcases rest with _ | ⟨_ | c, cs⟩
    · rfl
    · rfl
    · simp [exponent?, (hrest c cs rfl).2.2]
  have hnumber : ofDigits negative (natText n) [] none = .integer (if negative then -n else n) := by
    simp only [ofDigits, appendDigits_natText h]
    exact if_pos ⟨rfl, rfl, rfl, hnegative⟩
  simp [number?, wholeDigits?_natText n hrest, hfraction, hexponent, hnumber]

end Numbers

/-- Whether a document is read back as it is written: it has no numbers but integers that fit, and
its arrays and objects are nested no deeper than given. -/
inductive Plain : Nat → Json → Prop where
  | null {depth : Nat} : Plain depth .null
  | bool {depth : Nat} (b : Bool) : Plain depth (.bool b)
  | integer {depth : Nat} {n : Int} (lower : -maxNegated ≤ n) (upper : n ≤ maxInteger) :
      Plain depth (.integer n)
  | string {depth : Nat} (s : String) : Plain depth (.string s)
  | array {depth : Nat} {items : List Json} (h : ∀ j ∈ items, Plain depth j) :
      Plain (depth + 1) (.array items)
  | object {depth : Nat} {members : List (String × Json)} (h : ∀ m ∈ members, Plain depth m.2) :
      Plain (depth + 1) (.object members)

theorem plain_ofMap {depth : Nat} (m : TextMap String) : Plain (depth + 1) (ofMap m) := by
  refine .object fun e he => ?_
  obtain ⟨entry, -, rfl⟩ := List.mem_map.1 he
  exact .string entry.2

section Values

-- The texts of the values that are read back, each true by computation: unfolding `text` itself
-- would bring in how doubles are written.
theorem text_null : text false .null = "null".toList := rfl
theorem text_true : text false (.bool true) = "true".toList := rfl
theorem text_false : text false (.bool false) = "false".toList := rfl
theorem text_integer (n : Int) : text false (.integer n) = intText n := rfl
theorem text_string (s : String) : text false (.string s) = stringText false s := rfl
theorem text_array (items : List Json) :
    text false (.array items) = '[' :: itemsText false items ++ [']'] := rfl
theorem text_object (members : List (String × Json)) :
    text false (.object members) = '{' :: membersText false members ++ ['}'] := rfl
theorem itemsText_single (j : Json) : itemsText false [j] = text false j := rfl
theorem itemsText_cons (i j : Json) (js : List Json) :
    itemsText false (i :: j :: js) = text false i ++ ',' :: itemsText false (j :: js) := rfl
theorem membersText_single (m : String × Json) :
    membersText false [m] = stringText false m.1 ++ ':' :: text false m.2 := rfl
theorem membersText_cons (l m : String × Json) (ms : List (String × Json)) :
    membersText false (l :: m :: ms) =
      stringText false l.1 ++ ':' :: text false l.2 ++ ',' :: membersText false (m :: ms) := rfl

theorem endsNumber_cons {c : Char}
    (h : c.isDigit = false ∧ c ≠ '.' ∧ c ≠ 'e' ∧ c ≠ 'E') (cs : List Symbol) :
    EndsNumber (some c :: cs) := by
  rintro d ds ⟨⟩
  exact h

theorem skipSpace_cons {c : Char} (h : isSpace c = false) (cs : List Symbol) :
    skipSpace (some c :: cs) = some c :: cs := by
  simp [skipSpace, h]

theorem ne_of_isDigit {c d : Char} (hc : c.isDigit = true) (hd : d.isDigit = false) : c ≠ d := by
  rintro rfl
  exact absurd hc (by simp [hd])

theorem isSpace_of_isDigit {c : Char} (h : c.isDigit = true) : isSpace c = false := by
  have hspace := ne_of_isDigit h (d := ' ') (by decide)
  have htab := ne_of_isDigit h (d := '\t') (by decide)
  have hline := ne_of_isDigit h (d := '\n') (by decide)
  have hreturn := ne_of_isDigit h (d := '\r') (by decide)
  simp [isSpace, hspace, htab, hline, hreturn]

theorem value?_of_isDigit {c : Char} (h : c.isDigit = true) (n depth : Nat) (cs : List Symbol) :
    value? (n + 1) depth (some c :: cs) = number? false (some c :: cs) := by
  have hquote := ne_of_isDigit h (d := '"') (by decide)
  have hbracket := ne_of_isDigit h (d := '[') (by decide)
  have hbrace := ne_of_isDigit h (d := '{') (by decide)
  have hminus := ne_of_isDigit h (d := '-') (by decide)
  have ht := ne_of_isDigit h (d := 't') (by decide)
  have hf := ne_of_isDigit h (d := 'f') (by decide)
  have hn := ne_of_isDigit h (d := 'n') (by decide)
  rw [value?, skipSpace_cons (isSpace_of_isDigit h)]
  simp [hquote, hbracket, hbrace, hminus, ht, hf, hn]

/-- The first character of a value is no blank, and does not close an array. -/
theorem text_head {depth : Nat} {j : Json} (h : Plain depth j) :
    ∃ c cs, text false j = c :: cs ∧ isSpace c = false ∧ c ≠ ']' := by
  cases h with
  | null => exact ⟨'n', "ull".toList, rfl, by decide, by decide⟩
  | bool b =>
    cases b
    · exact ⟨'f', "alse".toList, rfl, by decide, by decide⟩
    · exact ⟨'t', "rue".toList, rfl, by decide, by decide⟩
  | @integer _ m =>
    cases m with
    | negSucc k => exact ⟨'-', natText (k + 1), rfl, by decide, by decide⟩
    | ofNat k =>
      cases htext : natText k with
      | nil => exact absurd htext Nat.toDigits_ne_nil
      | cons c cs =>
        have hdigit : c.isDigit = true := isDigit_of_mem_natText (n := k) (by simp [htext])
        exact ⟨c, cs, htext, isSpace_of_isDigit hdigit, ne_of_isDigit hdigit (by decide)⟩
  | string s => exact ⟨'"', _, text_string s, by decide, by decide⟩
  | @array _ items => exact ⟨'[', _, text_array items, by decide, by decide⟩
  | @object _ members => exact ⟨'{', _, text_object members, by decide, by decide⟩

/-- A value is read back, whatever comes after it that does not go on with a number. -/
def ReadBack (depth : Nat) (j : Json) : Prop :=
  ∀ n rest, (text false j).length ≤ n → EndsNumber rest →
    value? n depth ((text false j).map some ++ rest) = some (j, rest)

theorem keyword?_append (word : String) (rest : List Symbol) :
    keyword? word (word.toList.map some ++ rest) = some rest := by
  have hbegins : (word.toList.map some).isPrefixOf (word.toList.map some ++ rest) = true :=
    List.isPrefixOf_iff_prefix.2 (List.prefix_append _ _)
  have hlength : word.length = (word.toList.map (some : Char → Symbol)).length := by
    rw [List.length_map, String.length_toList]
  rw [keyword?, if_pos hbegins, hlength, List.drop_left]

theorem value?_null (n depth : Nat) (rest : List Symbol) :
    value? (n + 1) depth ((text false .null).map some ++ rest) = some (.null, rest) := by
  have hword := keyword?_append "ull" rest
  simpa [text_null, value?, skipSpace, isSpace] using hword

theorem value?_bool (b : Bool) (n depth : Nat) (rest : List Symbol) :
    value? (n + 1) depth ((text false (.bool b)).map some ++ rest) = some (.bool b, rest) := by
  cases b with
  | true =>
    have hword := keyword?_append "rue" rest
    simpa [text_true, value?, skipSpace, isSpace] using hword
  | false =>
    have hword := keyword?_append "alse" rest
    simpa [text_false, value?, skipSpace, isSpace] using hword

theorem value?_string (s : String) (n depth : Nat) (rest : List Symbol) :
    value? (n + 1) depth ((text false (.string s)).map some ++ rest) = some (.string s, rest) := by
  rw [text_string, stringText, List.cons_append, List.map_cons, List.cons_append, value?,
    skipSpace_cons (by decide)]
  simp only
  rw [literal_stringText]
  rfl

theorem value?_integer {m : Int} (lower : -maxNegated ≤ m) (upper : m ≤ maxInteger)
    (n depth : Nat) {rest : List Symbol} (hrest : EndsNumber rest) :
    value? (n + 1) depth ((text false (.integer m)).map some ++ rest) =
      some (.integer m, rest) := by
  rw [text_integer]
  cases m with
  | negSucc k =>
    have hle : k + 1 ≤ maxNegated := by omega
    have hmax : k + 1 ≤ maxInteger := Nat.le_trans hle (by decide)
    have hvalue : value? (n + 1) depth ((intText (.negSucc k)).map some ++ rest) =
        number? true ((natText (k + 1)).map some ++ rest) := by
      simp [intText, value?, skipSpace, isSpace]
    rw [hvalue, number?_natText hmax (fun _ => ⟨Nat.succ_pos k, hle⟩) hrest]
    rfl
  | ofNat k =>
    have hvalue : value? (n + 1) depth ((intText (.ofNat k)).map some ++ rest) =
        number? false ((natText k).map some ++ rest) := by
      cases htext : natText k with
      | nil => exact absurd htext Nat.toDigits_ne_nil
      | cons c cs =>
        have hdigit : c.isDigit = true := isDigit_of_mem_natText (n := k) (by simp [htext])
        rw [intText, htext]
        exact value?_of_isDigit hdigit n depth _
    rw [hvalue, number?_natText (Int.ofNat_le.1 upper) (by simp) hrest]
    rfl

theorem items?_itemsText {depth : Nat} {j : Json} {js : List Json}
    (h : ∀ i ∈ j :: js, ReadBack depth i) {n : Nat}
    (hn : (itemsText false (j :: js)).length ≤ n) (rest : List Symbol) :
    items? (n + 1) depth ((itemsText false (j :: js)).map some ++ some ']' :: rest) =
      some (.array (j :: js), rest) := by
  induction js generalizing j n with
  | nil =>
    rw [itemsText_single] at hn ⊢
    rw [items?, h j (.head _) n _ hn (endsNumber_cons (by decide) _)]
    simp [skipSpace, isSpace]
  | cons i is ih =>
    rw [itemsText_cons, List.length_append, List.length_cons] at hn
    obtain ⟨n, rfl⟩ : ∃ m, n = m + 1 := ⟨n - 1, by omega⟩
    have hrest := ih (fun k hk => h k (.tail _ hk)) (n := n) (by omega)
    rw [itemsText_cons, List.map_append, List.append_assoc, List.map_cons, List.cons_append,
      items?, h j (.head _) _ _ (by omega) (endsNumber_cons (by decide) _)]
    simp [skipSpace, isSpace, hrest, addItem]

/-- Of an object's text, the first member and what comes after it. -/
theorem members?_member {depth : Nat} {m : String × Json} (h : ReadBack depth m.2) {n : Nat}
    (hn : (text false m.2).length ≤ n) {rest : List Symbol} (hrest : EndsNumber rest) :
    members? (n + 1) depth
        ((stringText false m.1).map some ++ some ':' :: (text false m.2).map some ++ rest) =
      match skipSpace rest with
      | some '}' :: cs => some (addMember (some m.1) m.2 (.object []), cs)
      | some ',' :: cs =>
        (members? n depth cs).map fun r => (addMember (some m.1) m.2 r.1, r.2)
      | _ => none := by
  have hname := literal_stringText m.1 (some ':' :: (text false m.2).map some ++ rest)
  rw [stringText, List.cons_append, List.map_cons, List.cons_append, List.cons_append, members?,
    skipSpace_cons (by decide)]
  simp only
  rw [List.append_assoc, hname]
  simp only [List.cons_append, skipSpace_cons (c := ':') (by decide)]
  rewrite [h n rest hn hrest]
  rfl

theorem members?_membersText {depth : Nat} {m : String × Json} {ms : List (String × Json)}
    (h : ∀ e ∈ m :: ms, ReadBack depth e.2) {n : Nat}
    (hn : (membersText false (m :: ms)).length ≤ n) (rest : List Symbol) :
    members? (n + 1) depth ((membersText false (m :: ms)).map some ++ some '}' :: rest) =
      some (.object (m :: ms), rest) := by
  induction ms generalizing m n with
  | nil =>
    rw [membersText_single, List.length_append, List.length_cons] at hn
    have hfirst := members?_member (h m (.head _)) (n := n) (by omega)
      (endsNumber_cons (c := '}') (by decide) rest)
    rw [skipSpace_cons (by decide)] at hfirst
    rw [membersText_single, List.map_append, List.map_cons, hfirst]
    rfl
  | cons i is ih =>
    rw [membersText_cons, List.length_append, List.length_append, List.length_cons,
      List.length_cons] at hn
    obtain ⟨n, rfl⟩ : ∃ m, n = m + 1 := ⟨n - 1, by omega⟩
    have hothers := ih (fun e he => h e (.tail _ he)) (n := n) (by omega)
    have hfirst := members?_member (h m (.head _)) (n := n + 1) (by omega)
      (endsNumber_cons (c := ',') (by decide)
        ((membersText false (i :: is)).map some ++ some '}' :: rest))
    rw [skipSpace_cons (by decide)] at hfirst
    simp only [hothers] at hfirst
    rw [membersText_cons, List.map_append, List.map_append, List.map_cons, List.map_cons,
      List.append_assoc, List.cons_append, hfirst]
    rfl

theorem value?_array {depth : Nat} {items : List Json} (h : ∀ j ∈ items, Plain depth j)
    (ih : ∀ j ∈ items, ReadBack depth j) {n : Nat} (hn : (itemsText false items).length ≤ n)
    (rest : List Symbol) :
    value? (n + 2) (depth + 1) ((text false (.array items)).map some ++ rest) =
      some (.array items, rest) := by
  cases items with
  | nil =>
    have htext : text false (.array []) = ['[', ']'] := rfl
    simp [htext, value?, skipSpace, isSpace, nested]
  | cons j js =>
    obtain ⟨c, cs, hc, hspace, hclose⟩ := text_head (h j (.head _))
    have hhead : ∃ ds, (itemsText false (j :: js)).map some ++ some ']' :: rest = some c :: ds := by
      cases js with
      | nil => exact ⟨_, by rw [itemsText_single, hc]; rfl⟩
      | cons i is => exact ⟨_, by rw [itemsText_cons, hc]; rfl⟩
    obtain ⟨ds, hds⟩ := hhead
    have hitems := items?_itemsText ih hn rest
    rw [text_array, List.cons_append, List.map_cons, List.map_append, List.cons_append,
      List.append_assoc, List.map_singleton, List.singleton_append, value?,
      skipSpace_cons (by decide)]
    rw [hds] at hitems ⊢
    simp [skipSpace_cons hspace, hclose, hitems, nested]

theorem value?_object {depth : Nat} {members : List (String × Json)}
    (ih : ∀ m ∈ members, ReadBack depth m.2) {n : Nat}
    (hn : (membersText false members).length ≤ n) (rest : List Symbol) :
    value? (n + 2) (depth + 1) ((text false (.object members)).map some ++ rest) =
      some (.object members, rest) := by
  cases members with
  | nil =>
    have htext : text false (.object []) = ['{', '}'] := rfl
    simp [htext, value?, skipSpace, isSpace, nested]
  | cons m ms =>
    have hhead : ∃ ds,
        (membersText false (m :: ms)).map some ++ some '}' :: rest = some '"' :: ds := by
      cases ms with
      | nil => exact ⟨_, by rw [membersText_single]; rfl⟩
      | cons i is => exact ⟨_, by rw [membersText_cons]; rfl⟩
    obtain ⟨ds, hds⟩ := hhead
    have hmembers := members?_membersText ih hn rest
    rw [text_object, List.cons_append, List.map_cons, List.map_append, List.cons_append,
      List.append_assoc, List.map_singleton, List.singleton_append, value?,
      skipSpace_cons (by decide)]
    rw [hds] at hmembers ⊢
    simp [skipSpace_cons (c := '"') (by decide), hmembers, nested]

theorem readBack_of_succ {depth : Nat} {j : Json} (hplain : Plain depth j)
    (h : ∀ n rest, (text false j).length ≤ n + 1 → EndsNumber rest →
      value? (n + 1) depth ((text false j).map some ++ rest) = some (j, rest)) :
    ReadBack depth j := by
  intro n rest hn hrest
  obtain ⟨c, cs, hc, -⟩ := text_head hplain
  cases n with
  | zero => simp [hc] at hn
  | succ n => exact h n rest hn hrest

/-- All values that are plain are read back, by induction on how they are nested. -/
theorem readBack {depth : Nat} {j : Json} (h : Plain depth j) : ReadBack depth j := by
  induction h with
  | null => exact readBack_of_succ .null fun n rest _ _ => value?_null n _ rest
  | bool b => exact readBack_of_succ (.bool b) fun n rest _ _ => value?_bool b n _ rest
  | integer lower upper =>
    exact readBack_of_succ (.integer lower upper) fun n rest _ hrest =>
      value?_integer lower upper n _ hrest
  | string s => exact readBack_of_succ (.string s) fun n rest _ _ => value?_string s n _ rest
  | @array depth items h ih =>
    refine readBack_of_succ (.array h) fun n rest hn _ => ?_
    rw [text_array, List.length_append, List.length_cons, List.length_singleton] at hn
    obtain ⟨n, rfl⟩ : ∃ m, n = m + 1 := ⟨n - 1, by omega⟩
    exact value?_array h ih (by omega) rest
  | @object depth members h ih =>
    refine readBack_of_succ (.object h) fun n rest hn _ => ?_
    rw [text_object, List.length_append, List.length_cons, List.length_singleton] at hn
    obtain ⟨n, rfl⟩ : ∃ m, n = m + 1 := ⟨n - 1, by omega⟩
    exact value?_object ih (by omega) rest

end Values

section Documents

theorem ofSymbols?_text {j : Json} (h : Plain maxDepth j) :
    ofSymbols? ((text false j).map some) = some j := by
  have hvalue := readBack h (2 * ((text false j).map some).length + 2) []
    (by rw [List.length_map]; omega) endsNumber_nil
  rw [List.append_nil] at hvalue
  rw [ofSymbols?, hvalue]
  rfl

/-- A document is read back from the text it is written as. -/
theorem parse?_compact {j : Json} (h : Plain maxDepth j) : parse? j.compact = some j := by
  rw [parse?, compact, String.toList_ofList, ofSymbols?_text h]

theorem symbolsOf_toUTF8 (s : String) : symbolsOf s.toUTF8 = s.toList.map some := by
  have htext : String.fromUTF8? s.toUTF8 = some s := dif_pos s.isValidUTF8
  rw [symbolsOf, htext]

/-- A document is read back from the bytes of the text it is written as. -/
theorem parseBytes?_compact {j : Json} (h : Plain maxDepth j) :
    parseBytes? j.compact.toUTF8 = some j := by
  rw [parseBytes?, symbolsOf_toUTF8]
  exact parse?_compact h

end Documents

end TopicSync.Json
