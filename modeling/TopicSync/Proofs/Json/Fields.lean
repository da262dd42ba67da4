import TopicSync.Json.Fields
import TopicSync.Proofs.TextMap

/-!
Reading the members of an object. Where each name occurs once, a member is found under its name,
and a record with no other fields than it should have is taken as it is. What is written of a
number, a map or a map that may be unknown is read as such.
-/
namespace TopicSync.Json

section Values

theorem asTextMap?_ofMap (m : TextMap String) : asTextMap? (ofMap m) = some m := by
  have hentries : ∀ es : List (String × String),
      (es.map fun e => (e.1, string e.2)).mapM
        (fun m : String × Json => m.2.asString?.map (m.1, ·)) = some es := by
    intro es
    induction es with
    | nil => rfl
    | cons e es ih =>
      rw [List.map_cons, List.mapM_cons, ih]
      rfl
  simp [asTextMap?, asObject?, ofMap, hentries, TextMap.ofList_toList]

theorem asOption?_asTextMap? (m : TextMap String) :
    asOption? asTextMap? (ofMap m) = some (some m) := by
  have hmap := asTextMap?_ofMap m
  rw [ofMap] at hmap ⊢
  rw [asOption?, hmap]
  · rfl
  · rintro ⟨⟩

theorem asInt?_ofNat {n : Nat} {lo hi : Int} (hlo : lo ≤ n) (hhi : n ≤ hi) :
    (ofNat n).asInt? lo hi = some n := by
  simp [ofNat, asInt?, hlo, hhi]

theorem asInt?_eq_some_iff {lo hi n : Int} {j : Json} :
    j.asInt? lo hi = some n ↔ j = .integer n ∧ lo ≤ n ∧ n ≤ hi := by
  cases j <;> simp [asInt?]
  rename_i m
  constructor
  · rintro ⟨h, rfl⟩
    exact ⟨rfl, h⟩
  · rintro ⟨rfl, h⟩
    exact ⟨h, rfl⟩

end Values

section Members

theorem lastOf_append (name : String) (xs ys : List (String × Json)) :
    lastOf name (xs ++ ys) = (lastOf name ys).or (lastOf name xs) := by
  induction xs with
  | nil => cases h : lastOf name ys <;> simp [lastOf, h]
  | cons x xs ih =>
    rw [List.cons_append, lastOf, ih]
    cases hy : lastOf name ys with
    | some j => rfl
    | none => simp [lastOf]

theorem lastOf_memberOf {α : Type} (name other : String) (f : α → Json) (a : Option α) :
    lastOf name (memberOf other f a) = if other = name then a.map f else none := by
  cases a <;> simp [memberOf, lastOf]

theorem mem_memberOf {α : Type} {name : String} {f : α → Json} {a : Option α} {m : String × Json} :
    m ∈ memberOf name f a ↔ ∃ x, a = some x ∧ m = (name, f x) := by
  cases a <;> simp [memberOf]

variable {members : List (String × Json)} {name : String} {j : Json}

theorem count_le_one (h : (members.map (·.1)).Nodup) (name : String) : count name members ≤ 1 := by
  induction members with
  | nil => exact Nat.zero_le _
  | cons m ms ih =>
    obtain ⟨hnew, hrest⟩ := List.nodup_cons.1 h
    have ih := ih hrest
    rw [count] at ih ⊢
    rw [List.countP_cons]
    by_cases hm : m.1 = name
    · have hnone : ms.countP (·.1 == name) = 0 := by
        rw [List.countP_eq_zero]
        intro e he hname
        have hsame : e.1 = m.1 := (eq_of_beq hname).trans hm.symm
        exact hnew (List.mem_map.2 ⟨e, he, hsame⟩)
      simp [hnone, hm]
    · simpa [hm] using ih

/-- A record that has each of its fields once, and no others, is taken as it is. -/
theorem fields?_object {names : List String} (hdistinct : (members.map (·.1)).Nodup)
    (hknown : ∀ m ∈ members, m.1 ∈ names) : (object members).fields? names = some members := by
  have hcounts : names.all (count · members ≤ 1) = true :=
    List.all_eq_true.2 fun name _ => decide_eq_true (count_le_one hdistinct name)
  have hall : members.filter (names.contains ·.1) = members :=
    List.filter_eq_self.2 fun m hm => List.contains_iff_mem.2 (hknown m hm)
  rw [fields?, if_pos hcounts, hall]

theorem lastOf_of_not_mem (h : name ∉ members.map (·.1)) : lastOf name members = none := by
  induction members with
  | nil => rfl
  | cons m ms ih =>
    obtain ⟨hm, hms⟩ := not_or.1 (mt List.mem_cons.2 h)
    rw [lastOf, ih hms]
    exact if_neg (Ne.symm hm)

theorem lastOf_of_mem (hdistinct : (members.map (·.1)).Nodup) (h : (name, j) ∈ members) :
    lastOf name members = some j := by
  induction members with
  | nil => cases h
  | cons m ms ih =>
    obtain ⟨hnew, hrest⟩ := List.nodup_cons.1 hdistinct
    rw [lastOf]
    rcases List.mem_cons.1 h with rfl | h
    · rw [lastOf_of_not_mem hnew]
      exact if_pos rfl
    · rw [ih hrest h]

theorem required?_of_mem {α : Type} (hdistinct : (members.map (·.1)).Nodup)
    (h : (name, j) ∈ members) (f : Json → Option α) : required? members name f = f j := by
  rw [required?, lastOf_of_mem hdistinct h]
  rfl

theorem required?_eq_some_iff {α : Type} {f : Json → Option α} {a : α} :
    required? members name f = some a ↔ ∃ j, lastOf name members = some j ∧ f j = some a := by
  rw [required?, Option.bind_eq_bind, Option.bind_eq_some_iff]

/-- Where each name occurs once, the last member with a name is the only one. -/
theorem lastRead?_of_nodup {α : Type} (hdistinct : (members.map (·.1)).Nodup) (name : String)
    (f : Json → Option α) : lastRead? members name f =
      match lastOf name members with
      | none => some none
      | some j => (f j).map some := by
  induction members with
  | nil => rfl
  | cons m ms ih =>
    obtain ⟨hnew, hrest⟩ := List.nodup_cons.1 hdistinct
    by_cases hm : m.1 = name
    · have hnone : ms.filter (·.1 == name) = [] := by
        refine List.filter_eq_nil_iff.2 fun e he hname => hnew ?_
        exact List.mem_map.2 ⟨e, he, (eq_of_beq hname).trans hm.symm⟩
      have hlast : lastOf name (m :: ms) = some m.2 := by
        rw [lastOf, lastOf_of_not_mem (hm ▸ hnew)]
        exact if_pos hm
      have hfilter : (m :: ms).filter (·.1 == name) = [m] := by simp [hm, hnone]
      rw [lastRead?, hfilter, hlast]
      cases h : f m.2 <;> simp [h]
    · have hlast : lastOf name (m :: ms) = lastOf name ms := by
        rw [lastOf, if_neg hm]
        cases lastOf name ms <;> rfl
      have hfilter : (m :: ms).filter (·.1 == name) = ms.filter (·.1 == name) := by simp [hm]
      rw [hlast, ← ih hrest, lastRead?, lastRead?, hfilter]

theorem lastGiven?_of_nodup {α : Type} (hdistinct : (members.map (·.1)).Nodup) (name : String)
    (f : Json → Option α) : lastGiven? members name f =
      match lastOf name members with
      | none => some none
      | some j => asOption? f j := by
  rw [lastGiven?, lastRead?_of_nodup hdistinct]
  cases lastOf name members with
  | none => rfl
  | some j => cases h : asOption? f j <;> simp [h]

theorem lastGiven?_of_not_mem {α : Type} (h : name ∉ members.map (·.1)) (f : Json → Option α) :
    lastGiven? members name f = some none := by
  have hnone : members.filter (·.1 == name) = [] :=
    List.filter_eq_nil_iff.2 fun e he hname => h (List.mem_map.2 ⟨e, he, eq_of_beq hname⟩)
  rw [lastGiven?, lastRead?, hnone]
  rfl

/-- A member that is written if there is a value is read as that value. -/
theorem lastGiven?_of_written {α : Type} (write : α → Json)
    (hdistinct : (members.map (·.1)).Nodup) {a : Option α} {f : Json → Option α}
    (hlast : lastOf name members = a.map write)
    (hread : ∀ a, asOption? f (write a) = some (some a)) : lastGiven? members name f = some a := by
  rw [lastGiven?_of_nodup hdistinct, hlast]
  cases a with
  | none => rfl
  | some a => exact hread a

theorem defaulted?_of_mem {α : Type} (hdistinct : (members.map (·.1)).Nodup)
    (h : (name, j) ∈ members) (default : α) (f : Json → Option α) :
    defaulted? members name default f = f j := by
  rw [defaulted?, lastOf_of_mem hdistinct h]

end Members

end TopicSync.Json
