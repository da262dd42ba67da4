import TopicSync.Topic.Diff

/-!
What is found in a map after each of its operations. A map is given by its look-ups, so that the
laws of filters, unions and changes are stated key by key. The changes between two maps name a key
exactly if the maps differ there, and lead from the first map to the second.
-/
namespace TopicSync

namespace TextMap

variable {α β : Type}

theorem find_eq_some_iff {es : List (String × α)} (h : Increasing es) (k : String) (v : α) :
    find k es = some v ↔ (k, v) ∈ es := by
  induction es with
  | nil => simp [find]
  | cons e es ih =>
    have he := List.pairwise_cons.1 h
    by_cases hk : k = e.1
    · have hnot : (k, v) ∉ es := fun hm => String.lt_irrefl k (by simpa [← hk] using he.1 _ hm)
      have hfst : ((k, v) = e) ↔ e.2 = v := by
        constructor
        · intro heq; rw [← heq]
        · intro heq; rw [← heq, hk]
      simp [find, hk ▸ hfst, hk ▸ hnot, hk]
    · have hne : (k, v) ≠ e := fun heq => hk (by rw [← heq])
      simp [find, hk, hne, ih he.2]

/-- A key has a value in a map if the two are an entry of it. -/
theorem get?_eq_some_iff {m : TextMap α} {k : String} {v : α} :
    m.get? k = some v ↔ (k, v) ∈ m.toList :=
  find_eq_some_iff m.increasing k v

theorem contains_iff_mem_keys {m : TextMap α} {k : String} :
    m.contains k = true ↔ k ∈ m.keys := by
  rw [contains, Option.isSome_iff_exists, keys, List.mem_map]
  constructor
  · rintro ⟨v, hv⟩
    exact ⟨(k, v), get?_eq_some_iff.1 hv, rfl⟩
  · rintro ⟨e, he, rfl⟩
    exact ⟨e.2, get?_eq_some_iff.2 he⟩

theorem get?_filter (m : TextMap α) (p : String → α → Bool) (k : String) :
    (m.filter p).get? k = (m.get? k).filter (p k) := by
  apply Option.ext
  intro v
  rw [get?_eq_some_iff, Option.filter_eq_some_iff, get?_eq_some_iff]
  simp [filter, toList]

theorem get?_erase (m : TextMap α) (k j : String) :
    (m.erase k).get? j = if j = k then none else m.get? j := by
  have hfilter : m.erase k = m.filter fun i _ => decide (i ≠ k) := rfl
  rw [hfilter, get?_filter]
  by_cases hj : j = k
  · cases m.get? j <;> simp [hj]
  · cases m.get? j <;> simp [hj]

theorem contains_insert {m : TextMap α} {k j : String} {v : α} :
    (m.insert k v).contains j = true ↔ j = k ∨ m.contains j = true := by
  rw [contains, contains, get?_insert]
  by_cases h : j = k <;> simp [h]

theorem contains_erase {m : TextMap α} {k j : String} :
    (m.erase k).contains j = true ↔ j ≠ k ∧ m.contains j = true := by
  rw [contains, contains, get?_erase]
  by_cases h : j = k <;> simp [h]

theorem get?_filterMap (m : TextMap α) (f : String → α → Option β) (k : String) :
    (m.filterMap f).get? k = (m.get? k).bind (f k) := by
  apply Option.ext
  intro v
  rw [get?_eq_some_iff, Option.bind_eq_some_iff]
  simp only [get?_eq_some_iff, filterMap, toList, List.mem_filterMap, Option.map_eq_some_iff]
  constructor
  · rintro ⟨e, he, w, hw, heq⟩
    cases heq
    exact ⟨e.2, he, hw⟩
  · rintro ⟨u, hu, hv⟩
    exact ⟨(k, u), hu, v, hv, rfl⟩

theorem get?_map (m : TextMap α) (f : α → β) (k : String) :
    (m.map f).get? k = (m.get? k).map f := by
  rw [map, get?_filterMap]
  cases m.get? k <;> rfl

theorem map_insert (f : α → β) (m : TextMap α) (k : String) (v : α) :
    (m.insert k v).map f = (m.map f).insert k (f v) := by
  refine ext fun j => ?_
  simp only [get?_map, get?_insert]
  split <;> rfl

theorem map_erase (f : α → β) (m : TextMap α) (k : String) :
    (m.erase k).map f = (m.map f).erase k := by
  refine ext fun j => ?_
  simp only [get?_map, get?_erase]
  split <;> rfl

theorem erase_insert_of_ne {k j : String} (h : j ≠ k) (m : TextMap α) (v : α) :
    (m.insert j v).erase k = (m.erase k).insert j v := by
  refine ext fun i => ?_
  simp only [get?_erase, get?_insert]
  by_cases hk : i = k
  · simp [hk, h.symm]
  · simp [hk]

theorem erase_insert_self (m : TextMap α) (k : String) (v : α) :
    (m.insert k v).erase k = m.erase k := by
  refine ext fun i => ?_
  simp only [get?_erase, get?_insert]
  split <;> rfl

theorem get?_insertAll {es : List (String × α)} (h : Increasing es) (m : TextMap α)
    (k : String) : (m.insertAll es).get? k = (find k es).or (m.get? k) := by
  induction es generalizing m with
  | nil => rfl
  | cons e es ih =>
    have he := List.pairwise_cons.1 h
    have hstep : (m.insertAll (e :: es)).get? k = (find k es).or ((m.insert e.1 e.2).get? k) :=
      ih he.2 (m.insert e.1 e.2)
    rw [hstep, get?_insert]
    by_cases hk : k = e.1
    · subst hk
      simp [find, find_eq_none_of_forall_lt he.1]
    · simp [find, hk]

/-- Of several entries with one key, the last is found. -/
theorem get?_insertAll_last (m : TextMap α) (es : List (String × α)) (k : String) :
    (m.insertAll es).get? k =
      ((es.reverse.find? fun e => e.1 = k).map (·.2)).or (m.get? k) := by
  induction es generalizing m with
  | nil => rfl
  | cons e es ih =>
    have hstep : (m.insertAll (e :: es)).get? k =
        ((es.reverse.find? fun e => e.1 = k).map (·.2)).or ((m.insert e.1 e.2).get? k) :=
      ih (m.insert e.1 e.2)
    rw [hstep, get?_insert, List.reverse_cons, List.find?_append]
    cases es.reverse.find? fun e => e.1 = k with
    | some _ => rfl
    | none =>
      by_cases hk : e.1 = k
      · simp [hk]
      · simp [hk, Ne.symm hk]

theorem get?_ofList (es : List (String × α)) (k : String) :
    (ofList es).get? k = (es.reverse.find? fun e => e.1 = k).map (·.2) := by
  rw [ofList, get?_insertAll_last, get?_empty, Option.or_none]

/-- A key has a value just if there is an entry for it, and the value is one of those entries. -/
theorem mem_of_get?_ofList {es : List (String × α)} {k : String} {v : α}
    (h : (ofList es).get? k = some v) : (k, v) ∈ es := by
  rw [get?_ofList, Option.map_eq_some_iff] at h
  obtain ⟨e, he, rfl⟩ := h
  have hk : e.1 = k := by simpa using List.find?_some he
  have hmem : e ∈ es := List.mem_reverse.1 (List.mem_of_find?_eq_some he)
  rwa [← hk]

theorem get?_ofList_eq_none {es : List (String × α)} {k : String} :
    (ofList es).get? k = none ↔ ∀ e ∈ es, e.1 ≠ k := by
  simp [get?_ofList]

theorem mem_values {m : TextMap α} {v : α} : v ∈ m.values ↔ ∃ k, m.get? k = some v := by
  simp only [values, List.mem_map, get?_eq_some_iff, toList]
  constructor
  · rintro ⟨e, he, rfl⟩
    exact ⟨e.1, he⟩
  · rintro ⟨k, hk⟩
    exact ⟨(k, v), hk, rfl⟩

theorem nodup_keys (m : TextMap α) : m.keys.Nodup := by
  refine List.pairwise_map.2 (m.increasing.imp fun {a b} hab heq => ?_)
  exact String.lt_irrefl b.1 (heq ▸ hab)

/-- The entries of a map make it up in any order. -/
theorem ofList_of_perm {es : List (String × α)} {m : TextMap α} (h : es.Perm m.toList) :
    ofList es = m := by
  refine ext fun k => Option.ext fun v => ?_
  constructor
  · intro hv
    exact get?_eq_some_iff.2 (h.mem_iff.1 (mem_of_get?_ofList hv))
  · intro hv
    have hmem := h.mem_iff.2 (get?_eq_some_iff.1 hv)
    cases hget : (ofList es).get? k with
    | none => exact absurd rfl (get?_ofList_eq_none.1 hget _ hmem)
    | some w =>
      have hw := get?_eq_some_iff.2 (h.mem_iff.1 (mem_of_get?_ofList hget))
      exact hw.symm.trans hv

theorem ofList_toList (m : TextMap α) : ofList m.toList = m :=
  ofList_of_perm (.refl _)

/-- In a union the first map comes before the second. -/
theorem get?_union (m n : TextMap α) (k : String) :
    (m.union n).get? k = (m.get? k).or (n.get? k) :=
  get?_insertAll m.increasing n k

theorem isEmpty_iff {m : TextMap α} : m.isEmpty = true ↔ ∀ k, m.get? k = none := by
  constructor
  · intro h k
    have hm : m.entries = [] := List.isEmpty_iff.1 h
    simp [get?, hm, find]
  · intro h
    have hm : m = empty := ext h
    rw [hm]
    rfl

end TextMap

/-- The change that makes this the value of an entry, where `none` means no entry. -/
def EntryChange.toward : Option String → EntryChange
  | some v => set v
  | none => removed

@[simp] theorem EntryChange.value?_toward (o : Option String) : (toward o).value? = o := by
  cases o <;> rfl

theorem EntryChange.value?_inj {c d : EntryChange} (h : c.value? = d.value?) : c = d := by
  cases c <;> cases d <;> simp_all [value?]

namespace TextMap

/-- Between two maps just the keys change that differ. -/
theorem get?_changes (base other : TextMap String) (k : String) :
    (base.changes other).get? k =
      if base.get? k = other.get? k then none else some (.toward (other.get? k)) := by
  rw [changes, get?_union, get?_filterMap, get?_filterMap]
  cases hb : base.get? k with
  | none =>
    cases ho : other.get? k <;> simp [EntryChange.toward]
  | some b =>
    cases ho : other.get? k with
    | none => simp [contains, ho, EntryChange.toward]
    | some o =>
      by_cases h : b = o <;> simp [contains, ho, h, EntryChange.toward]

/-- After changes a key has the value it was changed to, or else the one it had. -/
theorem get?_applyChanges (m : TextMap String) (cs : TextMap EntryChange) (k : String) :
    (m.applyChanges cs).get? k = ((cs.get? k).map EntryChange.value?).getD (m.get? k) := by
  rw [applyChanges, get?_union, get?_filterMap, get?_filter]
  cases hc : cs.get? k with
  | none => cases hm : m.get? k <;> simp [contains, hc]
  | some c =>
    -- The old entry of a changed key is filtered out, so that the change alone counts.
    have hold : (m.get? k).filter (fun _ => !cs.contains k) = none := by
      cases m.get? k <;> simp [contains, hc]
    rw [hold]
    simp

end TextMap

end TopicSync
