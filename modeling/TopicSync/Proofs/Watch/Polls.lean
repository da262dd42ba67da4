import Mathlib.Data.Finset.Basic
import Mathlib.Data.Finset.Dedup
import Mathlib.Data.Finset.Insert
import TopicSync.Proofs.Plan.Merge
import TopicSync.Watch.TopicView

/-!
What the triggers of the brokers' topics say of the listings that they come from. After every
listing the view holds the topics that it describes, each as it is described last, and those that
it only names as unavailable, each as it was known before. The triggers name what has become of each
name in the view, once, so that the names in the view can be told from the first listing and the
triggers alone. A topic that is never left out of a listing is never reported deleted.
-/
namespace TopicSync

/-- The last description that a listing gives of a topic which is not internal. -/
def TopicListing.described? (l : TopicListing) (n : TopicName) : Option Topic :=
  if n.isInternal then none else l.topics.reverse.find? fun t => t.name = n

/-- The names of the topics that a listing describes, without internal ones. -/
def TopicListing.names (l : TopicListing) : Finset TopicName :=
  ((l.topics.map Topic.name).filter fun n => !n.isInternal).toFinset

namespace TopicView

/-- Take in listings in turn: the triggers that follow from them, and the view after them. -/
def observeAll (v : TopicView) : List TopicListing → List Trigger × TopicView
  | [] => ([], v)
  | l :: ls =>
    let (ts, v) := v.observe l
    let (rest, v) := v.observeAll ls
    (ts ++ rest, v)

/-- The snapshot that the view holds of a name. -/
def get? (v : TopicView) (n : TopicName) : Option Topic := v.seen.bind (·.get? n.text)

/-- The snapshots that the view holds. -/
def topics (v : TopicView) : List Topic := (v.seen.map TextMap.values).getD []

/-- The names in the view. -/
def names (v : TopicView) : Finset TopicName := (v.topics.map Topic.name).toFinset

/-- The names that are left of some when the topics reported created are added to them and those
reported deleted are taken away. -/
def replay (names : Finset TopicName) : List Trigger → Finset TopicName
  | [] => names
  | .kafkaTopicCreated n :: ts => replay (insert n names) ts
  | .kafkaTopicDeleted n :: ts => replay (names.erase n) ts
  | _ :: ts => replay names ts

/-- After a listing the second view holds what the listing describes, and what it names as
unavailable and the first view holds, each name once and no internal one. -/
structure Follows (v : TopicView) (l : TopicListing) (w : TopicView) : Prop where
  get : ∀ n, w.get? n = (l.described? n).or (if n ∈ l.unavailable then v.get? n else none)
  topics : ∀ t, t ∈ w.topics ↔ w.get? t.name = some t
  once : (w.topics.map Topic.name).Nodup
  shown : ∀ t ∈ w.topics, t.name.isInternal = false

/-- The triggers say of every name what has become of it from one view to the next, and say it
once. -/
structure Reports (v w : TopicView) (ts : List Trigger) : Prop where
  created : ∀ n, .kafkaTopicCreated n ∈ ts ↔ v.get? n = none ∧ (w.get? n).isSome
  deleted : ∀ n, .kafkaTopicDeleted n ∈ ts ↔ (v.get? n).isSome ∧ w.get? n = none
  changed : ∀ n, .kafkaTopicChanged n ∈ ts ↔
    ∃ a b, v.get? n = some a ∧ w.get? n = some b ∧ a ≠ b
  only : ∀ t ∈ ts, ∃ n,
    t = .kafkaTopicCreated n ∨ t = .kafkaTopicDeleted n ∨ t = .kafkaTopicChanged n
  once : (ts.map Trigger.topic?).Nodup

/-- Each snapshot is kept under its own name, and none is of an internal topic. -/
structure Sound (m : TextMap Topic) : Prop where
  key : ∀ k t, m.get? k = some t → t.name.text = k
  shown : ∀ k t, m.get? k = some t → t.name.isInternal = false

section Known

/-- A listing's own topics are known by their last description, internal ones not at all. -/
theorem get?_described (l : TopicListing) (n : TopicName) :
    (described l).get? n.text = l.described? n := by
  have hpred : ∀ t : Topic,
      decide ((!t.name.isInternal) = true ∧ decide (t.name.text = n.text) = true) =
        (!n.isInternal && decide (t.name = n)) := by
    intro t
    by_cases hname : t.name = n
    · simp [hname]
    · have htext : t.name.text ≠ n.text := fun h => hname (TopicName.ext h)
      simp [hname, htext]
  rw [described, TextMap.get?_ofList, ← List.map_reverse, ← List.filter_reverse, List.find?_map,
    Option.map_map, List.find?_filter, TopicListing.described?]
  simp only [Function.comp_apply, hpred]
  cases n.isInternal <;> simp [Function.comp_def]

/-- What is retained of a name is what was known of it, if it is listed as unavailable. -/
theorem get?_retained (before : TextMap Topic) (l : TopicListing) (n : TopicName) :
    (retained before l).get? n.text = if n ∈ l.unavailable then before.get? n.text else none := by
  cases h : (retained before l).get? n.text with
  | none =>
    have hno := TextMap.get?_ofList_eq_none.1 h
    split
    next hn =>
      cases hb : before.get? n.text with
      | none => rfl
      | some t => exact absurd rfl (hno (n.text, t) (List.mem_filterMap.2 ⟨n, hn, by simp [hb]⟩))
    next => rfl
  | some t =>
    obtain ⟨u, hu, hentry⟩ := List.mem_filterMap.1 (TextMap.mem_of_get?_ofList h)
    obtain ⟨b, hb, heq⟩ := Option.map_eq_some_iff.1 hentry
    have hname : u = n := TopicName.ext (congrArg Prod.fst heq)
    have hvalue : b = t := congrArg Prod.snd heq
    subst hname hvalue
    simp [hu, hb]

/-- What the view holds after a listing: the last description of a name, or else, if the name is
unavailable, what was known of it. -/
theorem get?_observe (v : TopicView) (l : TopicListing) (n : TopicName) :
    (v.observe l).2.get? n =
      (l.described? n).or (if n ∈ l.unavailable then v.get? n else none) := by
  simp only [observe, get?, Option.bind_some, known]
  cases v.seen with
  | none => simp [get?_described]
  | some before => simp [TextMap.get?_union, get?_described, get?_retained]

theorem sound_described (l : TopicListing) : Sound (described l) := by
  have hentry : ∀ k t, (described l).get? k = some t →
      k = t.name.text ∧ t.name.isInternal = false := by
    intro k t h
    obtain ⟨u, hu, heq⟩ := List.mem_map.1 (TextMap.mem_of_get?_ofList h)
    have hshown : u.name.isInternal = false := by simpa using (List.mem_filter.1 hu).2
    cases heq
    exact ⟨rfl, hshown⟩
  exact ⟨fun k t h => (hentry k t h).1.symm, fun k t h => (hentry k t h).2⟩

theorem sound_retained {before : TextMap Topic} (hb : Sound before) (l : TopicListing) :
    Sound (retained before l) := by
  have hentry : ∀ k t, (retained before l).get? k = some t → before.get? k = some t := by
    intro k t h
    obtain ⟨u, _, hu⟩ := List.mem_filterMap.1 (TextMap.mem_of_get?_ofList h)
    obtain ⟨b, hb, heq⟩ := Option.map_eq_some_iff.1 hu
    cases heq
    exact hb
  exact ⟨fun k t h => hb.key k t (hentry k t h), fun k t h => hb.shown k t (hentry k t h)⟩

theorem sound_union {m n : TextMap Topic} (hm : Sound m) (hn : Sound n) : Sound (m.union n) := by
  have hentry : ∀ k t, (m.union n).get? k = some t → m.get? k = some t ∨ n.get? k = some t := by
    intro k t h
    rw [TextMap.get?_union, Option.or_eq_some_iff] at h
    exact h.imp id And.right
  exact ⟨fun k t h => (hentry k t h).elim (hm.key k t) (hn.key k t),
    fun k t h => (hentry k t h).elim (hm.shown k t) (hn.shown k t)⟩

end Known

/-- A view as it comes about by listings. -/
def Good (v : TopicView) : Prop := ∀ m, v.seen = some m → Sound m

theorem good_empty : Good empty := fun _ h => nomatch h

theorem good_observe {v : TopicView} (hv : Good v) (l : TopicListing) : Good (v.observe l).2 := by
  rintro m hm
  cases hm
  rw [known]
  cases h : v.seen with
  | none => exact sound_described l
  | some before => exact sound_union (sound_described l) (sound_retained (hv before h) l)

theorem good_observeAll {v : TopicView} (hv : Good v) (ls : List TopicListing) :
    Good (v.observeAll ls).2 := by
  induction ls generalizing v with
  | nil => exact hv
  | cons l ls ih => exact ih (good_observe hv l)

theorem isSome_seen_observeAll {v : TopicView} (hv : v.seen.isSome) (ls : List TopicListing) :
    (v.observeAll ls).2.seen.isSome := by
  induction ls generalizing v with
  | nil => exact hv
  | cons l ls ih => exact ih rfl

section Reported

variable {v : TopicView}

/-- The snapshots of a view are those that it holds of their names. -/
theorem mem_topics (hv : Good v) {t : Topic} : t ∈ v.topics ↔ v.get? t.name = some t := by
  cases hseen : v.seen with
  | none => simp [topics, get?, hseen]
  | some m =>
    simp only [topics, get?, hseen, Option.map_some, Option.getD_some, Option.bind_some,
      TextMap.mem_values]
    constructor
    · rintro ⟨k, hk⟩
      rwa [(hv m hseen).key k t hk]
    · exact fun h => ⟨_, h⟩

theorem name_of_get? (hv : Good v) {n : TopicName} {t : Topic} (h : v.get? n = some t) :
    t.name = n := by
  obtain ⟨m, hm, hget⟩ := Option.bind_eq_some_iff.1 h
  exact TopicName.ext ((hv m hm).key _ _ hget)

theorem nodup_values {m : TextMap Topic} (hm : Sound m) : (m.values.map Topic.name).Nodup := by
  have hkeys : m.values.map (fun t => t.name.text) = m.keys := by
    rw [TextMap.values, TextMap.keys, List.map_map]
    refine List.map_congr_left fun e he => ?_
    exact hm.key e.1 e.2 (TextMap.get?_eq_some_iff.2 he)
  have htexts : ((m.values.map Topic.name).map TopicName.text).Nodup := by
    rw [List.map_map]
    exact hkeys ▸ m.nodup_keys
  exact htexts.of_map

/-- No name is in the view twice. -/
theorem nodup_topics (hv : Good v) : (v.topics.map Topic.name).Nodup := by
  cases hseen : v.seen with
  | none => simp [topics, hseen]
  | some m => simpa [topics, hseen] using nodup_values (hv m hseen)

theorem mem_names (hv : Good v) {n : TopicName} : n ∈ v.names ↔ (v.get? n).isSome := by
  simp only [names, List.mem_toFinset, List.mem_map, mem_topics hv, Option.isSome_iff_exists]
  constructor
  · rintro ⟨t, ht, rfl⟩
    exact ⟨t, ht⟩
  · rintro ⟨t, ht⟩
    have hname := name_of_get? hv ht
    exact ⟨t, hname.symm ▸ ht, hname⟩

theorem get?_of_mem_values {m : TextMap Topic} (hm : Sound m) {t : Topic} (ht : t ∈ m.values) :
    m.get? t.name.text = some t := by
  obtain ⟨k, hk⟩ := TextMap.mem_values.1 ht
  rwa [hm.key k t hk]

/-- Every trigger between two sets of snapshots says what has become of one name. -/
theorem mem_triggers {before after : TextMap Topic} (hb : Sound before) (ha : Sound after)
    {x : Trigger} :
    x ∈ triggers before after ↔ ∃ n : TopicName,
      (x = .kafkaTopicCreated n ∧ before.get? n.text = none ∧ (after.get? n.text).isSome) ∨
      (x = .kafkaTopicDeleted n ∧ (before.get? n.text).isSome ∧ after.get? n.text = none) ∨
      (x = .kafkaTopicChanged n ∧
        ∃ b a, before.get? n.text = some b ∧ after.get? n.text = some a ∧ b ≠ a) := by
  rw [triggers, List.mem_append, List.mem_filterMap, List.mem_filterMap]
  constructor
  · rintro (⟨t, ht, hx⟩ | ⟨t, ht, hx⟩)
    · have hafter := get?_of_mem_values ha ht
      split at hx
      next hnone =>
        cases hx
        exact ⟨t.name, .inl ⟨rfl, hnone, by rw [hafter]; rfl⟩⟩
      next b hsome =>
        split at hx
        · cases hx
        next hne =>
          cases hx
          exact ⟨t.name, .inr (.inr ⟨rfl, b, t, hsome, hafter, hne⟩)⟩
    · have hbefore := get?_of_mem_values hb ht
      split at hx
      · cases hx
      next hgone =>
        cases hx
        have hnone : after.get? t.name.text = none := by simpa [TextMap.contains] using hgone
        exact ⟨t.name, .inr (.inl ⟨rfl, by rw [hbefore]; rfl, hnone⟩)⟩
  · rintro ⟨n, ⟨rfl, hnone, hsome⟩ | ⟨rfl, hsome, hnone⟩ | ⟨rfl, b, a, hbefore, hafter, hne⟩⟩
    · obtain ⟨t, ht⟩ := Option.isSome_iff_exists.1 hsome
      have hname : t.name = n := TopicName.ext (ha.key _ _ ht)
      exact .inl ⟨t, TextMap.mem_values.2 ⟨_, ht⟩, by simp [hname, hnone]⟩
    · obtain ⟨t, ht⟩ := Option.isSome_iff_exists.1 hsome
      have hname : t.name = n := TopicName.ext (hb.key _ _ ht)
      exact .inr ⟨t, TextMap.mem_values.2 ⟨_, ht⟩, by simp [hname, hnone, TextMap.contains]⟩
    · have hname : a.name = n := TopicName.ext (ha.key _ _ hafter)
      exact .inl ⟨a, TextMap.mem_values.2 ⟨_, hafter⟩, by simp [hname, hbefore, hne]⟩

/-- What is said of some of the topics in turn names them in their order. -/
theorem topics_filterMap_sublist {f : Topic → Option Trigger} (ts : List Topic)
    (hf : ∀ t x, f t = some x → x.topic? = some t.name) :
    ((ts.filterMap f).map Trigger.topic?).Sublist (ts.map fun t => some t.name) := by
  induction ts with
  | nil => exact .slnil
  | cons t ts ih =>
    rw [List.filterMap_cons]
    cases h : f t with
    | none => exact ih.cons _
    | some x =>
      rw [List.map_cons, List.map_cons, hf t x h]
      exact ih.cons_cons _

theorem topic?_of_present {before : TextMap Topic} {t : Topic} {x : Trigger}
    (h : (match before.get? t.name.text with
      | none => some (.kafkaTopicCreated t.name)
      | some b => if b = t then none else some (.kafkaTopicChanged t.name)) = some x) :
    x.topic? = some t.name := by
  split at h
  · cases h; rfl
  · split at h
    · cases h
    · cases h; rfl

theorem topic?_of_gone {after : TextMap Topic} {t : Topic} {x : Trigger}
    (h : (if after.contains t.name.text then none else some (.kafkaTopicDeleted t.name)) = some x) :
    after.get? t.name.text = none ∧ x.topic? = some t.name := by
  split at h
  · cases h
  next hno =>
    cases h
    exact ⟨by simpa [TextMap.contains] using hno, rfl⟩

/-- No name is reported on twice. -/
theorem nodup_triggers {before after : TextMap Topic} (hb : Sound before) (ha : Sound after) :
    ((triggers before after).map Trigger.topic?).Nodup := by
  have hnames : ∀ {m : TextMap Topic}, Sound m → (m.values.map fun t => some t.name).Nodup := by
    intro m hm
    have hmap := (nodup_values hm).map (Option.some_injective TopicName)
    rwa [List.map_map] at hmap
  rw [triggers, List.map_append]
  refine List.nodup_append.2
    ⟨(topics_filterMap_sublist _ fun _ _ => topic?_of_present).nodup (hnames ha),
      (topics_filterMap_sublist _ fun _ _ hx => (topic?_of_gone hx).2).nodup (hnames hb), ?_⟩
  -- What is reported created or changed is known afterwards; what is reported deleted is not.
  rintro o ho o' ho' rfl
  obtain ⟨x, hx, rfl⟩ := List.mem_map.1 ho
  obtain ⟨t, ht, hx⟩ := List.mem_filterMap.1 hx
  obtain ⟨y, hy, hxy⟩ := List.mem_map.1 ho'
  obtain ⟨u, _, hy⟩ := List.mem_filterMap.1 hy
  have hname : u.name = t.name := by
    have heq := ((topic?_of_gone hy).2.symm.trans hxy).trans (topic?_of_present hx)
    exact Option.some.inj heq
  have hnone : after.get? t.name.text = none := hname ▸ (topic?_of_gone hy).1
  rw [get?_of_mem_values ha ht] at hnone
  cases hnone

theorem reports_observe (hv : Good v) (hseen : v.seen.isSome) (l : TopicListing) :
    Reports v (v.observe l).2 (v.observe l).1 := by
  obtain ⟨before, hbefore⟩ := Option.isSome_iff_exists.1 hseen
  have hb : Sound before := hv before hbefore
  have ha : Sound (v.known l) := good_observe hv l _ rfl
  have hold : ∀ n, v.get? n = before.get? n.text := fun n => by rw [get?, hbefore]; rfl
  have hnew : ∀ n, (v.observe l).2.get? n = (v.known l).get? n.text := fun n => rfl
  have htriggers : (v.observe l).1 = triggers before (v.known l) := by
    simp only [observe, hbefore]
  rw [htriggers]
  constructor
  case created => intro n; rw [mem_triggers hb ha]; simp [hold, hnew]
  case deleted => intro n; rw [mem_triggers hb ha]; simp [hold, hnew]
  case changed => intro n; rw [mem_triggers hb ha]; simp [hold, hnew]
  case only =>
    intro t ht
    obtain ⟨n, h⟩ := (mem_triggers hb ha).1 ht
    exact ⟨n, h.imp And.left (Or.imp And.left And.left)⟩
  case once => exact nodup_triggers hb ha

end Reported

section Replayed

theorem replay_append (s : Finset TopicName) (ts us : List Trigger) :
    replay s (ts ++ us) = replay (replay s ts) us := by
  induction ts generalizing s with
  | nil => rfl
  | cons t ts ih => cases t <;> exact ih _

/-- A name is left if it was there or is created, as long as no name is both created and deleted. -/
theorem mem_replay {ts : List Trigger} {n : TopicName}
    (h : .kafkaTopicCreated n ∈ ts → .kafkaTopicDeleted n ∉ ts) (s : Finset TopicName) :
    n ∈ replay s ts ↔
      .kafkaTopicCreated n ∈ ts ∨ (n ∈ s ∧ .kafkaTopicDeleted n ∉ ts) := by
  induction ts generalizing s with
  | nil => simp [replay]
  | cons t ts ih =>
    have htail : .kafkaTopicCreated n ∈ ts → .kafkaTopicDeleted n ∉ ts :=
      fun hc hd => h (.tail _ hc) (.tail _ hd)
    cases t with
    | kafkaTopicCreated m =>
      by_cases hm : n = m
      · subst hm
        have hnot : .kafkaTopicDeleted n ∉ ts := fun hd => h (.head _) (.tail _ hd)
        simp [replay, ih htail, hnot]
      · simp [replay, ih htail, hm]
    | kafkaTopicDeleted m =>
      by_cases hm : n = m
      · subst hm
        have hnot : .kafkaTopicCreated n ∉ ts := fun hc => h (.tail _ hc) (.head _)
        simp [replay, ih htail, hnot]
      · simp [replay, ih htail, hm]
    | _ => simp [replay, ih htail]

theorem replay_observe {v : TopicView} (hv : Good v) (hseen : v.seen.isSome) (l : TopicListing) :
    replay v.names (v.observe l).1 = (v.observe l).2.names := by
  have hr := reports_observe hv hseen l
  ext n
  have hone : .kafkaTopicCreated n ∈ (v.observe l).1 → .kafkaTopicDeleted n ∉ (v.observe l).1 := by
    intro hc hd
    have hknown := ((hr.deleted n).1 hd).1
    rw [((hr.created n).1 hc).1] at hknown
    cases hknown
  rw [mem_replay hone, mem_names hv, mem_names (good_observe hv l), hr.created, hr.deleted]
  cases v.get? n <;> cases (v.observe l).2.get? n <;> simp

theorem replay_observeAll {v : TopicView} (hv : Good v) (hseen : v.seen.isSome)
    (ls : List TopicListing) :
    replay v.names (v.observeAll ls).1 = (v.observeAll ls).2.names := by
  induction ls generalizing v with
  | nil => rfl
  | cons l ls ih =>
    rw [observeAll, replay_append, replay_observe hv hseen l]
    exact ih (good_observe hv l) rfl

theorem names_first (first : TopicListing) : (empty.observe first).2.names = first.names := by
  ext n
  have hget : (empty.observe first).2.get? n = first.described? n := by
    rw [get?_observe]
    simp [empty, get?]
  rw [mem_names (good_observe good_empty first), hget, TopicListing.described?]
  by_cases hn : n.isInternal = true
  · simp [TopicListing.names, hn]
  · simp [TopicListing.names, hn]

end Replayed

theorem follows_observe {v : TopicView} (hv : Good v) (l : TopicListing) :
    Follows v l (v.observe l).2 where
  get := get?_observe v l
  topics := fun _ => mem_topics (good_observe hv l)
  once := nodup_topics (good_observe hv l)
  shown := fun t ht =>
    (good_observe hv l _ rfl).shown t.name.text t ((mem_topics (good_observe hv l)).1 ht)

/-- What is in every listing, if only as unavailable, stays known and is not reported deleted. -/
theorem not_deleted_of_listed {v : TopicView} (hv : Good v) {n : TopicName}
    (hknown : (v.get? n).isSome) {ls : List TopicListing}
    (hlisted : ∀ l ∈ ls, (l.described? n).isSome ∨ n ∈ l.unavailable) :
    .kafkaTopicDeleted n ∉ (v.observeAll ls).1 := by
  -- Each listing keeps the name known, which is what the next one builds on.
  induction ls generalizing v with
  | nil => simp [observeAll]
  | cons l ls ih =>
    have hseen : v.seen.isSome := by
      obtain ⟨t, ht⟩ := Option.isSome_iff_exists.1 hknown
      obtain ⟨m, hm, _⟩ := Option.bind_eq_some_iff.1 ht
      simp [hm]
    have hstill : ((v.observe l).2.get? n).isSome := by
      rw [get?_observe, Option.isSome_or]
      rcases hlisted l (.head _) with h | h <;> simp [h, hknown]
    have hnow : .kafkaTopicDeleted n ∉ (v.observe l).1 := by
      intro hd
      rw [(((reports_observe hv hseen l).deleted n).1 hd).2] at hstill
      cases hstill
    have hlater := ih (good_observe hv l) hstill fun l' hl' => hlisted l' (.tail _ hl')
    simp only [observeAll, List.mem_append, not_or]
    exact ⟨hnow, hlater⟩

/-- For every sequence of listings: each is followed by the view that it calls for; the first gives
no trigger, and each later one reports on every name that it makes a difference to; the names of the
first listing, changed as reported, are those in the view; and a topic once known is not reported
deleted as long as it is described or listed as unavailable. -/
theorem triggers_of_listings (first : TopicListing) (ls : List TopicListing) (l : TopicListing)
    (later : List TopicListing) :
    let v := (empty.observeAll (first :: ls)).2
    Follows empty first (empty.observe first).2 ∧ Follows v l (v.observe l).2 ∧
      (empty.observe first).1 = [] ∧ Reports v (v.observe l).2 (v.observe l).1 ∧
      replay first.names (empty.observeAll (first :: ls)).1 = v.names ∧
      ∀ n, (v.get? n).isSome → (∀ l ∈ later, (l.described? n).isSome ∨ n ∈ l.unavailable) →
        .kafkaTopicDeleted n ∉ (v.observeAll later).1 := by
  intro v
  have hv : Good v := good_observeAll good_empty _
  have hfirst : Good (empty.observe first).2 := good_observe good_empty first
  have hseen : v.seen.isSome := isSome_seen_observeAll rfl ls
  refine ⟨follows_observe good_empty first, follows_observe hv l, rfl, reports_observe hv hseen l,
    ?_, fun _ hknown hlisted => not_deleted_of_listed hv hknown hlisted⟩
  rw [← names_first first]
  exact replay_observeAll hfirst rfl ls

/-- The topic `orders` as the brokers describe it. -/
def orders : Topic := { Plan.ordersStored with config := .empty, labels := none }

/-- While its leader is elected, the topic is not reported deleted; once it is in no listing, it
is. -/
theorem triggers_of_listings_orders :
    let v := (empty.observeAll [⟨[orders], []⟩]).2
    (v.get? orders.name).isSome ∧
      .kafkaTopicDeleted orders.name ∉ (v.observeAll [⟨[], [orders.name]⟩]).1 ∧
      .kafkaTopicDeleted orders.name ∈ (v.observe ⟨[], []⟩).1 := by
  obtain ⟨_, _, _, hreports, _, hlisted⟩ :=
    triggers_of_listings ⟨[orders], []⟩ [] ⟨[], []⟩ [⟨[], [orders.name]⟩]
  exact ⟨by decide, hlisted orders.name (by decide) (by simp),
    (hreports.deleted orders.name).2 (by decide)⟩

end TopicView

end TopicSync
