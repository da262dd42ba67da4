import Mathlib.Data.List.Nodup
import TopicSync.Proofs.Broker.Presence
import TopicSync.Proofs.Plan.Merge

/-!
The two ways to look at the topics of the brokers. As long as the brokers answer the same, what a
description of all topics tells of one is what a read of this topic finds: the same snapshot, none,
or a failure if the topic cannot be described now. Only internal topics are read but not described.
-/
namespace TopicSync.Admin

variable {σ : Type} {answer : (c : WireCall) → σ → c.Answer × σ} {settled : σ → Prop} {s s' : σ}
  {t : BrokerTopic} {name : TopicName} {n : String} {names : List String}
  {metadata : List BrokerTopic} {configs acc : TextMap (TextMap String)}
  {configOf : String → Except BrokerCode (List ConfigEntry)} {listing : TopicListing}

section Configurations

/-- With an answer for each name, a name has the configuration that was answered for it. -/
theorem get?_configsOf (h : configsOf names (names.map configOf) acc = .ok configs) (n : String) :
    configs.get? n = if n ∈ names then ((configOf n).toOption.map dynamicConfig).or (acc.get? n)
      else acc.get? n := by
  induction names generalizing acc with
  | nil =>
    cases h
    simp
  | cons m names ih =>
    rw [List.map_cons] at h
    cases hm : configOf m with
    | ok entries =>
      rw [hm, configsOf] at h
      rw [ih h, TextMap.get?_insert]
      by_cases hn : n = m
      · subst hn
        simp [hm, Except.toOption]
      · simp [hn]
    | error c =>
      rw [hm, configsOf] at h
      split at h
      · rw [ih h]
        by_cases hn : n = m
        · subst hn
          simp [hm, Except.toOption]
        · simp [hn]
      · cases h

theorem isUnknownTopic_of_configOf (h : configsOf names (names.map configOf) acc = .ok configs)
    (hn : n ∈ names) {c : BrokerCode} (hc : configOf n = .error c) : c.isUnknownTopic = true := by
  refine isUnknownTopic_of_configsOf h (n := n) ?_
  rw [← List.map_prod_left_eq_zip]
  exact List.mem_map.2 ⟨n, hn, by rw [hc]⟩

/-- A name that can be asked about along with others can be asked about alone, and gets the same
configuration. -/
theorem configsOf_alone (h : configsOf names (names.map configOf) .empty = .ok configs)
    (hn : n ∈ names) : ∃ alone, configsOf [n] ([n].map configOf) .empty = .ok alone ∧
      alone.get? n = configs.get? n := by
  have hget := get?_configsOf h n
  rw [if_pos hn, TextMap.get?_empty, Option.or_none] at hget
  cases hc : configOf n with
  | ok entries =>
    refine ⟨TextMap.empty.insert n (dynamicConfig entries), by simp [configsOf, hc], ?_⟩
    rw [hget, hc, TextMap.get?_insert, if_pos rfl]
    rfl
  | error c =>
    have hunknown := isUnknownTopic_of_configOf h hn hc
    refine ⟨.empty, by simp [configsOf, hc, hunknown], ?_⟩
    rw [hget, hc]
    rfl

end Configurations

section Entries

theorem mem_snapshots {topic : Topic} (h : topic ∈ snapshots metadata configs) :
    ∃ t ∈ metadata, t.isHealthy = true ∧ ∃ config, configs.get? t.name = some config ∧
      snapshot? t config = some topic := by
  induction metadata generalizing configs with
  | nil => cases h
  | cons u us ih =>
    rw [snapshots] at h
    split at h
    next hu =>
      split at h
      next =>
        obtain ⟨t, ht, hrest⟩ := ih h
        exact ⟨t, .tail _ ht, hrest⟩
      next config hconfig =>
        rcases List.mem_append.1 h with h | h
        · exact ⟨u, .head _, hu, config, hconfig, Option.mem_toList.1 h⟩
        · obtain ⟨t, ht, hh, config', hconfig', hsnapshot⟩ := ih h
          rw [TextMap.get?_erase] at hconfig'
          split at hconfig'
          next => cases hconfig'
          next => exact ⟨t, .tail _ ht, hh, config', hconfig', hsnapshot⟩
    next =>
      obtain ⟨t, ht, hrest⟩ := ih h
      exact ⟨t, .tail _ ht, hrest⟩

theorem of_mem_unavailable (h : name ∈ unavailable metadata) :
    ∃ t ∈ metadata, t.name = name.text ∧ ∃ c, t.error = some c ∧ c.isUnknownTopic = false := by
  simp only [unavailable, List.mem_filterMap, List.mem_filter] at h
  obtain ⟨t, ⟨ht, hstate⟩, hname⟩ := h
  refine ⟨t, ht, TopicName.ofText?_eq_some_iff.1 hname, ?_⟩
  cases herror : t.error with
  | none => simp [BrokerTopic.isHealthy, herror] at hstate
  | some c =>
    refine ⟨c, rfl, ?_⟩
    simpa [BrokerTopic.isHealthy, BrokerTopic.isKnown, herror] using hstate

theorem find?_of_nodup (hdistinct : (metadata.map BrokerTopic.name).Nodup) (ht : t ∈ metadata)
    (hname : t.name = name.text) : metadata.find? (·.name = name.text) = some t := by
  have hsome : (metadata.find? (·.name = name.text)).isSome = true :=
    List.find?_isSome.2 ⟨t, ht, by simp [hname]⟩
  obtain ⟨u, hu⟩ := Option.isSome_iff_exists.1 hsome
  have huname : u.name = name.text := by simpa using List.find?_some hu
  rw [hu, List.inj_on_of_nodup_map hdistinct (List.mem_of_find?_eq_some hu) ht
    (huname.trans hname.symm)]

theorem lists_of_nodup (hdistinct : (metadata.map BrokerTopic.name).Nodup) (ht : t ∈ metadata)
    (hname : t.name = name.text) (hh : t.isHealthy = true) : Lists metadata name t := by
  have herror : t.error = none := Option.isNone_iff_eq_none.1 hh
  exact ⟨find?_of_nodup hdistinct ht hname, by simp [BrokerTopic.isKnown, herror]⟩

theorem lookup_eq_error_iff {e : BrokerError} :
    lookup metadata name.text = .error e ↔
      ∃ t c, metadata.find? (·.name = name.text) = some t ∧ t.error = some c ∧
        c.isUnknownTopic = false ∧ e = c.error name.text := by
  rw [lookup]
  cases hf : metadata.find? (·.name = name.text) with
  | none => simp
  | some t =>
    cases he : t.error with
    | none => simp [he]
    | some c =>
      by_cases hc : c.isUnknownTopic = true
      · simp [he, hc]
      · simp [he, hc, @eq_comm _ (c.error name.text)]

end Entries

/-- The brokers list the same topics whenever they are asked, and for each name they have the same
configuration, or the same error. -/
structure Steady (answer : (c : WireCall) → σ → c.Answer × σ) (settled : σ → Prop)
    (metadata : List BrokerTopic) (configOf : String → Except BrokerCode (List ConfigEntry)) :
    Prop where
  metadata : ∀ s, settled s → (answer .metadata s).1 = .ok metadata
  configs : ∀ s names, settled s →
    (answer (.describeConfigs names) s).1 = .ok (names.map configOf)
  kept : ∀ s, settled s → settled (answer .metadata s).2

namespace Steady

variable (h : Steady answer settled metadata configOf)
include h

theorem run_describeConfigs (hs : settled s) (names : List String) :
    ((describeConfigs names).run answer s).1 = configsOf names (names.map configOf) .empty := by
  cases names with
  | nil => rfl
  | cons n names =>
    change ((_ : Talk _).run answer (answer (.describeConfigs (n :: names)) s).2).1 = _
    rw [h.configs s (n :: names) hs]
    rfl

theorem run_read (hs : settled s) (name : TopicName) :
    ((read name).run answer s).1 =
      match lookup metadata name.text with
      | .error e => failed e
      | .ok false => .ok none
      | .ok true =>
        match configsOf [name.text] ([name.text].map configOf) .empty with
        | .error e => failed e
        | .ok configs => .ok ((snapshots metadata configs).find? (·.name = name)) := by
  have hmetadata : answer .metadata s = (.ok metadata, (answer .metadata s).2) :=
    Prod.ext (h.metadata s hs) rfl
  rw [read, run_metadata hmetadata]
  dsimp only
  cases lookup metadata name.text with
  | error e => rfl
  | ok listed =>
    cases listed with
    | false => rfl
    | true =>
      dsimp only
      rw [run_describeConfigs_bind, h.run_describeConfigs (h.kept s hs)]
      cases configsOf [name.text] ([name.text].map configOf) .empty <;> rfl

theorem of_run_describe (hs : settled s) (hl : (describe.run answer s).1 = .ok listing) :
    ∃ configs, configsOf (describable metadata) ((describable metadata).map configOf) .empty =
        .ok configs ∧ listing = ⟨snapshots metadata configs, unavailable metadata⟩ := by
  obtain ⟨listed, s₁, configs, hmetadata, hconfigs, rfl⟩ := run_describe_eq_ok hl
  have hsame : (.ok listed : WireCall.metadata.Answer) = .ok metadata := by
    rw [← h.metadata s hs, hmetadata]
  have hs₁ : settled s₁ := by simpa [hmetadata] using h.kept s hs
  cases hsame
  rw [h.run_describeConfigs hs₁] at hconfigs
  exact ⟨configs, hconfigs, rfl⟩

/-- A topic that is neither internal nor unavailable is read as it has been described. -/
theorem read_of_describe (hdistinct : (metadata.map BrokerTopic.name).Nodup) (hs : settled s)
    (hs' : settled s') (hl : (describe.run answer s).1 = .ok listing)
    (hasked : name.isInternal = false) (havailable : name ∉ listing.unavailable) :
    ((read name).run answer s').1 = .ok (listing.topics.find? (·.name = name)) := by
  obtain ⟨configs, hconfigs, rfl⟩ := h.of_run_describe hs hl
  rw [h.run_read hs']
  cases hlookup : lookup metadata name.text with
  | error e =>
    obtain ⟨t, c, ht, hc, hknown, -⟩ := lookup_eq_error_iff.1 hlookup
    have hname : t.name = name.text := by simpa using List.find?_some ht
    exact absurd (mem_unavailable (List.mem_of_find?_eq_some ht) hname
      (by simp [BrokerTopic.isHealthy, hc]) (by simp [BrokerTopic.isKnown, hc, hknown])) havailable
  | ok listed =>
    cases listed with
    | false =>
      cases hfound : (snapshots metadata configs).find? (·.name = name) with
      | none => rfl
      | some topic =>
        have htopic : topic.name = name := by simpa using List.find?_some hfound
        obtain ⟨t, ht, hh, config, -, hsnapshot⟩ :=
          mem_snapshots (List.mem_of_find?_eq_some hfound)
        have hname : t.name = name.text := by rw [← name_of_snapshot? hsnapshot, htopic]
        exact absurd (lists_of_nodup hdistinct ht hname hh) (lookup_eq_ok_false_iff.1 hlookup t)
    | true =>
      obtain ⟨t, ht, hh⟩ := lookup_eq_ok_true_iff.1 hlookup
      have hname : t.name = name.text := by simpa using List.find?_some ht.1
      have hmem : name.text ∈ describable metadata := by
        rw [← hname]
        exact mem_describable (List.mem_of_find?_eq_some ht.1) hh (hname ▸ hasked)
      obtain ⟨alone, halone, hget⟩ := configsOf_alone hconfigs hmem
      dsimp only
      rw [halone]
      dsimp only
      rw [find?_snapshots_of_lists ht hh, find?_snapshots_of_lists ht hh, hget]

/-- A described topic is neither internal nor unavailable, and it is the only one of its name. -/
theorem of_mem_topics (hdistinct : (metadata.map BrokerTopic.name).Nodup) (hs : settled s)
    (hl : (describe.run answer s).1 = .ok listing) {topic : Topic} (ht : topic ∈ listing.topics) :
    topic.name.isInternal = false ∧ topic.name ∉ listing.unavailable ∧
      listing.topics.find? (·.name = topic.name) = some topic := by
  obtain ⟨configs, hconfigs, rfl⟩ := h.of_run_describe hs hl
  obtain ⟨t, hmem, hh, config, hconfig, hsnapshot⟩ := mem_snapshots ht
  have hname : t.name = topic.name.text := (name_of_snapshot? hsnapshot).symm
  have hlists := lists_of_nodup hdistinct hmem hname hh
  refine ⟨?_, fun hu => ?_, ?_⟩
  · have hasked : t.name ∈ describable metadata := by
      by_contra hnot
      rw [get?_configsOf hconfigs, if_neg hnot] at hconfig
      cases hconfig
    rw [hname] at hasked
    simpa [TopicName.isInternal] using (List.mem_filter.1 hasked).2
  · obtain ⟨u, hu, huname, c, hc, -⟩ := of_mem_unavailable hu
    have hsame : u = t :=
      List.inj_on_of_nodup_map hdistinct hu hmem (huname.trans hname.symm)
    rw [hsame] at hc
    simp [BrokerTopic.isHealthy, hc] at hh
  · rw [find?_snapshots_of_lists hlists hh, ← hname, hconfig]
    exact hsnapshot

theorem read_of_unavailable (hdistinct : (metadata.map BrokerTopic.name).Nodup) (hs : settled s)
    (hs' : settled s') (hl : (describe.run answer s).1 = .ok listing)
    (hu : name ∈ listing.unavailable) :
    ∃ t ∈ metadata, t.name = name.text ∧ ∃ c, t.error = some c ∧
      ((read name).run answer s').1 = failed (c.error name.text) := by
  obtain ⟨configs, -, rfl⟩ := h.of_run_describe hs hl
  obtain ⟨t, ht, hname, c, hc, hknown⟩ := of_mem_unavailable hu
  refine ⟨t, ht, hname, c, hc, ?_⟩
  rw [h.run_read hs',
    lookup_eq_error_iff.2 ⟨t, c, find?_of_nodup hdistinct ht hname, hc, hknown, rfl⟩]

end Steady

/-- While the brokers answer the same and list no name twice, the two views agree: each snapshot of
a description is what a read of its topic finds, and a read of a topic that could not be described
fails. Of the topics that are neither internal nor unavailable, no others are found. -/
theorem views_agree (h : Steady answer settled metadata configOf)
    (hdistinct : (metadata.map BrokerTopic.name).Nodup) (hs : settled s) (hs' : settled s')
    (hl : (describe.run answer s).1 = .ok listing) :
    (∀ t ∈ listing.topics, ((read t.name).run answer s').1 = .ok (some t)) ∧
    (∀ name ∈ listing.unavailable, ∃ e, ((read name).run answer s').1 = .error e) ∧
    ∀ name : TopicName, name.isInternal = false → name ∉ listing.unavailable →
      ((read name).run answer s').1 = .ok (listing.topics.find? (·.name = name)) := by
  refine ⟨fun t ht => ?_, fun name hu => ?_, fun name hasked havailable =>
    h.read_of_describe hdistinct hs hs' hl hasked havailable⟩
  · obtain ⟨hasked, havailable, hfound⟩ := h.of_mem_topics hdistinct hs hl ht
    rw [h.read_of_describe hdistinct hs hs' hl hasked havailable, hfound]
  · obtain ⟨t, -, -, c, -, hread⟩ := h.read_of_unavailable hdistinct hs hs' hl hu
    exact ⟨_, hread⟩

end TopicSync.Admin

namespace TopicSync.Memory.FixedBroker

/-- As long as a broker can be reached and has the same topics, it answers the same. -/
theorem steady (b : FixedBroker) :
    Admin.Steady answer (fun s => s.topics = b.topics ∧ s.reachable = true)
      (b.topics.map FixedTopic.metadata) b.configOf where
  metadata := by
    rintro s ⟨ht, hr⟩
    rw [answer, if_pos hr, respond, ht]
  configs := by
    rintro s names ⟨ht, hr⟩
    have hsame : s.configOf = b.configOf := by
      funext name
      rw [configOf, configOf, ht]
    rw [answer, if_pos hr, respond, hsame]
  kept := by
    rintro s ⟨ht, hr⟩
    rw [answer, if_pos hr]
    exact ⟨ht, hr⟩

/-- A broker with a topic that can be described, one that cannot, and an internal one. -/
def electing : FixedBroker where
  topics :=
    [⟨⟨"orders", 3, 1, none⟩, [⟨"a", some "1", .dynamicTopic⟩, ⟨"b", some "2", .default⟩,
      ⟨"c", some "3", .dynamicTopic⟩]⟩,
     ⟨⟨"payments", 1, 1, some ⟨5⟩⟩, []⟩, ⟨⟨"__consumer_offsets", 50, 3, none⟩, []⟩]
  reachable := true
  refusal := none
  requests := []

theorem views_agree_electing :
    ((electing.topics.map FixedTopic.metadata).map BrokerTopic.name).Nodup ∧
    (Admin.describe.run answer electing).1 = .ok ⟨[Plan.ordersKafka], [paymentsName]⟩ ∧
    ((Admin.read ordersName).run answer electing).1 = .ok (some Plan.ordersKafka) ∧
    ∃ e, ((Admin.read paymentsName).run answer electing).1 = .error e := by
  have hdistinct : ((electing.topics.map FixedTopic.metadata).map BrokerTopic.name).Nodup := by
    decide
  have hdescribe : (Admin.describe.run answer electing).1 =
      .ok ⟨[Plan.ordersKafka], [paymentsName]⟩ := by
    rfl
  exact ⟨hdistinct, hdescribe,
    (Admin.views_agree electing.steady hdistinct ⟨rfl, rfl⟩ ⟨rfl, rfl⟩ hdescribe).1 _ (.head _),
    (Admin.views_agree electing.steady hdistinct ⟨rfl, rfl⟩ ⟨rfl, rfl⟩ hdescribe).2.1 _ (.head _)⟩

end TopicSync.Memory.FixedBroker
