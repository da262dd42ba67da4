import TopicSync.Broker.Admin
import TopicSync.Memory.FixedBroker
import TopicSync.Proofs.TextMap
import TopicSync.Proofs.Topic.Name

/-!
When a topic that the brokers list is reported. An entry of the metadata can be lost on the way to
a snapshot for three reasons: the brokers no longer know the topic when its configuration is asked
for, they give no configuration, or the entry's counts are none that a topic can have. A read then
reports the topic as absent, and a description leaves it out.
-/
namespace TopicSync

/-- The counts are those of a topic: at least one partition and one replica, and not too many for
a snapshot. -/
structure BrokerTopic.IsUsable (t : BrokerTopic) : Prop where
  partitions : 0 < t.partitions ∧ t.partitions ≤ 2147483647
  replicas : 0 < t.replicas ∧ t.replicas ≤ 32767

/-- The counts alone decide whether there is a snapshot with them. -/
theorem Topic.exists_create_iff {name : TopicName} {partitions replicas : Int} :
    (∃ t, create name partitions replicas = .ok t) ↔
      (0 < partitions ∧ partitions ≤ 2147483647) ∧ 0 < replicas ∧ replicas ≤ 32767 := by
  by_cases hp : 0 < partitions ∧ partitions ≤ 2147483647
  · by_cases hr : 0 < replicas ∧ replicas ≤ 32767 <;>
      simp [create, PartitionCount.ofInt?, ReplicationFactor.ofInt?, hp, hr]
  · simp [create, PartitionCount.ofInt?, hp]

namespace Admin

variable {t : BrokerTopic} {name : TopicName} {metadata : List BrokerTopic}
  {configs acc : TextMap (TextMap String)} {names : List String}
  {results : List (Except BrokerCode (List ConfigEntry))}

section Snapshots

theorem name_of_snapshot? {config : TextMap String} {topic : Topic}
    (h : snapshot? t config = some topic) : topic.name.text = t.name := by
  rw [snapshot?] at h
  split at h
  · cases h
  next name hname =>
    split at h
    · cases h
    next u hu =>
      cases h
      rw [TopicName.ofText?_eq_some_iff.1 hname]
      rw [Topic.create] at hu
      split at hu
      · cases hu
      · split at hu <;> cases hu
        rfl

/-- A listed topic with a legal name becomes a snapshot exactly if its counts are those of one. -/
theorem snapshot?_isSome_iff (config : TextMap String) (h : t.name = name.text) :
    (snapshot? t config).isSome = true ↔ t.IsUsable := by
  have hcreate : (snapshot? t config).isSome = true ↔
      ∃ topic, Topic.create name t.partitions t.replicas = .ok topic := by
    simp only [snapshot?, TopicName.ofText?_eq_some_iff.2 h]
    cases Topic.create name t.partitions t.replicas <;> simp
  rw [hcreate, Topic.exists_create_iff]
  constructor
  · rintro ⟨hp, hr⟩
    exact ⟨by omega, by omega⟩
  · rintro ⟨hp, hr⟩
    exact ⟨by omega, by omega⟩

/-- The snapshot of a name is that of the first healthy entry for it, if its configuration is
known. -/
theorem find?_snapshots (metadata : List BrokerTopic) (configs : TextMap (TextMap String))
    (name : TopicName) :
    (snapshots metadata configs).find? (·.name = name) =
      (metadata.find? fun t => t.isHealthy && t.name = name.text).bind fun t =>
        (configs.get? name.text).bind (snapshot? t) := by
  induction metadata generalizing configs with
  | nil => rfl
  | cons t ts ih =>
    rw [snapshots]
    by_cases hh : t.isHealthy = true
    · by_cases hn : t.name = name.text
      · simp only [hh, hn, if_true, List.find?_cons_of_pos, Bool.true_and, decide_true]
        cases hc : configs.get? name.text with
        | none => simp [ih, hc]
        | some config =>
          cases hs : snapshot? t config with
          | none => simp [hs, ih, TextMap.get?_erase]
          | some topic =>
            have htopic : topic.name = name :=
              TopicName.ext ((name_of_snapshot? hs).trans hn)
            simp [hs, htopic]
      · have hother : ∀ topic config, snapshot? t config = some topic → topic.name ≠ name := by
          rintro topic config hs rfl
          exact hn (name_of_snapshot? hs).symm
        have hkeep : (configs.erase t.name).get? name.text = configs.get? name.text := by
          rw [TextMap.get?_erase, if_neg (Ne.symm hn)]
        simp only [hh, if_true]
        cases hc : configs.get? t.name with
        | none => simp [ih, hn]
        | some config =>
          cases hs : snapshot? t config with
          | none => simp [hs, ih, hn, hkeep]
          | some topic => simp [hs, ih, hn, hkeep, hother topic config hs]
    · simp only [hh, if_false, Bool.false_eq_true]
      rw [ih]
      simp [hh]

end Snapshots

section Configurations

/-- The topics whose configuration is known in the end are those that had one before and those for
which one was answered. -/
theorem contains_configsOf (h : configsOf names results acc = .ok configs) (n : String) :
    configs.contains n = true ↔
      acc.contains n = true ∨ ∃ entries, (n, .ok entries) ∈ names.zip results := by
  induction names generalizing results acc with
  | nil =>
    cases h
    simp
  | cons m names ih =>
    cases results with
    | nil =>
      cases h
      simp
    | cons result results =>
      cases result with
      | ok entries =>
        rw [configsOf] at h
        rw [ih h]
        by_cases hn : n = m <;> simp [TextMap.contains, hn]
      | error c =>
        rw [configsOf] at h
        split at h
        · rw [ih h]
          simp
        · cases h

/-- Of an answer that is used, only unknown topics have no configuration. -/
theorem isUnknownTopic_of_configsOf (h : configsOf names results acc = .ok configs) {n : String}
    {c : BrokerCode} (hm : (n, .error c) ∈ names.zip results) : c.isUnknownTopic = true := by
  induction names generalizing results acc with
  | nil => simp at hm
  | cons m names ih =>
    cases results with
    | nil => simp at hm
    | cons result results =>
      cases result with
      | ok entries =>
        rw [configsOf] at h
        simp only [List.zip_cons_cons, List.mem_cons, Prod.mk.injEq, reduceCtorEq, and_false,
          false_or] at hm
        exact ih h hm
      | error d =>
        rw [configsOf] at h
        split at h
        next hd =>
          simp only [List.zip_cons_cons, List.mem_cons, Prod.mk.injEq, Except.error.injEq] at hm
          rcases hm with ⟨-, rfl⟩ | hm
          · exact hd
          · exact ih h hm
        · cases h

end Configurations

section Reads

variable {σ : Type} {answer : (c : WireCall) → σ → c.Answer × σ} {s s₁ : σ}

/-- The brokers list the topic: the first entry of its name does not say that it is unknown. -/
def Lists (metadata : List BrokerTopic) (name : TopicName) (t : BrokerTopic) : Prop :=
  metadata.find? (·.name = name.text) = some t ∧ t.isKnown = true

/-- The ways in which a listed topic is left without a snapshot, by what is answered about the
configurations of the topics that are asked about. -/
inductive Lost (name : TopicName) (t : BrokerTopic)
    (answers : List (String × Except BrokerCode (List ConfigEntry))) : Prop where
  | unanswered (h : ∀ result, (name.text, result) ∉ answers)
  | unknown (c : BrokerCode) (h : (name.text, .error c) ∈ answers) (hc : c.isUnknownTopic = true)
  | unusable (entries : List ConfigEntry) (h : (name.text, .ok entries) ∈ answers)
      (hcounts : ¬ t.IsUsable)

theorem lookup_eq_ok_false_iff :
    lookup metadata name.text = .ok false ↔ ∀ t, ¬ Lists metadata name t := by
  rw [lookup]
  cases hf : metadata.find? (·.name = name.text) with
  | none => simp [Lists, hf]
  | some t =>
    cases he : t.error with
    | none => simp [Lists, hf, BrokerTopic.isKnown, he]
    | some c =>
      by_cases hc : c.isUnknownTopic = true <;> simp [Lists, hf, BrokerTopic.isKnown, he, hc]

theorem lookup_eq_ok_true_iff :
    lookup metadata name.text = .ok true ↔
      ∃ t, Lists metadata name t ∧ t.isHealthy = true := by
  rw [lookup]
  cases hf : metadata.find? (·.name = name.text) with
  | none => simp [Lists, hf]
  | some t =>
    cases he : t.error with
    | none =>
      have hlisted : Lists metadata name t := ⟨hf, by simp [BrokerTopic.isKnown, he]⟩
      have hhealthy : t.isHealthy = true := by simp [BrokerTopic.isHealthy, he]
      simp only [he]
      exact ⟨fun _ => ⟨t, hlisted, hhealthy⟩, fun _ => trivial⟩
    | some c =>
      by_cases hc : c.isUnknownTopic = true <;>
        simp [Lists, hf, BrokerTopic.isKnown, BrokerTopic.isHealthy, he, hc]

/-- The snapshot of a listed topic from the answers about the configurations. -/
theorem find?_snapshots_of_lists (h : Lists metadata name t) (hh : t.isHealthy = true)
    (configs : TextMap (TextMap String)) :
    (snapshots metadata configs).find? (·.name = name) =
      (configs.get? name.text).bind (snapshot? t) := by
  have hfirst : metadata.find? (fun t => t.isHealthy && t.name = name.text) = some t := by
    obtain ⟨ht, before, after, rfl, hbefore⟩ := List.find?_eq_some_iff_append.1 h.1
    refine List.find?_eq_some_iff_append.2 ⟨by simpa [hh] using ht, before, after, rfl, ?_⟩
    intro u hu
    have hother := hbefore u hu
    simp only [Bool.not_eq_true', decide_eq_false_iff_not] at hother
    simp [hother]
  rw [find?_snapshots, hfirst]
  rfl

/-- A topic whose counts and whose configuration are known gets a snapshot; so a topic without one
is lost. -/
theorem lost_of_configsOf (hname : t.name = name.text)
    (h : configsOf names results .empty = .ok configs)
    (hnone : (configs.get? name.text).bind (snapshot? t) = none) :
    Lost name t (names.zip results) := by
  cases hc : configs.get? name.text with
  | none =>
    have hno : ¬ ∃ entries, (name.text, .ok entries) ∈ names.zip results := by
      intro hanswered
      have hcontains := (contains_configsOf h name.text).2 (.inr hanswered)
      simp [TextMap.contains, hc] at hcontains
    by_cases hany : ∃ result, (name.text, result) ∈ names.zip results
    · obtain ⟨result, hm⟩ := hany
      cases result with
      | ok entries => exact absurd ⟨entries, hm⟩ hno
      | error c => exact .unknown c hm (isUnknownTopic_of_configsOf h hm)
    · exact .unanswered fun result hm => hany ⟨result, hm⟩
  | some config =>
    have hcontains : configs.contains name.text = true := by simp [TextMap.contains, hc]
    rcases (contains_configsOf h name.text).1 hcontains with hempty | ⟨entries, hm⟩
    · cases hempty
    · refine .unusable entries hm fun husable => ?_
      have hsome := (snapshot?_isSome_iff config hname).2 husable
      rw [hc, Option.bind_some] at hnone
      simp [hnone] at hsome

theorem exists_configsOf_of_lost (hname : t.name = name.text)
    (hlost : Lost name t ([name.text].zip results)) :
    ∃ configs, configsOf [name.text] results .empty = .ok configs ∧
      (configs.get? name.text).bind (snapshot? t) = none := by
  cases results with
  | nil => exact ⟨.empty, rfl, rfl⟩
  | cons result results =>
    have hzip : [name.text].zip (result :: results) = [(name.text, result)] := rfl
    rw [hzip] at hlost
    cases hlost with
    | unanswered h => exact absurd (List.mem_singleton.2 rfl) (h result)
    | unknown c h hc =>
      cases List.mem_singleton.1 h
      exact ⟨.empty, by simp [configsOf, hc], rfl⟩
    | unusable entries h hcounts =>
      cases List.mem_singleton.1 h
      refine ⟨_, rfl, ?_⟩
      have hnone : snapshot? t (dynamicConfig entries) = none :=
        Option.not_isSome_iff_eq_none.1 fun hsome =>
          hcounts ((snapshot?_isSome_iff _ hname).1 hsome)
      simpa using hnone

theorem run_describeConfigs_eq_ok_iff (hne : names ≠ []) :
    ((describeConfigs names).run answer s).1 = .ok configs ↔
      ∃ results, (answer (.describeConfigs names) s).1 = .ok results ∧
        configsOf names results .empty = .ok configs := by
  have hnonempty : names.isEmpty = false := by simp [hne]
  rw [describeConfigs, hnonempty]
  change ((_ : Talk _).run answer (answer (.describeConfigs names) s).2).1 = _ ↔ _
  cases (answer (.describeConfigs names) s).1 with
  | error e => simp [Program.bind]
  | ok results => simp [Program.bind]

theorem run_metadata {α : Type} {listed : WireCall.metadata.Answer}
    (h : answer .metadata s = (listed, s₁)) (f : WireCall.metadata.Answer → Talk α) :
    ((send .metadata).bind f).run answer s = (f listed).run answer s₁ := by
  change (f (answer .metadata s).1).run answer (answer .metadata s).2 = _
  rw [h]

theorem run_describeConfigs_bind {α : Type}
    (f : Except BrokerError (TextMap (TextMap String)) → Talk α) :
    ((describeConfigs names).bind f).run answer s =
      (f ((describeConfigs names).run answer s).1).run answer
        ((describeConfigs names).run answer s).2 :=
  Program.run_bind answer _ f s

/-- The ways in which a read of listed topics ends with none. -/
theorem run_read_eq_none_iff (hmetadata : answer .metadata s = (.ok metadata, s₁)) :
    ((read name).run answer s).1 = .ok none ↔
      lookup metadata name.text = .ok false ∨
        lookup metadata name.text = .ok true ∧
          ∃ configs, ((describeConfigs [name.text]).run answer s₁).1 = .ok configs ∧
            (snapshots metadata configs).find? (·.name = name) = none := by
  rw [read, run_metadata hmetadata]
  dsimp only
  cases lookup metadata name.text with
  | error e => simp [failed]
  | ok listed =>
    cases listed with
    | false => simp
    | true =>
      dsimp only
      rw [run_describeConfigs_bind]
      cases ((describeConfigs [name.text]).run answer s₁).1 <;> simp [failed]

/-- A read reports the topic as absent exactly if the brokers do not list it, or list it without an
error but lose it on the way to a snapshot. -/
theorem read_eq_none_iff :
    ((read name).run answer s).1 = .ok none ↔
      ∃ metadata s₁, answer .metadata s = (.ok metadata, s₁) ∧
        ((∀ t, ¬ Lists metadata name t) ∨
          ∃ t, Lists metadata name t ∧ t.isHealthy = true ∧
            ∃ results, (answer (.describeConfigs [name.text]) s₁).1 = .ok results ∧
              Lost name t ([name.text].zip results)) := by
  constructor
  · intro h
    cases hlisted : (answer .metadata s).1 with
    | error e =>
      rw [read, run_metadata (Prod.ext hlisted rfl)] at h
      cases h
    | ok metadata =>
      have hmetadata : answer .metadata s = (.ok metadata, (answer .metadata s).2) :=
        Prod.ext hlisted rfl
      refine ⟨metadata, _, hmetadata, ?_⟩
      rcases (run_read_eq_none_iff hmetadata).1 h with hfalse | ⟨htrue, configs, hconfigs, hnone⟩
      · exact .inl (lookup_eq_ok_false_iff.1 hfalse)
      · obtain ⟨t, ht, hh⟩ := lookup_eq_ok_true_iff.1 htrue
        obtain ⟨results, hresults, hof⟩ :=
          (run_describeConfigs_eq_ok_iff (List.cons_ne_nil _ _)).1 hconfigs
        rw [find?_snapshots_of_lists ht hh] at hnone
        have hname : t.name = name.text := by simpa using List.find?_some ht.1
        exact .inr ⟨t, ht, hh, results, hresults, lost_of_configsOf hname hof hnone⟩
  · rintro ⟨metadata, s₁, hmetadata, hunlisted | ⟨t, ht, hh, results, hresults, hlost⟩⟩
    · exact (run_read_eq_none_iff hmetadata).2 (.inl (lookup_eq_ok_false_iff.2 hunlisted))
    · have hname : t.name = name.text := by simpa using List.find?_some ht.1
      obtain ⟨configs, hof, hnone⟩ := exists_configsOf_of_lost hname hlost
      have hconfigs : ((describeConfigs [name.text]).run answer s₁).1 = .ok configs :=
        (run_describeConfigs_eq_ok_iff (List.cons_ne_nil _ _)).2 ⟨results, hresults, hof⟩
      refine (run_read_eq_none_iff hmetadata).2
        (.inr ⟨lookup_eq_ok_true_iff.2 ⟨t, ht, hh⟩, configs, hconfigs, ?_⟩)
      rw [find?_snapshots_of_lists ht hh]
      exact hnone

/-- The ways in which a description succeeds. -/
theorem run_describe_eq_ok {listing : TopicListing}
    (h : (describe.run answer s).1 = .ok listing) :
    ∃ (metadata : List BrokerTopic) (s₁ : σ) (configs : TextMap (TextMap String)),
      answer .metadata s = (.ok metadata, s₁) ∧
        ((describeConfigs (describable metadata)).run answer s₁).1 = .ok configs ∧
        listing = ⟨snapshots metadata configs, unavailable metadata⟩ := by
  rw [describe] at h
  cases hlisted : (answer .metadata s).1 with
  | error e =>
    rw [run_metadata (Prod.ext hlisted rfl)] at h
    cases h
  | ok metadata =>
    have hmetadata : answer .metadata s = (.ok metadata, (answer .metadata s).2) :=
      Prod.ext hlisted rfl
    rw [run_metadata hmetadata] at h
    dsimp only at h
    rw [run_describeConfigs_bind] at h
    cases hconfigs : ((describeConfigs (describable metadata)).run answer
        (answer .metadata s).2).1 with
    | error e =>
      rw [hconfigs] at h
      cases h
    | ok configs =>
      rw [hconfigs] at h
      cases h
      exact ⟨metadata, _, configs, hmetadata, hconfigs, rfl⟩

theorem mem_describable (h : t ∈ metadata) (hh : t.isHealthy = true)
    (hinternal : Text.startsWith "__" t.name = false) : t.name ∈ describable metadata := by
  simp only [describable, List.mem_filter, List.mem_map]
  exact ⟨⟨t, ⟨h, hh⟩, rfl⟩, by simp [hinternal]⟩

theorem mem_unavailable (h : t ∈ metadata) (hname : t.name = name.text)
    (hh : t.isHealthy = false) (hk : t.isKnown = true) : name ∈ unavailable metadata := by
  simp only [unavailable, List.mem_filterMap, List.mem_filter]
  exact ⟨t, ⟨h, by simp [hh, hk]⟩, TopicName.ofText?_eq_some_iff.2 hname⟩

/-- A description that succeeds leaves out a topic that the brokers list, unless it is an internal
one, only if it loses the first healthy entry for it on the way to a snapshot. -/
theorem describe_complete {listing : TopicListing}
    (h : (describe.run answer s).1 = .ok listing) :
    ∃ (metadata : List BrokerTopic) (s₁ : σ), answer .metadata s = (.ok metadata, s₁) ∧
      ∀ t ∈ metadata, ∀ name : TopicName, t.name = name.text → t.isKnown = true →
        Text.startsWith "__" name.text = false →
        (∃ topic ∈ listing.topics, topic.name = name) ∨ name ∈ listing.unavailable ∨
          ∃ u, metadata.find? (fun u => u.isHealthy && u.name = name.text) = some u ∧
            ∃ results, (answer (.describeConfigs (describable metadata)) s₁).1 = .ok results ∧
              Lost name u ((describable metadata).zip results) := by
  obtain ⟨metadata, s₁, configs, hmetadata, hconfigs, rfl⟩ := run_describe_eq_ok h
  refine ⟨metadata, s₁, hmetadata, fun t ht name hname hk hinternal => ?_⟩
  cases hh : t.isHealthy with
  | false => exact .inr (.inl (mem_unavailable ht hname hh hk))
  | true =>
    cases hfound : (snapshots metadata configs).find? (·.name = name) with
    | some topic =>
      exact .inl ⟨topic, List.mem_of_find?_eq_some hfound, by simpa using List.find?_some hfound⟩
    | none =>
      have hfirst : (metadata.find? fun u => u.isHealthy && u.name = name.text).isSome = true :=
        List.find?_isSome.2 ⟨t, ht, by simp [hh, hname]⟩
      obtain ⟨u, hu⟩ := Option.isSome_iff_exists.1 hfirst
      have hun : u.name = name.text := by
        have hboth := List.find?_some hu
        simp only [Bool.and_eq_true, decide_eq_true_eq] at hboth
        exact hboth.2
      have hasked : describable metadata ≠ [] :=
        List.ne_nil_of_mem (mem_describable ht hh (hname ▸ hinternal))
      obtain ⟨results, hresults, hof⟩ := (run_describeConfigs_eq_ok_iff hasked).1 hconfigs
      rw [find?_snapshots, hu, Option.bind_some] at hfound
      exact .inr (.inr ⟨u, hu, results, hresults, lost_of_configsOf hun hof hfound⟩)

/-- What is reported as absent, or left out of a description, although the brokers answered:
topics that they do not list, and listed topics whose configuration they do not give or whose
counts are not those of a topic. -/
theorem absence_explained (answer : (c : WireCall) → σ → c.Answer × σ) (s : σ) :
    (∀ name : TopicName, ((read name).run answer s).1 = .ok none ↔
      ∃ metadata s₁, answer .metadata s = (.ok metadata, s₁) ∧
        ((∀ t, ¬ Lists metadata name t) ∨
          ∃ t, Lists metadata name t ∧ t.isHealthy = true ∧
            ∃ results, (answer (.describeConfigs [name.text]) s₁).1 = .ok results ∧
              Lost name t ([name.text].zip results))) ∧
    ∀ listing : TopicListing, (describe.run answer s).1 = .ok listing →
      ∃ (metadata : List BrokerTopic) (s₁ : σ), answer .metadata s = (.ok metadata, s₁) ∧
        ∀ t ∈ metadata, ∀ name : TopicName, t.name = name.text → t.isKnown = true →
          Text.startsWith "__" name.text = false →
          (∃ topic ∈ listing.topics, topic.name = name) ∨ name ∈ listing.unavailable ∨
            ∃ u, metadata.find? (fun u => u.isHealthy && u.name = name.text) = some u ∧
              ∃ results, (answer (.describeConfigs (describable metadata)) s₁).1 = .ok results ∧
                Lost name u ((describable metadata).zip results) :=
  ⟨fun _ => read_eq_none_iff, fun _ h => describe_complete h⟩

end Reads

end Admin

namespace Memory.FixedBroker

/-- A broker that lists a topic of which it counts no partition, and one without a leader. -/
def counting : FixedBroker where
  topics := [⟨⟨"orders", 0, 0, none⟩, []⟩, ⟨⟨"payments", 3, 1, some ⟨5⟩⟩, []⟩]
  reachable := true
  refusal := none
  requests := []

def ordersName : TopicName := ⟨"orders", rfl⟩

def paymentsName : TopicName := ⟨"payments", by decide⟩

theorem absence_explained_counting :
    (Admin.describe.run answer counting).1 = .ok ⟨[], [paymentsName]⟩ ∧
      ∃ u results, u.name = "orders" ∧ Admin.Lost ordersName u (["orders"].zip results) := by
  have hdescribe : (Admin.describe.run answer counting).1 = .ok ⟨[], [paymentsName]⟩ := rfl
  refine ⟨hdescribe, ?_⟩
  obtain ⟨metadata, s₁, hmetadata, hlisted⟩ :=
    (Admin.absence_explained answer counting).2 _ hdescribe
  cases hmetadata
  rcases hlisted ⟨"orders", 0, 0, none⟩ (.head _) ordersName rfl rfl (by decide) with
    ⟨topic, hm, -⟩ | hunavailable | ⟨u, hu, results, -, hlost⟩
  · cases hm
  · exact absurd hunavailable (by decide)
  · have huname : u = ⟨"orders", 0, 0, none⟩ := (Option.some.inj hu).symm
    exact ⟨u, results, huname ▸ rfl, hlost⟩

/-- A topic that the brokers list without an error, and whose configuration they give, is reported
as absent by a read, and is nowhere in a description. -/
theorem listed_topic_absent :
    Admin.Lists (counting.topics.map FixedTopic.metadata) ordersName ⟨"orders", 0, 0, none⟩ ∧
      counting.configOf "orders" = .ok [] ∧
      ((Admin.read ordersName).run answer counting).1 = .ok none ∧
      (Admin.describe.run answer counting).1 = .ok ⟨[], [paymentsName]⟩ :=
  ⟨⟨rfl, rfl⟩, rfl, rfl, rfl⟩

end Memory.FixedBroker

end TopicSync
