import TopicSync.Proofs.Json.Fields
import TopicSync.Proofs.Json.RoundTrip
import TopicSync.Store.ConfigMap

/-!
ConfigMaps as documents. What clients write of one is its labels, its annotations and its data; with
a name and perhaps a version beside these it is read as it was written.
-/
namespace TopicSync

/-- What clients write of a ConfigMap. -/
structure MapContent where
  labels : Option (TextMap String)
  annotations : Option (TextMap String)
  data : Option (TextMap String)
  deriving DecidableEq, Repr

def ConfigMap.content (m : ConfigMap) : MapContent :=
  ⟨m.metadata.labels, m.metadata.annotations, m.data⟩

namespace MapContent

/-- The ConfigMap with a content of which nothing else is known than its name and its version. -/
def named (c : MapContent) (name : String) (version : Option String) : ConfigMap where
  metadata := { Metadata.empty with
    annotations := c.annotations
    labels := c.labels
    name := some name
    resourceVersion := version }
  data := c.data

variable (c : MapContent) (name : String) (version : Option String)

@[simp] theorem content_named : (c.named name version).content = c := rfl

/-- The members of the metadata. -/
def metadataMembers : List (String × Json) :=
  Json.memberOf "annotations" Json.ofMap c.annotations ++
    Json.memberOf "labels" Json.ofMap c.labels ++
    [("name", .string name)] ++
    Json.memberOf "resourceVersion" .string version

theorem toJson_metadata : (c.named name version).metadata.toJson =
    .object (c.metadataMembers name version) := by
  simp [Metadata.toJson, named, Metadata.empty, metadataMembers, Json.memberOf]

theorem nodup_metadataMembers : ((c.metadataMembers name version).map (·.1)).Nodup := by
  cases ha : c.annotations <;> cases hl : c.labels <;> cases version <;>
    simp [metadataMembers, Json.memberOf, ha, hl]

theorem mem_metadataMembers {m : String × Json} (h : m ∈ c.metadataMembers name version) :
    m.1 ∈ ["annotations", "labels", "name", "resourceVersion"] := by
  simp only [metadataMembers, List.mem_append, List.mem_singleton, Json.mem_memberOf] at h
  rcases h with ((⟨_, -, rfl⟩ | ⟨_, -, rfl⟩) | rfl) | ⟨_, -, rfl⟩ <;> simp

theorem ofJson?_metadata : Metadata.ofJson? (c.named name version).metadata.toJson =
    some (c.named name version).metadata := by
  have hdistinct := c.nodup_metadataMembers name version
  have hannotations : Json.lastGiven? (c.metadataMembers name version) "annotations"
      Json.asTextMap? = some c.annotations := by
    refine Json.lastGiven?_of_written Json.ofMap hdistinct ?_
      Json.asOption?_asTextMap?
    simp [metadataMembers, Json.lastOf_append, Json.lastOf_memberOf, Json.lastOf]
  have hlabels : Json.lastGiven? (c.metadataMembers name version) "labels"
      Json.asTextMap? = some c.labels := by
    refine Json.lastGiven?_of_written Json.ofMap hdistinct ?_
      Json.asOption?_asTextMap?
    simp [metadataMembers, Json.lastOf_append, Json.lastOf_memberOf, Json.lastOf]
  have hname : Json.lastGiven? (c.metadataMembers name version) "name" Json.asString? =
      some (some name) := by
    refine Json.lastGiven?_of_written .string hdistinct ?_ fun _ => rfl
    simp [metadataMembers, Json.lastOf_append, Json.lastOf_memberOf, Json.lastOf]
  have hversion : Json.lastGiven? (c.metadataMembers name version) "resourceVersion"
      Json.asString? = some version := by
    refine Json.lastGiven?_of_written .string hdistinct ?_ fun _ => rfl
    cases version <;> simp [metadataMembers, Json.lastOf_append, Json.lastOf_memberOf, Json.lastOf]
  have habsent : ∀ {α : Type} {other : String} {f : Json → Option α},
      other ∉ ["annotations", "labels", "name", "resourceVersion"] →
      Json.lastGiven? (c.metadataMembers name version) other f = some none := by
    intro α other f h
    refine Json.lastGiven?_of_not_mem (fun hmem => h ?_) f
    obtain ⟨m, hm, rfl⟩ := List.mem_map.1 hmem
    exact c.mem_metadataMembers name version hm
  rw [toJson_metadata]
  -- The members in the order in which they are read.
  refine Option.bind_eq_some_iff.2 ⟨_, hannotations, ?_⟩
  iterate 6 refine Option.bind_eq_some_iff.2 ⟨_, habsent (by decide), ?_⟩
  refine Option.bind_eq_some_iff.2 ⟨_, hlabels, ?_⟩
  refine Option.bind_eq_some_iff.2 ⟨_, habsent (by decide), ?_⟩
  refine Option.bind_eq_some_iff.2 ⟨_, hname, ?_⟩
  iterate 2 refine Option.bind_eq_some_iff.2 ⟨_, habsent (by decide), ?_⟩
  refine Option.bind_eq_some_iff.2 ⟨_, hversion, ?_⟩
  iterate 2 refine Option.bind_eq_some_iff.2 ⟨_, habsent (by decide), ?_⟩
  rfl

/-- The members of the document, in its order. -/
def members : List (String × Json) :=
  [("apiVersion", .string "v1"), ("kind", .string "ConfigMap")] ++
    Json.memberOf "data" Json.ofMap c.data ++
    [("metadata", (c.named name version).metadata.toJson)]

theorem nodup_members : ((c.members name version).map (·.1)).Nodup := by
  cases hd : c.data <;> simp [members, Json.memberOf, hd]

theorem mem_members {m : String × Json} (h : m ∈ c.members name version) :
    m.1 ∈ ["apiVersion", "kind", "data", "metadata"] := by
  simp only [members, List.mem_append, List.mem_cons, List.not_mem_nil, or_false,
    Json.mem_memberOf] at h
  rcases h with ((rfl | rfl) | ⟨_, -, rfl⟩) | rfl <;> simp

/-- A ConfigMap is read as it was written. -/
theorem ofJson?_named :
    ConfigMap.ofJson? (c.named name version).toJson = some (c.named name version) := by
  have hdistinct := c.nodup_members name version
  have hkind : ∀ word f, Json.lastOf word (c.members name version) = some (.string f) →
      Json.lastRead? (c.members name version) word (Json.asWord? f) = some (some ()) := by
    intro word f h
    rw [Json.lastRead?_of_nodup hdistinct, h]
    simp [Json.asWord?]
  have hfirst := hkind "apiVersion" "v1" (by
    simp [members, Json.lastOf_append, Json.lastOf_memberOf, Json.lastOf])
  have hsecond := hkind "kind" "ConfigMap" (by
    simp [members, Json.lastOf_append, Json.lastOf_memberOf, Json.lastOf])
  have hdata : Json.lastGiven? (c.members name version) "data" Json.asTextMap? = some c.data := by
    refine Json.lastGiven?_of_written Json.ofMap hdistinct ?_
      Json.asOption?_asTextMap?
    cases h : c.data <;> simp [members, h, Json.lastOf_append, Json.lastOf_memberOf, Json.lastOf]
  have hmetadata : Json.lastGiven? (c.members name version) "metadata" Metadata.ofJson? =
      some (some (c.named name version).metadata) := by
    have hlast : Json.lastOf "metadata" (c.members name version) =
        some (c.named name version).metadata.toJson := by
      simp [members, Json.lastOf_append, Json.lastOf_memberOf, Json.lastOf]
    have hread := c.ofJson?_metadata name version
    rw [toJson_metadata] at hlast hread
    rw [Json.lastGiven?_of_nodup hdistinct, hlast]
    simp only [Json.asOption?, hread, Option.map_some]
  have habsent : ∀ {α : Type} {other : String} {f : Json → Option α},
      other ∉ ["apiVersion", "kind", "data", "metadata"] →
      Json.lastGiven? (c.members name version) other f = some none := by
    intro α other f h
    refine Json.lastGiven?_of_not_mem (fun hmem => h ?_) f
    obtain ⟨m, hm, rfl⟩ := List.mem_map.1 hmem
    exact c.mem_members name version hm
  have htext : (c.named name version).toJson = .object (c.members name version) := rfl
  rw [htext]
  refine Option.bind_eq_some_iff.2 ⟨_, hfirst, ?_⟩
  refine Option.bind_eq_some_iff.2 ⟨_, hsecond, ?_⟩
  iterate 2 refine Option.bind_eq_some_iff.2 ⟨_, habsent (by decide), ?_⟩
  refine Option.bind_eq_some_iff.2 ⟨_, hmetadata, ?_⟩
  refine Option.bind_eq_some_iff.2 ⟨_, hdata, ?_⟩
  rfl

theorem plain_named (depth : Nat) : Json.Plain (depth + 3) (c.named name version).toJson := by
  have htexts : ∀ m ∈ c.metadataMembers name version, Json.Plain (depth + 1) m.2 := by
    intro m hm
    simp only [metadataMembers, List.mem_append, List.mem_singleton, Json.mem_memberOf] at hm
    rcases hm with ((⟨_, -, rfl⟩ | ⟨_, -, rfl⟩) | rfl) | ⟨_, -, rfl⟩
    · exact Json.plain_ofMap _
    · exact Json.plain_ofMap _
    · exact .string _
    · exact .string _
  refine .object fun m hm => ?_
  simp only [List.mem_append, List.mem_cons, List.not_mem_nil, or_false,
    Json.mem_memberOf] at hm
  rcases hm with ((rfl | rfl) | ⟨_, -, rfl⟩) | rfl
  · exact .string _
  · exact .string _
  · exact Json.plain_ofMap _
  · rw [toJson_metadata]
    exact .object htexts

end MapContent

end TopicSync
