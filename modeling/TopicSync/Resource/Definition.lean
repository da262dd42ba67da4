import TopicSync.Json.Basic
import TopicSync.Resource.Basic

/-!
The definition of the custom resource, as it is registered with the cluster: its names, the columns
shown for it, and the schema that its documents have to satisfy.
-/
namespace TopicSync.Resource.Definition

/-- A schema: a description, a type and whatever else applies. -/
def schema (description type : String) (more : List (String × Json)) : Json :=
  .object <| [("description", .string description), ("type", .string type)] ++ more

def text (description : String) (more : List (String × Json)) : Json :=
  schema description "string" more

def number (description format : String) (more : List (String × Json)) : Json :=
  schema description "integer" (("format", .string format) :: more)

def record (description : String) (properties : List (String × Json)) (needed : List String)
    (more : List (String × Json)) : Json :=
  schema description "object" <|
    [("properties", .object properties)] ++
    (if needed.isEmpty then [] else [("required", Json.ofTexts needed)]) ++ more

def nullable : String × Json := ("nullable", .bool true)

def range (least most : Int) : List (String × Json) :=
  [("minimum", .integer least), ("maximum", .integer most)]

def specDescription : String :=
  "KafkaTopic custom resource for declarative topic management\n\n# Example\n\n" ++
  "```yaml apiVersion: kafka.operator.io/v1beta1 kind: KafkaTopic " ++
  "metadata: name: orders-events labels: app.kubernetes.io/managed-by: kafka-topic-operator " ++
  "spec: partitions: 12 replicas: 3 " ++
  "config: retention.ms: \"604800000\" cleanup.policy: delete ```"

def specSchema : Json :=
  record specDescription
    [("topicName", text "Name of the topic in Kafka; defaults to the resource name"
        [("minLength", .integer 1), ("maxLength", .integer 249), nullable]),
     ("partitions", number "Number of partitions. Cannot be decreased after creation" "int32"
        (range 1 100000)),
     ("replicas", number "Replication factor" "int32" (range 1 32767)),
     ("config", schema "Topic-level configuration overrides, e.g. `retention.ms`" "object"
        [("additionalProperties", .object [("type", .string "string")]),
         ("default", .object [])])]
    ["partitions", "replicas"] []

def conditionSchema : Json :=
  record "Condition for tracking topic status"
    [("type", text "Type of condition" []),
     ("status", text "Status: True, False, Unknown" []),
     ("reason", text "Machine-readable reason" []),
     ("message", text "Human-readable message" []),
     ("lastTransitionTime", text "Last transition time" [])]
    ["lastTransitionTime", "message", "reason", "status", "type"] []

def statusSchema : Json :=
  record "Status of the KafkaTopic resource"
    [("phase", text "Current phase: Ready or NotReady" [("default", .string "")]),
     ("message", text "Human-readable message about current state" [("default", .string "")]),
     ("observedGeneration", number "Generation of the spec last reconciled" "int64"
        [("default", .integer 0)]),
     ("conditions", schema "Conditions for detailed status tracking" "array"
        [("default", .array []), ("items", conditionSchema)]),
     ("lastSyncTime", text "Last time the topic was reconciled" [nullable])]
    [] [nullable]

def documentSchema : Json :=
  record "Auto-generated derived type for KafkaTopicSpec via `CustomResource`"
    [("spec", specSchema), ("status", statusSchema)] ["spec"] [("title", .string kind)]

/-- A column of the resource's listing. -/
def column (name type path : String) : Json :=
  .object [("name", .string name), ("type", .string type), ("jsonPath", .string path)]

def columns : List Json :=
  [column "Topic" "string" ".spec.topicName",
   column "Partitions" "integer" ".spec.partitions",
   column "Replicas" "integer" ".spec.replicas",
   column "Phase" "string" ".status.phase",
   column "Age" "date" ".metadata.creationTimestamp"]

def plural : String := "kafkatopics"

def version : Json :=
  .object
    [("name", .string "v1beta1"), ("served", .bool true), ("storage", .bool true),
     ("additionalPrinterColumns", .array columns),
     ("schema", .object [("openAPIV3Schema", documentSchema)]),
     ("subresources", .object [("status", .object [])])]

/-- The whole definition. -/
def document : Json :=
  .object
    [("apiVersion", .string "apiextensions.k8s.io/v1"),
     ("kind", .string "CustomResourceDefinition"),
     ("metadata", .object [("name", .string (plural ++ "." ++ apiGroup))]),
     ("spec", .object
       [("group", .string apiGroup),
        ("names", .object
          [("categories", .array []), ("kind", .string kind), ("plural", .string plural),
           ("shortNames", Json.ofTexts ["kt"]), ("singular", .string "kafkatopic")]),
        ("scope", .string "Namespaced"),
        ("versions", .array [version])])]

end TopicSync.Resource.Definition
