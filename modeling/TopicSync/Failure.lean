import TopicSync.Text.Blank
import TopicSync.Text.Quoted

/-!
What can go wrong, by cause, with the wording and the short reason of each cause.
-/
namespace TopicSync

/-- A failure reported by the Kafka brokers or on the way to them. -/
inductive BrokerError where
  | topicExists (topic : String)
  | unknownTopic (topic : String)
  | unsupported (what : String)
  | admin (topic : String) (detail : String)
  | client (detail : String)
  | timeout (what : String)
  deriving DecidableEq, Repr

namespace BrokerError

def message : BrokerError → String
  | topicExists t => s!"topic '{t}' already exists"
  | unknownTopic t => s!"topic '{t}' does not exist"
  | unsupported w => s!"unsupported operation: {w}"
  | admin t d => s!"admin operation on '{t}' failed: {d}"
  | client d => s!"kafka client error: {d}"
  | timeout w => s!"kafka request timed out: {w}"

/-- The name of the cause. -/
def kind : BrokerError → String
  | topicExists _ => "TopicExists"
  | unknownTopic _ => "UnknownTopic"
  | unsupported _ => "Unsupported"
  | admin .. => "Admin"
  | client _ => "Client"
  | timeout _ => "Timeout"

end BrokerError

/-- What the API server said when it refused a request. -/
structure Refusal where
  status : String
  message : String
  reason : String
  code : Nat
  deriving DecidableEq, Repr

/-- A failed request to the API server: it was refused, or no usable answer came back. -/
inductive ApiError where
  | refused (refusal : Refusal)
  | broken
  deriving DecidableEq, Repr

namespace ApiError

/-- A refusal in full; `none` when there is no answer to quote. -/
def detail? : ApiError → Option String
  | refused r => some <|
      s!"ApiError: {r.message}: {r.reason} (ErrorResponse \x7b status: " ++ Text.quoted r.status ++
        ", message: " ++ Text.quoted r.message ++ ", reason: " ++ Text.quoted r.reason ++
        ", code: " ++ toString r.code ++ " \x7d)"
  | broken => none

/-- The HTTP status of a refusal. -/
def code? : ApiError → Option Nat
  | refused r => some r.code
  | broken => none

end ApiError

/-- A failure of the store of converged topics. -/
inductive StoreError where
  | alreadyExists (name : String)
  | notFound (name : String)
  | badVersion (name : String) (expected actual : Int)
  | corrupt (name : String) (cause : String)
  | backend (detail : String)
  /-- The backend gave no usable answer. -/
  | unreachable
  deriving DecidableEq, Repr

namespace StoreError

def message : StoreError → String
  | alreadyExists n => s!"stored topic '{n}' already exists"
  | notFound n => s!"stored topic '{n}' not found"
  | badVersion n expected actual => s!"stored topic '{n}' has version {actual}, expected {expected}"
  | corrupt n cause => s!"stored topic '{n}' is corrupt: {cause}"
  | backend d => s!"store backend error: {d}"
  | unreachable => "store backend error: no answer"

/-- The name of the cause; all failures of the backend have one. -/
def kind : StoreError → String
  | alreadyExists _ => "AlreadyExists"
  | notFound _ => "NotFound"
  | badVersion .. => "BadVersion"
  | corrupt .. => "Corrupt"
  | backend _ | unreachable => "Backend"

/-- The store's view of a failed request to the API server. -/
def ofApi (e : ApiError) : StoreError :=
  match e.detail? with
  | some d => backend d
  | none => unreachable

end StoreError

/-- Why a reconciliation, or anything else the operator does, failed. -/
inductive Failure where
  | api (e : ApiError)
  | broker (e : BrokerError)
  | store (e : StoreError)
  | conflict (topic : String) (changes : String)
  | partitionDecrease (topic : String) (before after : Int)
  | invalidResource (resource : String) (complaints : String)
  | invalidTopicName (name : String) (complaint : String)
  | invalidConfig (complaint : String)
  | metadataTimeout (topic : String) (attempts : Nat)
  | shutdown
  deriving DecidableEq, Repr

namespace Failure

def message : Failure → String
  | api e =>
    match e.detail? with
    | some d => s!"Kubernetes API error: {d}"
    | none => "<kube>"
  | broker e => e.message
  | store e => e.message
  | conflict t changes => s!"Topic '{t}' has conflicting changes: {changes}"
  | partitionDecrease t before after =>
    s!"Topic '{t}': partition count cannot be decreased from {before} to {after}"
  | invalidResource r complaints => s!"Invalid KafkaTopic resource '{r}': {complaints}"
  | invalidTopicName n complaint => s!"Invalid topic name '{n}': {complaint}"
  | invalidConfig complaint => s!"Invalid configuration: {complaint}"
  | metadataTimeout t attempts => s!"Metadata for topic '{t}' not visible after {attempts} attempts"
  | shutdown => "Controller is shut down"

/-- Put the complaints of a list, which semicolon and space separate, into text order. -/
def inTextOrder (complaints : String) : String :=
  "; ".intercalate ((complaints.splitOn "; ").mergeSort fun a b => decide (a ≤ b))

/-- The failure with complaints about a resource, which come in no particular order, in text
order. -/
def ordered : Failure → Failure
  | invalidResource r complaints => invalidResource r (inTextOrder complaints)
  | e => e

/-- The name of the cause. -/
def kind : Failure → String
  | api _ => "KubeError"
  | broker e => e.kind
  | store e => e.kind
  | conflict .. => "Conflict"
  | partitionDecrease .. => "PartitionDecrease"
  | invalidResource .. => "InvalidResource"
  | invalidTopicName .. => "InvalidTopicName"
  | invalidConfig _ => "InvalidConfig"
  | metadataTimeout .. => "MetadataTimeout"
  | shutdown => "Shutdown"

/-- One word for events and conditions, which tell fewer causes apart. -/
def reason : Failure → String
  | api _ => "KubernetesApiError"
  | broker (.topicExists _) => "TopicCreateRace"
  | broker (.unsupported _) => "UnsupportedChange"
  | broker _ => "KafkaError"
  | store _ => "StoreError"
  | conflict .. => "ConflictingChanges"
  | partitionDecrease .. => "PartitionDecrease"
  | invalidResource .. => "InvalidResource"
  | invalidTopicName .. => "InvalidTopicName"
  | invalidConfig _ => "InvalidConfig"
  | metadataTimeout .. => "MetadataTimeout"
  | shutdown => "Shutdown"

/-- The topic to be created had been created by someone else in the meantime. -/
def isCreateRace : Failure → Bool
  | broker (.topicExists _) => true
  | _ => false

end Failure

end TopicSync
