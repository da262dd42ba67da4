import TopicSync.Broker.Wire
import TopicSync.Operator.Gateways

/-!
Reading and changing topics by requests to the brokers. Of a topic's configuration only what was
set on the topic itself counts.
-/
namespace TopicSync.Admin

/-- A conversation with the brokers. -/
abbrev Talk (α : Type) : Type := Program wireInterface α

/-- Make a request; nothing is sent if it cannot be put together. -/
def send (c : WireCall) : Talk c.Answer :=
  match c.obstacle? with
  | some e => .done (.error e)
  | none => .ask c .done

/-- The entries set on the topic itself that have a value; of several of one name the last. -/
def dynamicConfig (entries : List ConfigEntry) : TextMap String :=
  TextMap.ofList <| entries.filterMap fun e =>
    if e.source = .dynamicTopic then e.value.map (e.name, ·) else none

/-- Configurations by topic name, from the results for the names asked about, in their order. A
topic that has vanished since is left out. -/
def configsOf : List String → List (Except BrokerCode (List ConfigEntry)) →
    TextMap (TextMap String) → Except BrokerError (TextMap (TextMap String))
  | name :: names, .ok entries :: results, acc =>
    configsOf names results (acc.insert name (dynamicConfig entries))
  | name :: names, .error c :: results, acc =>
    if c.isUnknownTopic then configsOf names results acc else .error (c.error name)
  | _, _, acc => .ok acc

/-- The configurations of topics; nothing is asked about none. -/
def describeConfigs (names : List String) : Talk (Except BrokerError (TextMap (TextMap String))) :=
  if names.isEmpty then .done (.ok .empty)
  else (send (.describeConfigs names)).bind fun
    | .ok results => .done (configsOf names results .empty)
    | .error e => .done (.error e)

/-- Whether a topic exists: the first entry of its name decides. -/
def lookup (metadata : List BrokerTopic) (name : String) : Except BrokerError Bool :=
  match metadata.find? (·.name = name) with
  | none => .ok false
  | some t =>
    match t.error with
    | none => .ok true
    | some c => if c.isUnknownTopic then .ok false else .error (c.error name)

/-- The snapshot of a topic, if its name is legal and its counts are in range. -/
def snapshot? (t : BrokerTopic) (config : TextMap String) : Option Topic :=
  match TopicName.ofText? t.name with
  | none => none
  | some name =>
    match Topic.create name t.partitions t.replicas with
    | .error _ => none
    | .ok topic => some { topic with config := config }

/-- The snapshots of the healthy topics whose configuration is known. A configuration is used for
the first healthy topic of its name only. -/
def snapshots : List BrokerTopic → TextMap (TextMap String) → List Topic
  | [], _ => []
  | t :: ts, configs =>
    if t.isHealthy then
      match configs.get? t.name with
      | none => snapshots ts configs
      | some config => (snapshot? t config).toList ++ snapshots ts (configs.erase t.name)
    else snapshots ts configs

/-- The legal names of the topics that exist but cannot be described now. -/
def unavailable (metadata : List BrokerTopic) : List TopicName :=
  (metadata.filter fun t => !t.isHealthy && t.isKnown).filterMap (TopicName.ofText? ·.name)

/-- The names whose configuration is worth asking for. -/
def describable (metadata : List BrokerTopic) : List String :=
  ((metadata.filter BrokerTopic.isHealthy).map BrokerTopic.name).filter
    fun n => !Text.startsWith "__" n

def failed (e : BrokerError) : Except Failure α := .error (.broker e)

def read (name : TopicName) : Talk (Except Failure (Option Topic)) :=
  (send .metadata).bind fun
    | .error e => .done (failed e)
    | .ok metadata =>
      match lookup metadata name.text with
      | .error e => .done (failed e)
      | .ok false => .done (.ok none)
      | .ok true =>
        (describeConfigs [name.text]).bind fun
          | .error e => .done (failed e)
          | .ok configs => .done (.ok ((snapshots metadata configs).find? (·.name = name)))

def describe : Talk (Except Failure TopicListing) :=
  (send .metadata).bind fun
    | .error e => .done (failed e)
    | .ok metadata =>
      (describeConfigs (describable metadata)).bind fun
        | .error e => .done (failed e)
        | .ok configs => .done (.ok ⟨snapshots metadata configs, unavailable metadata⟩)

def list : Talk (Except Failure (List TopicName)) :=
  (send .metadata).bind fun
    | .error e => .done (failed e)
    | .ok metadata =>
      .done (.ok ((metadata.filter BrokerTopic.isKnown).filterMap (TopicName.ofText? ·.name)))

/-- The outcome of a change to one topic. -/
def outcome (name : String) : Except BrokerError (Option (Except BrokerCode Unit)) →
    Except Failure Unit
  | .error e => failed e
  | .ok (some (.ok _)) => .ok ()
  | .ok (some (.error c)) => failed (c.error name)
  | .ok none => failed (.admin name "broker returned no result")

/-- Carry out a call. A change of the configuration replaces all of it. -/
def perform : (c : BrokerCall) → Talk c.Answer
  | .read name => read name
  | .create t =>
    (send (.createTopic t.name.text t.partitions.val t.replicationFactor.val t.config)).bind
      fun r => .done (outcome t.name.text r)
  | .delete name => (send (.deleteTopic name.text)).bind fun r => .done (outcome name.text r)
  | .updateConfig t =>
    (send (.alterConfig t.name.text t.config)).bind fun r => .done (outcome t.name.text r)
  | .increasePartitions t =>
    (send (.createPartitions t.name.text t.partitions.val)).bind
      fun r => .done (outcome t.name.text r)
  | .changeReplicationFactor t => .done <| failed <| .unsupported <|
      s!"changing the replication factor of '{t.name.text}' to {t.replicationFactor.val} " ++
        "requires a partition reassignment"
  | .describe => describe
  | .list => list

end TopicSync.Admin
