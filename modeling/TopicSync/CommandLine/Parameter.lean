/-!
The parameters of the command line.
-/
namespace TopicSync

inductive Parameter where
  | bootstrapServers
  | «namespace»
  | resourceLabels
  | fullReconciliationInterval
  | kafkaPollInterval
  | metadataAttempts
  | metadataInitialDelay
  | operationTimeout
  | store
  | storePrefix
  | metricsAddress
  | logLevel
  | logJson
  | printDefinition
  deriving DecidableEq, Repr

namespace Parameter

/-- All parameters, in the order in which the environment is asked for them. -/
def all : List Parameter :=
  [bootstrapServers, .namespace, resourceLabels, fullReconciliationInterval, kafkaPollInterval,
   metadataAttempts, metadataInitialDelay, operationTimeout, store, storePrefix, metricsAddress,
   logLevel, logJson, printDefinition]

/-- The name after two hyphens. -/
def name : Parameter → String
  | bootstrapServers => "bootstrap-servers"
  | .namespace => "namespace"
  | resourceLabels => "resource-labels"
  | fullReconciliationInterval => "full-reconciliation-interval-secs"
  | kafkaPollInterval => "kafka-poll-interval-secs"
  | metadataAttempts => "topic-metadata-max-attempts"
  | metadataInitialDelay => "topic-metadata-initial-delay-ms"
  | operationTimeout => "operation-timeout-secs"
  | store => "store"
  | storePrefix => "store-prefix"
  | metricsAddress => "metrics-addr"
  | logLevel => "log-level"
  | logJson => "log-json"
  | printDefinition => "print-crd"

/-- The environment variable that stands in for the parameter. -/
def environmentName? : Parameter → Option String
  | bootstrapServers => some "KAFKA_BOOTSTRAP_SERVERS"
  | .namespace => some "WATCH_NAMESPACE"
  | resourceLabels => some "RESOURCE_LABELS"
  | fullReconciliationInterval => some "FULL_RECONCILIATION_INTERVAL_SECS"
  | kafkaPollInterval => some "KAFKA_POLL_INTERVAL_SECS"
  | metadataAttempts => some "TOPIC_METADATA_MAX_ATTEMPTS"
  | metadataInitialDelay => some "TOPIC_METADATA_INITIAL_DELAY_MS"
  | operationTimeout => some "KAFKA_OPERATION_TIMEOUT_SECS"
  | store => some "TOPIC_STORE"
  | storePrefix => some "TOPIC_STORE_PREFIX"
  | metricsAddress => some "METRICS_ADDR"
  | logLevel => some "LOG_LEVEL"
  | logJson => some "LOG_JSON"
  | printDefinition => none

/-- A flag is set by being named, and takes no value. -/
def isFlag (p : Parameter) : Bool := p = logJson || p = printDefinition

def help : Parameter → String
  | bootstrapServers => "Kafka bootstrap servers (host:port,...)"
  | .namespace => "Namespace of the KafkaTopic resources"
  | resourceLabels => "Labels that a KafkaTopic has to carry to be managed (k=v,k2=v2)"
  | fullReconciliationInterval => "Seconds between sweeps over all topics"
  | kafkaPollInterval => "Seconds between polls of the Kafka topics"
  | metadataAttempts => "Attempts to see the metadata of a new topic"
  | metadataInitialDelay => "Milliseconds before the second of these attempts"
  | operationTimeout => "Seconds until a request to Kafka is given up"
  | store => "Where records of converged topics are kept (configmap, memory)"
  | storePrefix => "What the names of these records begin with"
  | metricsAddress => "Address of the metrics server"
  | logLevel => "Log level (trace, debug, info, warn, error)"
  | logJson => "Log in JSON"
  | printDefinition => "Print the definition of the KafkaTopic resource"

def ofName? (s : String) : Option Parameter := all.find? fun p => p.name = s

end Parameter

end TopicSync
