import TopicSync.Retry
import TopicSync.Selector

/-!
The operator's settings, their defaults, and the check they have to pass before it starts. Times
are in milliseconds.
-/
namespace TopicSync

inductive StoreKind where
  | configMap
  | memory
  deriving DecidableEq, Repr

def StoreKind.text : StoreKind → String
  | configMap => "configmap"
  | memory => "memory"

structure Settings where
  bootstrapServers : String
  «namespace» : String
  resourceLabels : Selector
  fullReconciliationInterval : Nat
  kafkaPollInterval : Nat
  operationTimeout : Nat
  retry : RetrySettings
  store : StoreKind
  storePrefix : String

namespace Settings

def default : Settings where
  bootstrapServers := "localhost:9092"
  «namespace» := "default"
  resourceLabels := .managed
  fullReconciliationInterval := 900000
  kafkaPollInterval := 10000
  operationTimeout := 30000
  retry := .default
  store := .configMap
  storePrefix := "kafka-topic-store"

def isStorePrefixChar (c : Char) : Bool := c.isLower || c.isDigit || c = '-'

def isStorePrefix (s : String) : Bool := !s.isEmpty && s.toList.all isStorePrefixChar

/-- The first complaint about settings that the operator cannot work with. -/
def complaint? (s : Settings) : Option String :=
  if (Text.trim s.bootstrapServers).isEmpty then some "bootstrap servers must not be empty"
  else if s.namespace.isEmpty then some "namespace must not be empty"
  else if s.resourceLabels.isEmpty then some "resource labels must select at least one label"
  else if s.fullReconciliationInterval = 0 then
    some "full reconciliation interval must be greater than zero"
  else if s.kafkaPollInterval = 0 then some "kafka poll interval must be greater than zero"
  else if s.operationTimeout = 0 then some "operation timeout must be greater than zero"
  else if s.retry.maxAttempts = 0 then some "topic metadata attempts must be at least 1"
  else if !isStorePrefix s.storePrefix then
    some s!"store prefix '{s.storePrefix}' must be a non-empty DNS label"
  else none

def validate (s : Settings) : Except Failure Unit :=
  match s.complaint? with
  | none => .ok ()
  | some c => .error (.invalidConfig c)

end Settings

end TopicSync
