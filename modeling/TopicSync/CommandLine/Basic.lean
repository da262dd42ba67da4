import TopicSync.CommandLine.LogLevel
import TopicSync.CommandLine.Parameter
import TopicSync.CommandLine.SocketAddress
import TopicSync.Settings

/-!
What a command line asks for, and how the value of each parameter is understood.
-/
namespace TopicSync

/-- Why a command line is not carried out. -/
inductive Rejection where
  | help
  | version
  | unknownArgument
  | repeatedParameter
  /-- A value is missing, or is none of those that the parameter can have. -/
  | invalidValue
  /-- A value does not read as a number, an address or whatever else is expected. -/
  | malformedValue
  /-- A value is given to a flag. -/
  | unexpectedValue
  deriving DecidableEq, Repr

structure CommandLine where
  settings : Settings
  metricsAddress : SocketAddress
  logLevel : LogLevel
  logJson : Bool
  printDefinition : Bool

def StoreKind.ofText? : String → Option StoreKind
  | "configmap" => some configMap
  | "memory" => some memory
  | _ => none

def flagOf? : String → Option Bool
  | "true" => some true
  | "false" => some false
  | _ => none

namespace CommandLine

def default : CommandLine where
  settings := .default
  metricsAddress := ⟨.v4 [0, 0, 0, 0], 8080⟩
  logLevel := .info
  logJson := false
  printDefinition := false

/-- A value, or the reason why there is none. -/
def orReject (r : Rejection) : Option α → Except Rejection α
  | some a => .ok a
  | none => .error r

/-- A number of 64 bits. -/
def numberOf (v : String) : Except Rejection Nat :=
  orReject .malformedValue ((Text.natOf? v).filter (· ≤ 18446744073709551615))

/-- A number of 32 bits; a zero may have a minus sign. -/
def shortNumberOf (v : String) : Except Rejection Nat :=
  orReject .malformedValue
    ((Text.intOf? v).filter (fun n => 0 ≤ n ∧ n ≤ 4294967295) |>.map Int.toNat)

/-- The settings with the value of a parameter, if it is one of theirs. -/
def setting (s : Settings) (p : Parameter) (v : String) : Except Rejection Settings := do
  match p with
  | .bootstrapServers => return { s with bootstrapServers := v }
  | .namespace => return { s with «namespace» := v }
  | .resourceLabels =>
    let labels ← orReject .malformedValue (Selector.parse v).toOption
    return { s with resourceLabels := labels }
  | .fullReconciliationInterval =>
    return { s with fullReconciliationInterval := (← numberOf v) * 1000 }
  | .kafkaPollInterval => return { s with kafkaPollInterval := (← numberOf v) * 1000 }
  | .metadataAttempts =>
    return { s with retry := { s.retry with maxAttempts := ← shortNumberOf v } }
  | .metadataInitialDelay =>
    return { s with retry := { s.retry with initialDelay := ← numberOf v } }
  | .operationTimeout => return { s with operationTimeout := (← numberOf v) * 1000 }
  | .store => return { s with store := ← orReject .invalidValue (StoreKind.ofText? v) }
  | .storePrefix => return { s with storePrefix := v }
  | .metricsAddress | .logLevel | .logJson | .printDefinition => return s

/-- Give a parameter its value. -/
def assign (c : CommandLine) (p : Parameter) (v : String) : Except Rejection CommandLine := do
  match p with
  | .metricsAddress =>
    return { c with metricsAddress := ← orReject .malformedValue (SocketAddress.ofText? v) }
  | .logLevel => return { c with logLevel := ← orReject .malformedValue (LogLevel.ofText? v) }
  | .logJson => return { c with logJson := ← orReject .invalidValue (flagOf? v) }
  | .printDefinition => return { c with printDefinition := ← orReject .invalidValue (flagOf? v) }
  | p => return { c with settings := ← setting c.settings p v }

/-- What a log filter lets pass: the chosen level, and of the client libraries only warnings. -/
def logFilter (c : CommandLine) : List String :=
  c.logLevel.text :: ["kube", "tower", "hyper", "rdkafka"].map (· ++ "=warn")

end CommandLine

end TopicSync
