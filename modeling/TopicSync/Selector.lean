import TopicSync.TextMap
import TopicSync.Failure

/-!
Label selectors: the labels that a resource must carry to be managed, read from and written as
comma-separated `key=value` entries. The written form is canonical: entries in key order.
-/
namespace TopicSync

structure Selector where
  labels : TextMap String
  deriving DecidableEq, Repr

namespace Selector

/-- One entry of a selector text that is not blank; key and value are trimmed, and the value may
hold further equals signs. -/
def parseEntry (entry : String) : Except Failure (String × String) :=
  match entry.toList.span (· ≠ '=') with
  | (_, []) => .error <| .invalidConfig
      s!"label selector entry '{entry}' must have the form key=value"
  | (key, _ :: value) =>
    let key := Text.trim (String.ofList key)
    if key.isEmpty then .error <| .invalidConfig s!"label selector entry '{entry}' has an empty key"
    else .ok (key, Text.trim (String.ofList value))

/-- The entries of a selector text, trimmed, without the blank ones. -/
def entriesOf (s : String) : List String :=
  ((Text.split ',' s).map Text.trim).filter fun e => !e.isEmpty

/-- Read a selector; of several entries with one key the last counts. -/
def parse (s : String) : Except Failure Selector :=
  match (entriesOf s).mapM parseEntry with
  | .ok es => .ok ⟨TextMap.ofList es⟩
  | .error e => .error e

def text (p : Selector) : String :=
  ",".intercalate (p.labels.toList.map fun e => s!"{e.1}={e.2}")

/-- Whether labels include every entry of the selector. -/
def holds (p : Selector) (labels : TextMap String) : Bool :=
  p.labels.toList.all fun e => labels.get? e.1 = some e.2

def isEmpty (p : Selector) : Bool := p.labels.isEmpty

/-- The label that marks what this operator manages. -/
def managed : Selector :=
  ⟨TextMap.ofList [("app.kubernetes.io/managed-by", "kafka-topic-operator")]⟩

end Selector

end TopicSync
