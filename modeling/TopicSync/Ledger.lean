import TopicSync.TextMap
import TopicSync.Topic.Name

/-!
The admission ledger: the topics that are being worked on, each with what caused the work. A topic
is admitted only while it is not in the ledger.
-/
namespace TopicSync

structure Ledger where
  causes : TextMap String
  deriving DecidableEq, Repr

namespace Ledger

def empty : Ledger := ⟨.empty⟩

def contains (l : Ledger) (name : TopicName) : Bool := l.causes.contains name.text

/-- The ledger with the topic in it, unless it was there already. -/
def admit? (l : Ledger) (name : TopicName) (cause : String) : Option Ledger :=
  if l.contains name then none else some ⟨l.causes.insert name.text cause⟩

/-- The ledger without the topic. -/
def complete (l : Ledger) (name : TopicName) : Ledger := ⟨l.causes.erase name.text⟩

def cause? (l : Ledger) (name : TopicName) : Option String := l.causes.get? name.text

def size (l : Ledger) : Nat := l.causes.size

def isEmpty (l : Ledger) : Bool := l.causes.isEmpty

end Ledger

end TopicSync
