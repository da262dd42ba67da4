import TopicSync.Digest.Sha256
import TopicSync.Failure

/-!
Topic names, and the names of the Kubernetes resources that stand for topics.
-/
namespace TopicSync

def isLowerAlnum (c : Char) : Bool := c.isLower || c.isDigit

def isNameChar (c : Char) : Bool := c.isAlphanum || c = '.' || c = '_' || c = '-'

/-- Why a text is no topic name. -/
inductive NameFault where
  | length
  | reserved
  | alphabet
  deriving DecidableEq, Repr

def NameFault.message : NameFault → String
  | length => "must be 1-249 characters"
  | reserved => "'.' and '..' are reserved"
  | alphabet => "only ASCII alphanumerics, '.', '_' and '-' are allowed"

/-- The first fault of a text as a topic name. -/
def nameFault? (s : String) : Option NameFault :=
  if s.utf8ByteSize = 0 ∨ 249 < s.utf8ByteSize then some .length
  else if s = "." ∨ s = ".." then some .reserved
  else if s.toList.all isNameChar then none
  else some .alphabet

structure TopicName where
  text : String
  legal : nameFault? text = none
  deriving DecidableEq, Repr

namespace TopicName

theorem ext {a b : TopicName} (h : a.text = b.text) : a = b := by
  cases a; cases b; cases h; rfl

def check (s : String) : Except NameFault TopicName :=
  match h : nameFault? s with
  | none => .ok ⟨s, h⟩
  | some f => .error f

def ofText? (s : String) : Option TopicName :=
  if h : nameFault? s = none then some ⟨s, h⟩ else none

/-- The name that a text denotes, or the failure that tells why it denotes none. -/
def ofText (s : String) : Except Failure TopicName :=
  match check s with
  | .ok n => .ok n
  | .error f => .error (.invalidTopicName s f.message)

/-- Topics that the brokers keep for themselves. -/
def isInternal (n : TopicName) : Bool := Text.startsWith "__" n.text

end TopicName

/-- The name of a resource, which need not be legal. -/
structure ResourceName where
  text : String
  deriving DecidableEq, Repr

/-- A text of lower-case letters, digits, points and hyphens that begins and ends with a letter or
a digit. -/
def isObjectName (cs : List Char) : Bool :=
  match cs with
  | [] => false
  | c :: _ =>
    isLowerAlnum c && cs.all (fun c => isLowerAlnum c || c = '.' || c = '-') &&
      (match cs.getLast? with | some d => isLowerAlnum d | none => false)

def maxObjectNameLength : Nat := 253

def nameHashLength : Nat := 40

/-- The hash that tells apart names which look the same once they are made legal. -/
def nameHash (s : String) : String := String.ofList ((Sha256.hex s).toList.take nameHashLength)

namespace TopicName

def legalChar (c : Char) : Char :=
  if isLowerAlnum c || c = '.' || c = '-' then c
  else if c.isUpper then c.toLower
  else '-'

/-- The legal part that precedes the hash, short enough that three hyphens and the hash fit. -/
def stem (n : TopicName) : List Char :=
  let cs := Text.strip (fun c => !c.isAlphanum) (n.text.toList.map legalChar)
  Text.stripEnd (fun c => !c.isAlphanum) (cs.take (maxObjectNameLength - nameHashLength - 3))

/-- The name of the resource for a topic that names none: the topic's own name if that is a legal
object name, else its legal characters and a hash of the name. -/
def resourceName (n : TopicName) : ResourceName :=
  if n.text.utf8ByteSize ≤ maxObjectNameLength ∧ isObjectName n.text.toList then ⟨n.text⟩
  else if n.stem.isEmpty then ⟨nameHash n.text⟩
  else ⟨String.ofList n.stem ++ "---" ++ nameHash n.text⟩

end TopicName

end TopicSync
