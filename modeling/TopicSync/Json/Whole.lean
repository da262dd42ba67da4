import TopicSync.Json.Basic

/-!
Documents that are read as a whole before anyone looks at their parts.
-/
namespace TopicSync.Json

/-- Put a member at its place in name order, unless there is one of that name. -/
def insertMember (name : String) (j : Json) : List (String × Json) → List (String × Json)
  | [] => [(name, j)]
  | m :: ms =>
    if name < m.1 then (name, j) :: m :: ms
    else if name = m.1 then m :: ms
    else m :: insertMember name j ms

mutual

/-- The document as it is kept when it is read as a whole: every object has only the last of several
members of one name, and its members in name order. -/
def settled : Json → Json
  | array items => array (settledItems items)
  | object members => object (settledMembers members)
  | j => j

def settledItems : List Json → List Json
  | [] => []
  | j :: js => j.settled :: settledItems js

def settledMembers : List (String × Json) → List (String × Json)
  | [] => []
  | (name, j) :: ms => insertMember name j.settled (settledMembers ms)

end

mutual

/-- Whether all of the document can be taken in. -/
def isSound : Json → Bool
  | array items => areSound items
  | object members => haveSound members
  | garbled => false
  | _ => true

def areSound : List Json → Bool
  | [] => true
  | j :: js => j.isSound && areSound js

def haveSound : List (String × Json) → Bool
  | [] => true
  | (_, j) :: ms => j.isSound && haveSound ms

end

/-- The document as it is kept, if all of it can be taken in. -/
def asWhole? (j : Json) : Option Json := if j.isSound then some j.settled else none

end TopicSync.Json
