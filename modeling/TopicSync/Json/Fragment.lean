import TopicSync.Json.Parser
import TopicSync.Json.Whole

/-!
Documents whose text breaks off. A fragment keeps what is there. A reader gets to its end before it
finds fault if it accepts the fragment with all that is missing supplied from a model document.
-/
namespace TopicSync.Json

/-- The beginning of a document that is not all of one. -/
inductive Fragment where
  | nothing
  | text
  /-- The beginning of `true`, `false` or `null`. -/
  | word
  /-- A number that lacks a digit at its end. -/
  | number
  /-- An array that ends after some items. -/
  | array (items : List Json)
  /-- An array that ends within the item after some others, or where that is due. -/
  | arrayWithin (items : List Json) (f : Fragment)
  /-- An object that ends after some members; whether another one is due. -/
  | object (members : List (String × Json)) (due : Bool)
  /-- An object that ends behind the name of the member after some others. -/
  | objectWithin (members : List (String × Json)) (name : String) (f : Fragment)
  /-- What is there cannot be taken in. -/
  | garbled
  deriving Repr

namespace Fragment

/-- Pieces of a text without a last one that still waits for its partner. -/
def withoutHighEnd (ps : List Piece) : List Piece :=
  match ps.getLast? with
  | some (.unit n) => if isHighUnit n then ps.dropLast else ps
  | _ => ps

/-- A string literal after its opening quote that breaks off. -/
def ofLiteral? (cs : List Symbol) : Option Fragment :=
  match pieces cs with
  | some (ps, none) => some (if (assemble (withoutHighEnd ps)).isSome then text else garbled)
  | _ => none

/-- Whether a keyword begins like this and goes on. -/
def beginsWord (cs : List Symbol) : Bool :=
  ["true", "false", "null"].any fun w => cs.isPrefixOf (w.toList.map some) && cs.length < w.length

/-- Whether a further digit is all that a number lacks. -/
def beginsNumber (cs : List Symbol) : Bool :=
  let cs :=
    match cs with
    | some '-' :: cs => cs
    | cs => cs
  (number? false cs).isNone && (number? false (cs ++ [some '0'])).any (·.2.isEmpty)

/-- An array or object, if it may be nested at this depth. -/
def held (depth : Nat) (f : Fragment) : Fragment := if depth = 0 then garbled else f

def addItem (j : Json) : Fragment → Fragment
  | array js => array (j :: js)
  | arrayWithin js f => arrayWithin (j :: js) f
  | f => f

def addMember (name : Option String) (j : Json) (f : Fragment) : Fragment :=
  match name, f with
  | some name, object ms due => object ((name, j) :: ms) due
  | some name, objectWithin ms last f => objectWithin ((name, j) :: ms) last f
  | _, _ => garbled

/-- An object whose only member breaks off. -/
def named (name : Option String) (f : Fragment) : Fragment :=
  match name with
  | some name => objectWithin [] name f
  | none => garbled

mutual

/-- The fragment that symbols are; steps and depth are bounded as in `value?`. -/
def ofValue? : Nat → Nat → List Symbol → Option Fragment
  | 0, _, _ => none
  | n + 1, depth, cs =>
    match skipSpace cs with
    | [] => some nothing
    | some '"' :: cs => ofLiteral? cs
    | some '[' :: cs =>
      (if (skipSpace cs).isEmpty then some (array []) else ofItems? n (depth - 1) cs).map
        (held depth)
    | some '{' :: cs =>
      (if (skipSpace cs).isEmpty then some (object [] false) else ofMembers? n (depth - 1) cs).map
        (held depth)
    | cs => if beginsWord cs then some word else if beginsNumber cs then some number else none

/-- The items of an array from where one is due. -/
def ofItems? : Nat → Nat → List Symbol → Option Fragment
  | 0, _, _ => none
  | n + 1, depth, cs =>
    match value? n depth cs with
    | none => (ofValue? n depth cs).map (arrayWithin [])
    | some (j, cs) =>
      match skipSpace cs with
      | [] => some (array [j])
      | some ',' :: cs => (ofItems? n depth cs).map (addItem j)
      | _ => none

/-- The members of an object from where one is due. -/
def ofMembers? : Nat → Nat → List Symbol → Option Fragment
  | 0, _, _ => none
  | n + 1, depth, cs =>
    match skipSpace cs with
    | [] => some (object [] true)
    | some '"' :: cs =>
      match literal cs with
      | none => (ofLiteral? cs).map fun f => match f with | text => object [] true | f => f
      | some (name, cs) =>
        match skipSpace cs with
        | [] => some (named name nothing)
        | some ':' :: cs =>
          match value? n depth cs with
          | none => (ofValue? n depth cs).map (named name)
          | some (j, cs) =>
            match skipSpace cs with
            | [] => some (addMember name j (object [] false))
            | some ',' :: cs => (ofMembers? n depth cs).map (addMember name j)
            | _ => none
        | _ => none
    | _ => none

end

/-- The fragment that a text is, unless no document begins like this or one is complete. -/
def parse? (s : String) : Option Fragment :=
  let cs : List Symbol := s.toList.map some
  ofValue? (2 * cs.length + 2) maxDepth cs

/-- Whether all that is there can be taken in. -/
def isSound : Fragment → Bool
  | array items => areSound items
  | arrayWithin items f => areSound items && f.isSound
  | object members _ => haveSound members
  | objectWithin members _ f => haveSound members && f.isSound
  | garbled => false
  | _ => true

/-- Whether the text ends where a number lacks a digit. -/
def endsInNumber : Fragment → Bool
  | number => true
  | arrayWithin _ f | objectWithin _ _ f => f.endsInNumber
  | _ => false

/-- Whether no array or object has begun. -/
def isPlain : Fragment → Bool
  | nothing | text | word | number => true
  | _ => false

/-- What a model has at a place of an array, which may be a record without its names. -/
def modelItem (place : Nat) : Json → Json
  | .array (m :: _) => m
  | .object known => (known[place]?.map (·.2)).getD .null
  | _ => .null

/-- What a model has from a place of a record on. -/
def modelItems (place : Nat) : Json → List Json
  | .object known => (known.drop place).map (·.2)
  | _ => []

/-- The members of a model that are not given yet. -/
def modelMembers (given : List (String × Json)) : Json → List (String × Json)
  | .object known => known.filter fun m => !given.any (·.1 == m.1)
  | _ => []

/-- The document that a fragment becomes when what is missing is supplied from a model. A model
object that is not empty has all members that are read; the value of any other one is passed over,
but a number is still looked at to its end. In any other object every member is read, as a text if
need be. -/
def completed : Fragment → Json → Json
  | nothing, model | text, model | word, model | number, model => model
  | garbled, _ => .garbled
  | array items, model => .array (items ++ modelItems items.length model)
  | arrayWithin items f, model =>
    .array (items ++ f.completed (modelItem items.length model) ::
      modelItems (items.length + 1) model)
  | object members _, model => .object (members ++ modelMembers members model)
  | objectWithin members name f, model =>
    match model with
    | .object (m :: ms) =>
      match (m :: ms).lookup name with
      | some inner =>
        let given := members ++ [(name, f.completed inner)]
        .object (given ++ modelMembers given model)
      | none =>
        if f.endsInNumber then .garbled else .object (members ++ modelMembers members model)
    | _ => .object (members ++ [(name, f.completed (.string ""))])

/-- Whether it may become one of some words, alone or as the name of the only member of an object,
whose value is `null`. -/
def mayBeChoice (words : List String) : Fragment → Bool
  | nothing | text | object [] _ => true
  | object [(w, .null)] due => words.contains w && !due
  | objectWithin [] w f => words.contains w && f.isPlain
  | _ => false

end Fragment

/-- How values of a type are written: a reader, and a document with all that the reader knows. -/
structure Format (α : Type) where
  read : Json → Option α
  model : Json

/-- Whether a reader gets to the end of a fragment before it finds fault. -/
def Format.reachesEnd (format : Format α) (f : Fragment) : Bool :=
  (format.read (f.completed format.model)).isSome

end TopicSync.Json
