import TopicSync.Program
import TopicSync.Text.Blank
import TopicSync.TextMap

/-!
A tree of nodes addressed by paths, each with a text and a version, as a coordination service keeps
it. The version counts the writes to a node since its creation.
-/
namespace TopicSync

structure Node where
  data : String
  version : Int
  deriving DecidableEq, Repr

inductive NodeError where
  | nodeExists (path : String)
  | noNode (path : String)
  | badVersion (path : String) (expected actual : Int)
  | notEmpty (path : String)
  | backend (detail : String)
  deriving DecidableEq, Repr

def NodeError.message : NodeError → String
  | nodeExists p => s!"node {p} already exists"
  | noNode p => s!"node {p} does not exist"
  | badVersion p expected actual => s!"node {p} has version {actual}, expected {expected}"
  | notEmpty p => s!"node {p} has children"
  | backend d => s!"coordination service error: {d}"

/-- The name of the cause. -/
def NodeError.kind : NodeError → String
  | nodeExists _ => "NodeExists"
  | noNode _ => "NoNode"
  | badVersion .. => "BadVersion"
  | notEmpty _ => "NotEmpty"
  | backend _ => "Backend"

/-- A call on a tree. A `set` or `delete` with a version is only carried out on that version. -/
inductive TreeCall where
  | create (path : String) (data : String)
  | get (path : String)
  | set (path : String) (data : String) (version : Option Int)
  | delete (path : String) (version : Option Int)
  | children (path : String)
  deriving DecidableEq, Repr

namespace TreeCall

def Value : TreeCall → Type
  | create .. | delete .. => Unit
  | get _ => Option Node
  | set .. => Int
  | children _ => List String

abbrev Answer (c : TreeCall) : Type := Except NodeError c.Value

/-- The name of the operation. -/
def name : TreeCall → String
  | create .. => "create"
  | get _ => "get"
  | set .. => "set"
  | delete .. => "delete"
  | children _ => "children"

end TreeCall

abbrev treeInterface : Interface := ⟨TreeCall, TreeCall.Answer⟩

/-- The part of a path before its last slash; a path whose last slash is its first character, or
that has none, has no parent. -/
def parentOf? (path : String) : Option String :=
  match path.toList.reverse.dropWhile (· ≠ '/') with
  | [] | [_] => none
  | _ :: rest => some (String.ofList rest.reverse)

/-- The name of a node directly below another: one segment after the parent's path. -/
def childName? (parent path : String) : Option String :=
  match Text.after? (parent ++ "/") path with
  | none => none
  | some name => if name.isEmpty || name.toList.contains '/' then none else some name

structure NodeTree where
  nodes : TextMap Node
  deriving DecidableEq, Repr

namespace NodeTree

def empty : NodeTree := ⟨.empty⟩

def create (t : NodeTree) (path data : String) : Except NodeError Unit × NodeTree :=
  if t.nodes.contains path then (.error (.nodeExists path), t)
  else
    match parentOf? path with
    | some parent =>
      if t.nodes.contains parent then (.ok (), ⟨t.nodes.insert path ⟨data, 0⟩⟩)
      else (.error (.noNode parent), t)
    | none => (.ok (), ⟨t.nodes.insert path ⟨data, 0⟩⟩)

def get (t : NodeTree) (path : String) : Except NodeError (Option Node) := .ok (t.nodes.get? path)

/-- The node at a path, provided that it has the version asked for, if one is. -/
def guarded (t : NodeTree) (path : String) (version : Option Int) : Except NodeError Node :=
  match t.nodes.get? path with
  | none => .error (.noNode path)
  | some node =>
    match version with
    | none => .ok node
    | some v => if v = node.version then .ok node else .error (.badVersion path v node.version)

def set (t : NodeTree) (path data : String) (version : Option Int) :
    Except NodeError Int × NodeTree :=
  match t.guarded path version with
  | .error e => (.error e, t)
  | .ok node => (.ok (node.version + 1), ⟨t.nodes.insert path ⟨data, node.version + 1⟩⟩)

/-- The names of the nodes directly below a path, in order. -/
def childNames (t : NodeTree) (path : String) : List String :=
  t.nodes.keys.filterMap (childName? path)

def delete (t : NodeTree) (path : String) (version : Option Int) :
    Except NodeError Unit × NodeTree :=
  match t.guarded path version with
  | .error e => (.error e, t)
  | .ok _ =>
    if (t.childNames path).isEmpty then (.ok (), ⟨t.nodes.erase path⟩)
    else (.error (.notEmpty path), t)

def children (t : NodeTree) (path : String) : Except NodeError (List String) :=
  if t.nodes.contains path then .ok (t.childNames path) else .error (.noNode path)

/-- Carry out a call. -/
def answer : (c : TreeCall) → NodeTree → c.Answer × NodeTree
  | .create path data, t => t.create path data
  | .get path, t => (t.get path, t)
  | .set path data version, t => t.set path data version
  | .delete path version, t => t.delete path version
  | .children path, t => (t.children path, t)

end NodeTree

end TopicSync
