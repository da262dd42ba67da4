import TopicSync.Store.Basic
import TopicSync.Store.NodeTree
import TopicSync.Topic.Record

/-!
A store that keeps one node per topic below a root path. The root is created on first use; an
update is guarded by the version that was read before it.
-/
namespace TopicSync

structure HierarchicalStore where
  root : String
  rootReady : Bool
  deriving DecidableEq, Repr

namespace HierarchicalStore

/-- The path of the records for a prefix, which loses the slashes at its ends. -/
def rootOf (chosen : String) : String :=
  "/" ++ String.ofList (Text.strip (· = '/') chosen.toList) ++ "/topics"

def create (chosen : String) : HierarchicalStore := ⟨rootOf chosen, false⟩

def path (s : HierarchicalStore) (name : TopicName) : String := s.root ++ "/" ++ name.text

def backend (e : NodeError) : StoreError := .backend e.message

/-- The paths to create for a root: a slash and a segment are added for each segment that is not
empty. -/
def ancestors (base : String) : List String → List String
  | [] => []
  | segment :: rest =>
    if segment.isEmpty then ancestors base rest
    else (base ++ "/" ++ segment) :: ancestors (base ++ "/" ++ segment) rest

def rootPaths (root : String) : List String := ancestors "" (Text.split '/' root)

/-- Create nodes in turn; one that is there already is as good as created. -/
def createNodes : List String → Program treeInterface (Except StoreError Unit)
  | [] => .done (.ok ())
  | p :: ps =>
    .ask (TreeCall.create p "") fun
      | .ok _ => createNodes ps
      | .error (.nodeExists _) => createNodes ps
      | .error e => .done (.error (backend e))

/-- Make sure that the root is there. Once it has been created, it is not looked at again. -/
def ensureRoot (s : HierarchicalStore) :
    Program treeInterface (Except StoreError HierarchicalStore) :=
  if s.rootReady then .done (.ok s)
  else (createNodes (rootPaths s.root)).bind fun
    | .ok _ => .done (.ok { s with rootReady := true })
    | .error e => .done (.error e)

def readNode (s : HierarchicalStore) (name : TopicName) :
    Program treeInterface (Except StoreError (Option Topic)) :=
  .ask (TreeCall.get (s.path name)) fun
    | .ok (some node) => .done ((Record.decodeText name node.data).map some)
    | .ok none => .done (.ok none)
    | .error e => .done (.error (backend e))

def createNode (s : HierarchicalStore) (t : Topic) :
    Program treeInterface (Except StoreError Unit) :=
  .ask (TreeCall.create (s.path t.name) (Record.encode t)) fun
    | .ok _ => .done (.ok ())
    | .error (.nodeExists _) => .done (.error (.alreadyExists t.name.text))
    | .error e => .done (.error (backend e))

def updateNode (s : HierarchicalStore) (t : Topic) :
    Program treeInterface (Except StoreError Unit) :=
  .ask (TreeCall.get (s.path t.name)) fun
    | .ok none => .done (.error (.notFound t.name.text))
    | .error e => .done (.error (backend e))
    | .ok (some node) =>
      .ask (TreeCall.set (s.path t.name) (Record.encode t) (some node.version)) fun
        | .ok _ => .done (.ok ())
        | .error (.noNode _) => .done (.error (.notFound t.name.text))
        | .error (.badVersion _ expected actual) =>
          .done (.error (.badVersion t.name.text expected actual))
        | .error e => .done (.error (backend e))

def deleteNode (s : HierarchicalStore) (name : TopicName) :
    Program treeInterface (Except StoreError Unit) :=
  .ask (TreeCall.delete (s.path name) none) fun
    | .ok _ => .done (.ok ())
    | .error (.noNode _) => .done (.error (.notFound name.text))
    | .error e => .done (.error (backend e))

/-- The names of the records; a node whose name is no topic name is skipped. -/
def listNodes (s : HierarchicalStore) :
    Program treeInterface (Except StoreError (List TopicName)) :=
  .ask (TreeCall.children s.root) fun
    | .ok names => .done (.ok (names.filterMap TopicName.ofText?))
    | .error e => .done (.error (backend e))

/-- What a call does once the root is there. -/
def access (s : HierarchicalStore) : (c : StoreCall) → Program treeInterface c.Answer
  | .read name => s.readNode name
  | .create t => s.createNode t
  | .update t => s.updateNode t
  | .delete name => s.deleteNode name
  | .list => s.listNodes

/-- Carry out a call on the store, which is returned as it is afterwards. -/
def perform (s : HierarchicalStore) (c : StoreCall) :
    Program treeInterface (c.Answer × HierarchicalStore) :=
  s.ensureRoot.bind fun
    | .error e => .done (.error e, s)
    | .ok s => (s.access c).bind fun r => .done (r, s)

end HierarchicalStore

end TopicSync
