import TopicSync.Json.Whole
import TopicSync.TextMap
import TopicSync.Timestamp

/-!
What the API server keeps about every object beside its content.
-/
namespace TopicSync

/-- An object on which another one depends. -/
structure OwnerReference where
  apiVersion : String
  blockOwnerDeletion : Option Bool
  controller : Option Bool
  kind : String
  name : String
  uid : String
  deriving DecidableEq, Repr

/-- Which fields of an object someone has set. -/
structure FieldOwnership where
  apiVersion : Option String
  fieldsType : Option String
  /-- The fields as a document of its own. -/
  fields : Option Json
  manager : Option String
  operation : Option String
  subresource : Option String
  time : Option Timestamp
  deriving DecidableEq, Repr

structure Metadata where
  annotations : Option (TextMap String)
  creationTimestamp : Option Timestamp
  deletionGracePeriodSeconds : Option Int
  deletionTimestamp : Option Timestamp
  finalizers : Option (List String)
  generateName : Option String
  generation : Option Int
  labels : Option (TextMap String)
  managedFields : Option (List FieldOwnership)
  name : Option String
  «namespace» : Option String
  ownerReferences : Option (List OwnerReference)
  resourceVersion : Option String
  selfLink : Option String
  uid : Option String
  deriving DecidableEq, Repr

def Metadata.empty : Metadata :=
  ⟨none, none, none, none, none, none, none, none, none, none, none, none, none, none, none⟩

end TopicSync
