import AssetHierarchy.Node

/-! What becomes of nodes that are handed over for writing. -/
namespace AssetHierarchy

/-- What happened to one item of a batch. -/
inductive SubmitOutcome where
  | success (id : UInt64)
  /-- The service refused the item: it was not written. -/
  | clientError (code : Nat) (reason : String)
  /-- The service failed: the item may have been written. -/
  | serverError (code : Nat) (reason : String)
  /-- No reply came in time: the item may have been written. -/
  | timeout
  /-- The reply was lost or unreadable: the item may have been written. -/
  | interrupted (reason : String)
  /-- The item was never sent. -/
  | notSent (reason : String)
deriving DecidableEq

namespace SubmitOutcome

def isSuccess : SubmitOutcome → Bool
  | success _ => true
  | _ => false

/-- It is not known whether the item was written. -/
def isAmbiguous : SubmitOutcome → Bool
  | serverError _ _ | timeout | interrupted _ => true
  | _ => false

def describe : SubmitOutcome → String
  | success id => "created with id " ++ toString id.toNat
  | clientError code reason => "rejected (" ++ toString code ++ "): " ++ reason
  | serverError code reason => "server error (" ++ toString code ++ "): " ++ reason
  | timeout => "timed out"
  | interrupted reason => "interrupted: " ++ reason
  | notSent reason => "not sent: " ++ reason

end SubmitOutcome

structure CreatedAsset where
  externalId : String
  id : UInt64
deriving DecidableEq

/-- The final state of every node, each list in the order of the input. -/
structure OutcomeSet where
  /-- Written, and acknowledged. -/
  created : List CreatedAsset := []
  /-- Perhaps written, or below a node that is. -/
  unknown : List Node := []
  /-- Not written. -/
  failed : List Node := []
deriving DecidableEq

namespace OutcomeSet

variable (o : OutcomeSet)

def isComplete : Bool := o.unknown.isEmpty && o.failed.isEmpty

def size : Nat := o.created.length + o.unknown.length + o.failed.length

def createdIds : List String := o.created.map CreatedAsset.externalId

def unknownIds : List String := o.unknown.map Node.xid

def failedIds : List String := o.failed.map Node.xid

def summary : String :=
  "created: " ++ toString o.created.length ++ ", unknown: " ++ toString o.unknown.length
    ++ ", failed: " ++ toString o.failed.length

end OutcomeSet

end AssetHierarchy
