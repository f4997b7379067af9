import AssetHierarchy.Hierarchy.Cycle
import AssetHierarchy.Identifier
import AssetHierarchy.Text.Blank

/-! The structural problems of a list of nodes. A node can have several, except that a node on a
cycle counts neither as an orphan nor as unsure of its parent. -/
namespace AssetHierarchy

inductive Issue where
  /-- An external id or name that is missing or blank, an empty parent external id, or an internal
  id out of range. -/
  | invalid
  /-- The parent is no node, and is not known to exist. -/
  | orphan
  /-- More than one asset could be the parent. -/
  | unsureParent
  /-- The external or internal id is carried by another node too. -/
  | duplicate
  /-- The node is its own ancestor. -/
  | cycle
deriving DecidableEq

namespace Issue

def all : List Issue := [invalid, orphan, unsureParent, duplicate, cycle]

/-- The word for the nodes that have an issue. -/
def label : Issue → String
  | invalid => "invalid"
  | orphan => "orphans"
  | unsureParent => "unsure_parents"
  | duplicate => "duplicates"
  | cycle => "cycles"

end Issue

/-- For each issue the nodes that have it, in the order of the input. -/
structure Report where
  invalid : List Node := []
  orphans : List Node := []
  unsureParents : List Node := []
  duplicates : List Node := []
  cycles : List Node := []
deriving DecidableEq

namespace Report

def nodes (r : Report) : Issue → List Node
  | .invalid => r.invalid
  | .orphan => r.orphans
  | .unsureParent => r.unsureParents
  | .duplicate => r.duplicates
  | .cycle => r.cycles

def isValid (r : Report) : Bool := Issue.all.all fun i => (r.nodes i).isEmpty

/-- The distinct external ids of the nodes with an issue, in ascending order. -/
def externalIds (r : Report) (i : Issue) : List String :=
  (Json.ordered (((r.nodes i).filterMap Node.externalId).map fun x => (x, ()))).map (·.1)

def summary (r : Report) : String :=
  ", ".intercalate (Issue.all.map fun i => i.label ++ ": " ++ toString (r.nodes i).length)

theorem isValid_iff {r : Report} :
    r.isValid ↔ r.invalid = [] ∧ r.orphans = [] ∧ r.unsureParents = [] ∧ r.duplicates = [] ∧
      r.cycles = [] := by
  simp [isValid, Issue.all, nodes]

end Report

namespace Node

def isMissingOrBlank : Option String → Bool
  | none => true
  | some s => Text.allBlank s

def isOutOfRange : Option UInt64 → Bool
  | none => false
  | some id => !isValidInternalId id

def isMalformed (n : Node) : Bool :=
  isMissingOrBlank n.externalId || isMissingOrBlank n.name || n.parentExternalId == some ""
    || isOutOfRange n.id || isOutOfRange n.parentId

def sameParentAs (a b : Node) : Bool :=
  a.parentExternalId == b.parentExternalId && a.parentId == b.parentId

end Node

namespace Graph

variable {n : Nat} (g : Graph n)

def isOrphan (exists? : String → Bool) (i : Fin n) : Bool :=
  (g.unresolvedParent i).any fun p => !exists? p

/-- Both references are given, or the one given means several nodes, or a node with the same
external id gives another parent. -/
def isUnsure (i : Fin n) : Bool :=
  let node := g.node i
  (node.parentId.isSome && node.parentExternalId.isSome)
    || node.parentExternalId.any g.isDuplicate
    || node.parentId.any g.isDuplicateId
    || (g.occurrences node.xid).any fun j => !(g.node j).sameParentAs node

def isRepeated (i : Fin n) : Bool :=
  let node := g.node i
  g.isDuplicate node.xid || node.id.any g.isDuplicateId

def nodesWhere (p : Fin n → Bool) : List Node :=
  (g.positions.filter p).map g.node

/-- Every problem of the graph; the argument says which parents outside of it exist. -/
def validate (exists? : String → Bool) : Report :=
  let onCycle := g.cycleFlags
  { invalid := g.nodesWhere fun i => (g.node i).isMalformed
    orphans := g.nodesWhere fun i => !onCycle.get i && g.isOrphan exists? i
    unsureParents := g.nodesWhere fun i => !onCycle.get i && g.isUnsure i
    duplicates := g.nodesWhere g.isRepeated
    cycles := g.nodesWhere onCycle.get }

end Graph

end AssetHierarchy
