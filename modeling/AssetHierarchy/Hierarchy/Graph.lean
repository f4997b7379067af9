import AssetHierarchy.Node

/-! The parent links among a list of nodes. A node is addressed by its position. Where several nodes
carry one id, a reference to it means the last of them. A node whose parent is not among the nodes
is a root of the graph. -/
namespace AssetHierarchy

/-- What is looked up to find a parent. -/
inductive ParentRef where
  | externalId (x : String)
  | id (n : UInt64)
deriving DecidableEq

/-- The reference that counts: a parent's external id unless it is empty, else its internal id. -/
def Node.parentRef? (n : Node) : Option ParentRef :=
  match n.parentKey? with
  | some x => some (.externalId x)
  | none => n.parentId.map .id

/-- The node is what the reference means. -/
def ParentRef.names (r : ParentRef) (n : Node) : Bool :=
  match r with
  | externalId x => n.externalId == some x
  | id i => n.id == some i

structure Graph (n : Nat) where
  nodes : Vector Node n
  parents : Vector (Option (Fin n)) n
  children : Vector (List (Fin n)) n
  roots : List (Fin n)

namespace Graph

variable {n : Nat}

/-- The last position at which something holds. -/
def last? (p : Fin n → Bool) : Option (Fin n) :=
  (List.finRange n).reverse.find? p

/-- The position of the parent that a node names, if it is among the nodes. -/
def resolve (nodes : Vector Node n) (node : Node) : Option (Fin n) :=
  node.parentRef?.bind fun r => last? fun j => r.names (nodes.get j)

def ofVector (nodes : Vector Node n) : Graph n :=
  let parents := nodes.map (resolve nodes)
  { nodes, parents
    children := Vector.ofFn fun p => (List.finRange n).filter fun i => parents.get i = some p
    roots := (List.finRange n).filter fun i => (parents.get i).isNone }

def ofList (nodes : List Node) : Graph nodes.length :=
  ofVector ⟨nodes.toArray, by simp⟩

variable (g : Graph n)

def node (i : Fin n) : Node := g.nodes.get i

def parent (i : Fin n) : Option (Fin n) := g.parents.get i

/-- All positions, in order. -/
def positions (_ : Graph n) : List (Fin n) := List.finRange n

/-- The positions that carry an external id, in order. The empty one is carried by none. -/
def occurrences (x : String) : List (Fin n) :=
  g.positions.filter fun i => (g.node i).key? == some x

def isDuplicate (x : String) : Bool := 1 < (g.occurrences x).length

def isDuplicateId (id : UInt64) : Bool :=
  1 < (g.positions.filter fun i => (g.node i).id == some id).length

/-- The external id that a node gives for its parent, when no node carries it. -/
def unresolvedParent (i : Fin n) : Option String :=
  (g.node i).parentKey?.filter fun p => (g.occurrences p).isEmpty

/-- The distinct unresolved parents, in the order in which they first appear. -/
def unresolvedParents : List String :=
  g.positions.foldl (fun seen i =>
    match g.unresolvedParent i with
    | some p => if seen.contains p then seen else seen ++ [p]
    | none => seen) []

end Graph

end AssetHierarchy
