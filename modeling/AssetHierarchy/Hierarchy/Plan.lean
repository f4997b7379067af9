import AssetHierarchy.Hierarchy.Validation

/-! Writing order. The nodes of a graph without cycles are put into layers by their distance from
the roots, and each layer is cut into batches, so that the batch of a node comes after the batch of
its parent. -/
namespace AssetHierarchy

/-- Consecutive pieces of the given size, the last one perhaps smaller. -/
def chunks {α : Type} (size : Nat) (l : List α) : List (List α) :=
  (List.range ((l.length + size - 1) / size)).map fun k => (l.drop (k * size)).take size

structure Entry (n : Nat) where
  position : Fin n
  node : Node
deriving DecidableEq

/-- Nodes that are written together, none of them a parent of another. -/
structure Batch (n : Nat) where
  /-- The place of the batch in its plan. -/
  index : Nat
  /-- The distance of its nodes from the roots. -/
  depth : Nat
  entries : List (Entry n)
deriving DecidableEq

namespace Batch

variable {n : Nat} (b : Batch n)

def nodes : List Node := b.entries.map Entry.node

def positions : List (Fin n) := b.entries.map Entry.position

def externalIds : List String := b.nodes.map Node.xid

/-- The nodes that do not exist yet. -/
def creates : List Node := b.nodes.filter fun node => !node.isUpdate

/-- The nodes that exist already. -/
def updates : List Node := b.nodes.filter Node.isUpdate

end Batch

namespace Graph

variable {n : Nat} (g : Graph n)

/-- The children of the nodes of a layer, in the order of the input. -/
def nextLayer (layer : List (Fin n)) : List (Fin n) :=
  g.positions.filter fun i => (g.parent i).any layer.contains

/-- The layers from a given one on, at most as many as the fuel. -/
def layersFrom (layer : List (Fin n)) : Nat → List (List (Fin n))
  | 0 => []
  | fuel + 1 => if layer.isEmpty then [] else layer :: layersFrom (g.nextLayer layer) fuel

/-- The nodes by their distance from the roots. No distance exceeds the number of nodes. -/
def layers : List (List (Fin n)) := g.layersFrom g.roots n

def entry (i : Fin n) : Entry n := ⟨i, g.node i⟩

/-- The batches of the layers, numbered later. A size of zero counts as one. -/
def slices (maxSize : Nat) : List (Nat × List (Fin n)) :=
  g.layers.zipIdx.flatMap fun (layer, depth) =>
    (chunks (max 1 maxSize) layer).map fun slice => (depth, slice)

/-- The batches in writing order, or the nodes on cycles, which have no place in any order. -/
def plan (maxSize : Nat) : Except Report (List (Batch n)) :=
  let cycles := g.cycleMembers
  if cycles.isEmpty then
    .ok ((g.slices maxSize).zipIdx.map fun ((depth, slice), index) =>
      ⟨index, depth, slice.map g.entry⟩)
  else .error { cycles := cycles.map g.node }

end Graph

end AssetHierarchy
