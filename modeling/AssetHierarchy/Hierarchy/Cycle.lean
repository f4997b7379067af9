import AssetHierarchy.Hierarchy.Graph

/-! Nodes on a cycle of parent links. A node has at most one parent, so the walk from a node is one
path upwards. It ends at a node without parent, at a node of an earlier walk, or at a node of its
own path, and then that node and all after it on the path form a cycle. Each node is put on a path
once, so the whole search takes a number of steps linear in the number of nodes. -/
namespace AssetHierarchy

inductive Colour where
  | unvisited
  | inProgress
  | done
deriving DecidableEq

/-- One value at each of the given positions. -/
def setAll {α : Type} {n : Nat} (v : Vector α n) (is : List (Fin n)) (a : α) : Vector α n :=
  is.foldl (fun v (i : Fin n) => v.set i a i.isLt) v

theorem get_set {α : Type} {n : Nat} (v : Vector α n) (i j : Fin n) (a : α) :
    (v.set i a i.isLt).get j = if i = j then a else v.get j := by
  show (v.set i a i.isLt)[j.val] = if i = j then a else v[j.val]
  rw [Vector.getElem_set]
  simp only [Fin.ext_iff]

theorem get_setAll_of_notMem {α : Type} {n : Nat} (v : Vector α n) {is : List (Fin n)} (a : α)
    {j : Fin n} (h : j ∉ is) : (setAll v is a).get j = v.get j := by
  induction is generalizing v with
  | nil => rfl
  | cons i rest ih =>
    obtain ⟨hi, hr⟩ : j ≠ i ∧ j ∉ rest := by simpa using h
    have hs : setAll v (i :: rest) a = setAll (v.set i a i.isLt) rest a := rfl
    rw [hs, ih _ hr, get_set, if_neg (Ne.symm hi)]

theorem get_setAll_of_mem {α : Type} {n : Nat} (v : Vector α n) {is : List (Fin n)} (a : α)
    {j : Fin n} (h : j ∈ is) : (setAll v is a).get j = a := by
  induction is generalizing v with
  | nil => simp at h
  | cons i rest ih =>
    have hs : setAll v (i :: rest) a = setAll (v.set i a i.isLt) rest a := rfl
    rw [hs]
    by_cases hr : j ∈ rest
    · exact ih _ hr
    · rw [get_setAll_of_notMem _ a hr, get_set, if_pos]
      exact ((List.mem_cons.mp h).resolve_right hr).symm

structure Walk (n : Nat) where
  colour : Vector Colour n
  onCycle : Vector Bool n
  /-- Where a node stands on its path. -/
  position : Vector Nat n
  path : Array (Fin n)
  /-- The nodes of the earlier paths, in the order in which they were reached. -/
  settled : Array (Fin n)

namespace Walk

variable {n : Nat}

def start (n : Nat) : Walk n where
  colour := Vector.replicate n .unvisited
  onCycle := Vector.replicate n false
  position := Vector.replicate n 0
  path := #[]
  settled := #[]

/-- How many nodes no path has reached. -/
def remaining (w : Walk n) : Nat := w.colour.count .unvisited

/-- Puts a node at the end of the path. -/
def push (w : Walk n) (i : Fin n) : Walk n :=
  { w with
    colour := w.colour.set i .inProgress i.isLt
    position := w.position.set i w.path.size i.isLt
    path := w.path.push i }

/-- Marks the path from a node of it to the end as a cycle. -/
def closeCycle (w : Walk n) (i : Fin n) : Walk n :=
  { w with
    onCycle := setAll w.onCycle (w.path.toList.drop (w.position.get i)) true }

theorem remaining_push {w : Walk n} {i : Fin n} (h : w.colour.get i = .unvisited) :
    (w.push i).remaining < w.remaining := by
  have hi : w.colour[i.val] = .unvisited := h
  have hpos : 0 < w.colour.count .unvisited :=
    Vector.count_pos_iff.mpr (hi ▸ Vector.getElem_mem _)
  show (w.colour.set i .inProgress i.isLt).count .unvisited < w.colour.count .unvisited
  rw [Vector.count_set, hi, if_pos (by decide), if_neg (by decide)]
  omega

/-- Follows parent links from a node as far as they lead to unvisited nodes. -/
def follow (parent : Fin n → Option (Fin n)) (w : Walk n) (current : Option (Fin n)) : Walk n :=
  match current with
  | none => w
  | some i =>
    match _ : w.colour.get i with
    | .unvisited => follow parent (w.push i) (parent i)
    | .inProgress => w.closeCycle i
    | .done => w
termination_by w.remaining
decreasing_by exact remaining_push ‹_›

/-- Takes all nodes off the path for good. -/
def settle (w : Walk n) : Walk n :=
  { w with
    colour := setAll w.colour w.path.toList .done
    path := #[]
    settled := w.settled ++ w.path }

/-- The walk that starts at a node, or nothing if the node was reached before. -/
def visit (parent : Fin n → Option (Fin n)) (w : Walk n) (i : Fin n) : Walk n :=
  if w.colour.get i = .unvisited then (w.follow parent (some i)).settle else w

def all (parent : Fin n → Option (Fin n)) : Walk n :=
  (List.finRange n).foldl (visit parent) (start n)

end Walk

namespace Graph

variable {n : Nat} (g : Graph n)

/-- For each position, whether it is on a cycle of parent links. -/
def cycleFlags : Vector Bool n := (Walk.all g.parent).onCycle

def cycleMembers : List (Fin n) :=
  g.positions.filter g.cycleFlags.get

end Graph

end AssetHierarchy
