import AssetHierarchy.Proofs.Layering

/-! A graph can be built in two passes over its nodes. The first enters each node into tables under
its ids, where a later entry takes the place of an earlier one or is added to it. The second looks
the parents up, which may stand after their children, and notes each node with its parent or as a
root. The passes come to the graph that is defined by searches through the whole list. -/
namespace AssetHierarchy

variable {n : Nat}

/-! ### The tables -/

/-- What is known of the nodes that have been entered. -/
structure NodeTables (n : Nat) where
  /-- Where an external id was entered last. -/
  byExternalId : Std.HashMap String (Fin n) := ∅
  /-- Where it was entered at all, in order. -/
  occurrences : Std.HashMap String (List (Fin n)) := ∅
  /-- Where an internal id was entered last. -/
  byId : Std.HashMap UInt64 (Fin n) := ∅
  /-- How often it was entered. -/
  idCounts : Std.HashMap UInt64 Nat := ∅

namespace NodeTables

def enterExternalId (t : NodeTables n) (x : String) (i : Fin n) : NodeTables n :=
  { t with
    byExternalId := t.byExternalId.insert x i
    occurrences := t.occurrences.alter x fun is => some (is.getD [] ++ [i]) }

def enterId (t : NodeTables n) (d : UInt64) (i : Fin n) : NodeTables n :=
  { t with
    byId := t.byId.insert d i
    idCounts := t.idCounts.alter d fun k => some (k.getD 0 + 1) }

/-- An empty external id is passed over. -/
def enter (nodes : Vector Node n) (t : NodeTables n) (i : Fin n) : NodeTables n :=
  let t := match (nodes.get i).key? with
    | some x => t.enterExternalId x i
    | none => t
  match (nodes.get i).id with
  | some d => t.enterId d i
  | none => t

def ofVector (nodes : Vector Node n) : NodeTables n :=
  (List.finRange n).foldl (enter nodes) {}

variable (t : NodeTables n)

def occurrencesOf (x : String) : List (Fin n) := t.occurrences.getD x []

def isDuplicate (x : String) : Bool := 1 < (t.occurrencesOf x).length

def isDuplicateId (d : UInt64) : Bool := t.idCounts[d]?.any fun count => 1 < count

/-- A parent's internal id is looked up only if there is no external id to look up, be it entered
or not. -/
def parent? (node : Node) : Option (Fin n) :=
  match node.parentKey?, node.parentId with
  | some x, _ => t.byExternalId[x]?
  | none, some d => t.byId[d]?
  | none, none => none

def unresolvedParent (node : Node) : Option String :=
  node.parentKey?.filter fun x => !t.byExternalId.contains x

end NodeTables

/-! ### The links -/

/-- The parents of the nodes looked at so far, and the same links from above. -/
@[ext] structure ParentLinks (n : Nat) where
  parents : List (Option (Fin n)) := []
  children : Vector (List (Fin n)) n := .replicate n []
  roots : List (Fin n) := []

def ParentLinks.note (l : ParentLinks n) (i : Fin n) (parent : Option (Fin n)) : ParentLinks n :=
  let l := match parent with
    | some p => { l with children := l.children.set p (l.children.get p ++ [i]) p.isLt }
    | none => { l with roots := l.roots ++ [i] }
  { l with parents := l.parents ++ [parent] }

def NodeTables.links (t : NodeTables n) (nodes : Vector Node n) : ParentLinks n :=
  (List.finRange n).foldl (fun l i => l.note i (t.parent? (nodes.get i))) {}

/-! ### The first pass -/

/-- A value is changed, or put in where there was none. -/
theorem getD_alter_getD {κ β : Type} [BEq κ] [LawfulBEq κ] [Hashable κ] (m : Std.HashMap κ β)
    (k k' : κ) (b : β) (f : β → β) : (m.alter k fun old => some (f (old.getD b))).getD k' b =
      if k == k' then f (m.getD k b) else m.getD k' b := by
  rw [Std.HashMap.getD_alter, Std.HashMap.getD_eq_getD_getElem? (a := k)]
  rfl

namespace NodeTables

/-- The tables after some nodes have been entered under their external ids, and some under their
internal ids. -/
structure Holds (nodes : Vector Node n) (named numbered : List (Fin n)) (t : NodeTables n) :
    Prop where
  byExternalId : ∀ x,
    t.byExternalId[x]? = named.reverse.find? fun j => (nodes.get j).key? == some x
  occurrences : ∀ x,
    t.occurrences.getD x [] = named.filter fun j => (nodes.get j).key? == some x
  byId : ∀ d, t.byId[d]? = numbered.reverse.find? fun j => (nodes.get j).id == some d
  idCounts : ∀ d, t.idCounts.getD d 0 = numbered.countP fun j => (nodes.get j).id == some d

namespace Holds

variable {nodes : Vector Node n} {named numbered is : List (Fin n)} {t : NodeTables n} {i : Fin n}

theorem enterExternalId (h : Holds nodes named numbered t) {x : String}
    (hx : (nodes.get i).key? = some x) :
    Holds nodes (named ++ [i]) numbered (t.enterExternalId x i) where
  byExternalId y := by
    rw [find?_reverse_concat, hx, ← h.byExternalId]
    exact Std.HashMap.getElem?_insert
  occurrences y := by
    have halter : (t.enterExternalId x i).occurrences.getD y [] =
        if x == y then t.occurrences.getD x [] ++ [i] else t.occurrences.getD y [] :=
      getD_alter_getD t.occurrences x y [] (· ++ [i])
    rw [halter, h.occurrences, h.occurrences, List.filter_append]
    by_cases hxy : x = y
    · simp [hx, hxy]
    · simp [hx, hxy]
  byId := h.byId
  idCounts := h.idCounts

theorem enterId (h : Holds nodes named numbered t) {d : UInt64} (hd : (nodes.get i).id = some d) :
    Holds nodes named (numbered ++ [i]) (t.enterId d i) where
  byExternalId := h.byExternalId
  occurrences := h.occurrences
  byId e := by
    rw [find?_reverse_concat, hd, ← h.byId]
    exact Std.HashMap.getElem?_insert
  idCounts e := by
    have halter : (t.enterId d i).idCounts.getD e 0 =
        if d == e then t.idCounts.getD d 0 + 1 else t.idCounts.getD e 0 :=
      getD_alter_getD t.idCounts d e 0 (· + 1)
    rw [halter, h.idCounts, h.idCounts, List.countP_append]
    by_cases hde : d = e
    · simp [hd, hde]
    · simp [hd, hde]

theorem pass_externalId (h : Holds nodes named numbered t) (hx : (nodes.get i).key? = none) :
    Holds nodes (named ++ [i]) numbered t where
  byExternalId y := by
    rw [find?_reverse_concat, hx]
    exact h.byExternalId y
  occurrences y := by
    rw [List.filter_append, h.occurrences]
    simp [hx]
  byId := h.byId
  idCounts := h.idCounts

theorem pass_id (h : Holds nodes named numbered t) (hd : (nodes.get i).id = none) :
    Holds nodes named (numbered ++ [i]) t where
  byExternalId := h.byExternalId
  occurrences := h.occurrences
  byId e := by
    rw [find?_reverse_concat, hd]
    exact h.byId e
  idCounts e := by
    rw [List.countP_append, h.idCounts]
    simp [hd]

theorem enter (h : Holds nodes is is t) (i : Fin n) :
    Holds nodes (is ++ [i]) (is ++ [i]) (t.enter nodes i) := by
  have hnamed : Holds nodes (is ++ [i]) is (match (nodes.get i).key? with
      | some x => t.enterExternalId x i
      | none => t) := by
    split
    · next x hx => exact h.enterExternalId hx
    · next hx => exact h.pass_externalId hx
  unfold NodeTables.enter
  dsimp only
  split
  · next d hd => exact hnamed.enterId hd
  · next hd => exact hnamed.pass_id hd

end Holds

theorem holds_ofVector (nodes : Vector Node n) :
    Holds nodes (List.finRange n) (List.finRange n) (ofVector nodes) := by
  unfold ofVector
  induction List.finRange n using List.reverseRecOn with
  | nil =>
    exact ⟨fun _ => Std.HashMap.getElem?_empty, fun _ => Std.HashMap.getD_empty,
      fun _ => Std.HashMap.getElem?_empty, fun _ => Std.HashMap.getD_empty⟩
  | append_singleton is i ih =>
    rw [List.foldl_concat]
    exact ih.enter i

/-- A parent is looked up as the last of the nodes that it can mean. -/
theorem parent?_ofVector (nodes : Vector Node n) (node : Node) :
    (ofVector nodes).parent? node = Graph.resolve nodes node := by
  have h := holds_ofVector nodes
  unfold parent? Graph.resolve Node.parentRef? Graph.last?
  cases hx : node.parentKey? with
  | some x =>
    -- the empty external id is not in the tables, but no parent is looked up under it
    have hne : x ≠ "" := by simpa using (Option.filter_eq_some_iff.mp hx).2
    have hkey : ∀ j, ((nodes.get j).key? == some x) = ((nodes.get j).externalId == some x) := by
      intro j
      rw [Bool.eq_iff_iff, beq_iff_eq, beq_iff_eq, Node.key?_eq_some_iff]
      exact and_iff_left hne
    show (ofVector nodes).byExternalId[x]? = _
    rw [h.byExternalId]
    simp only [hkey]
    rfl
  | none =>
    cases node.parentId with
    | none => rfl
    | some d => exact h.byId d

end NodeTables

/-! ### The second pass -/

namespace ParentLinks

/-- The links after some nodes have been noted with their parents. -/
structure Holds (parentOf : Fin n → Option (Fin n)) (noted : List (Fin n)) (l : ParentLinks n) :
    Prop where
  parents : l.parents = noted.map parentOf
  children : ∀ p, l.children.get p = noted.filter fun i => parentOf i = some p
  roots : l.roots = noted.filter fun i => (parentOf i).isNone

variable {parentOf : Fin n → Option (Fin n)} {noted : List (Fin n)} {l : ParentLinks n}

theorem Holds.note (h : Holds parentOf noted l) (i : Fin n) :
    Holds parentOf (noted ++ [i]) (l.note i (parentOf i)) := by
  unfold ParentLinks.note
  cases hp : parentOf i with
  | none =>
    refine ⟨?_, fun p => ?_, ?_⟩
    · simp [h.parents, hp]
    · simp [h.children, hp]
    · simp [h.roots, hp]
  | some q =>
    refine ⟨?_, fun p => ?_, ?_⟩
    · simp [h.parents, hp]
    · show (l.children.set q (l.children.get q ++ [i]) q.isLt).get p = _
      rw [get_set, h.children, h.children, List.filter_append]
      by_cases hqp : q = p
      · simp [hp, hqp]
      · simp [hp, hqp]
    · simp [h.roots, hp]

theorem holds_foldl (parentOf : Fin n → Option (Fin n)) (is : List (Fin n)) :
    Holds parentOf is (is.foldl (fun l i => l.note i (parentOf i)) {}) := by
  induction is using List.reverseRecOn with
  | nil => exact ⟨rfl, fun p => by simp [Vector.get], rfl⟩
  | append_singleton is i ih =>
    rw [List.foldl_concat]
    exact ih.note i

end ParentLinks

/-! ### The graph -/

namespace NodeTables

/-- The tables say what the graph says, and the links found with them are those of the graph. -/
structure Describes (t : NodeTables n) (g : Graph n) : Prop where
  occurrencesOf : ∀ x, t.occurrencesOf x = g.occurrences x
  isDuplicate : ∀ x, t.isDuplicate x = g.isDuplicate x
  isDuplicateId : ∀ d, t.isDuplicateId d = g.isDuplicateId d
  unresolvedParent : ∀ i, t.unresolvedParent (g.node i) = g.unresolvedParent i
  links : t.links g.nodes = ⟨g.parents.toList, g.children, g.roots⟩

theorem links_ofVector (nodes : Vector Node n) :
    (ofVector nodes).links nodes = ⟨(Graph.ofVector nodes).parents.toList,
      (Graph.ofVector nodes).children, (Graph.ofVector nodes).roots⟩ := by
  have hparent : (fun i => (ofVector nodes).parent? (nodes.get i)) =
      (Graph.ofVector nodes).parent := by
    funext i
    rw [parent?_ofVector]
    exact (Vector.getElem_map _ _).symm
  have h : ParentLinks.Holds (Graph.ofVector nodes).parent (List.finRange n)
      ((ofVector nodes).links nodes) := by
    rw [← hparent]
    exact ParentLinks.holds_foldl _ _
  refine ParentLinks.ext ?_ ?_ h.roots
  · rw [h.parents]
    exact List.ext_getElem (by simp) fun k _ _ => by simp [Graph.parent, Vector.get]
  · refine Vector.ext fun p hp => ?_
    exact (h.children ⟨p, hp⟩).trans (Graph.get_children nodes ⟨p, hp⟩).symm

theorem describes_ofVector (nodes : Vector Node n) :
    (ofVector nodes).Describes (Graph.ofVector nodes) where
  occurrencesOf := (holds_ofVector nodes).occurrences
  isDuplicate x := by
    unfold isDuplicate Graph.isDuplicate
    rw [show (ofVector nodes).occurrencesOf x = _ from (holds_ofVector nodes).occurrences x]
    rfl
  isDuplicateId d := by
    have hany : ∀ count : Option Nat, count.any (1 < ·) = decide (1 < count.getD 0) := by
      intro count
      cases count <;> rfl
    unfold isDuplicateId Graph.isDuplicateId
    rw [hany, ← Std.HashMap.getD_eq_getD_getElem?, (holds_ofVector nodes).idCounts,
      List.countP_eq_length_filter]
    rfl
  unresolvedParent i := by
    unfold unresolvedParent Graph.unresolvedParent
    congr 1
    funext x
    rw [Std.HashMap.contains_eq_isSome_getElem?, (holds_ofVector nodes).byExternalId,
      Option.not_isSome, Bool.eq_iff_iff, Option.isNone_iff_eq_none, List.find?_eq_none,
      List.isEmpty_iff, Graph.occurrences, List.filter_eq_nil_iff]
    simp only [List.mem_reverse]
    rfl
  links := links_ofVector nodes

end NodeTables

end AssetHierarchy
