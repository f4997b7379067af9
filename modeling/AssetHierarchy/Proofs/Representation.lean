import AssetHierarchy.Proofs.Problems
import AssetHierarchy.Proofs.TwoPasses

/-! What a graph says of the list of nodes that it is made from. The ids, the links to parents and
the links from them are kept apart from each other, and all that is built on a graph relies on it
that they agree. Nothing is asked of the nodes: ids may be missing, empty or repeated, and a parent
may be given in two ways or in none. -/
namespace AssetHierarchy

/-- The last of the nodes that have the property is at the position. -/
def LastAt (nodes : List Node) (P : Node → Prop) (p : Fin nodes.length) : Prop :=
  P (nodes.get p) ∧ ∀ j, p < j → ¬P (nodes.get j)

namespace Graph

variable {nodes : List Node} {i p : Fin nodes.length}

/-- The graph says of the nodes what their ids and references say, the last carrier of an id being
the one that is meant. -/
structure Represents (nodes : List Node) (g : Graph nodes.length) : Prop where
  node_eq : ∀ i, g.node i = nodes.get i
  occurrences_sorted : ∀ x, (g.occurrences x).Pairwise (· < ·)
  mem_occurrences_iff : ∀ x i, i ∈ g.occurrences x ↔ (nodes.get i).externalId = some x ∧ x ≠ ""
  isDuplicate_iff : ∀ x, g.isDuplicate x = true ↔ x ≠ "" ∧ 2 ≤ externalIdCount nodes x
  isDuplicateId_iff : ∀ d, g.isDuplicateId d = true ↔ 2 ≤ internalIdCount nodes d
  /-- An internal id that is given besides has no part in it. -/
  parent_byExternalId : ∀ i x, (nodes.get i).parentExternalId = some x → x ≠ "" →
    ∀ p, g.parent i = some p ↔ LastAt nodes (·.externalId = some x) p
  parent_byId : ∀ i,
    (nodes.get i).parentExternalId = none ∨ (nodes.get i).parentExternalId = some "" →
    ∀ d, (nodes.get i).parentId = some d →
    ∀ p, g.parent i = some p ↔ LastAt nodes (·.id = some d) p
  parent_ungiven : ∀ i,
    (nodes.get i).parentExternalId = none ∨ (nodes.get i).parentExternalId = some "" →
    (nodes.get i).parentId = none → g.parent i = none
  mem_children_iff : ∀ i p, i ∈ g.children.get p ↔ g.parent i = some p
  children_sorted : ∀ p, (g.children.get p).Pairwise (· < ·)
  roots_sorted : g.roots.Pairwise (· < ·)
  root_or_child : ∀ i, (i ∈ g.roots ∧ ∀ p, i ∉ g.children.get p) ∨
    (i ∉ g.roots ∧ ∃! p, i ∈ g.children.get p)
  parent_or_unresolved : ∀ i x, (nodes.get i).parentExternalId = some x → x ≠ "" →
    ((∃ p, g.parent i = some p) ∧ g.unresolvedParent i = none ∧
      ∃ m ∈ nodes, m.externalId = some x) ∨
    (g.parent i = none ∧ g.unresolvedParent i = some x ∧ ∀ m ∈ nodes, m.externalId ≠ some x)

/-! ### Parents -/

theorem last?_eq_none_iff {n : Nat} {p : Fin n → Bool} :
    last? p = none ↔ ∀ j, p j = false := by
  simp [last?]

theorem parent_of_parentRef {r : ParentRef} (hr : (nodes.get i).parentRef? = some r) :
    (ofList nodes).parent i = some p ↔ LastAt nodes (r.names · = true) p := by
  rw [parent_ofList, hr, Option.bind_some, last?_eq_some_iff_last]
  simp only [LastAt, Bool.not_eq_true]

theorem parent_eq_none_iff_of_parentRef {r : ParentRef}
    (hr : (nodes.get i).parentRef? = some r) :
    (ofList nodes).parent i = none ↔ ∀ m ∈ nodes, r.names m = false := by
  rw [parent_ofList, hr, Option.bind_some, last?_eq_none_iff, List.forall_mem_iff_get]

theorem parentRef?_of_parentExternalId {node : Node} {x : String}
    (h : node.parentExternalId = some x) (hx : x ≠ "") :
    node.parentRef? = some (.externalId x) := by
  rw [Node.parentRef?, Node.parentKey?_eq_some_iff.mpr ⟨h, hx⟩]

theorem parentRef?_of_parentId {node : Node}
    (h : node.parentExternalId = none ∨ node.parentExternalId = some "") :
    node.parentRef? = node.parentId.map .id := by
  rw [Node.parentRef?, Node.parentKey?_eq_none_iff.mpr h]

theorem parent_or_unresolved_ofList {x : String} (h : (nodes.get i).parentExternalId = some x)
    (hx : x ≠ "") :
    ((∃ p, (ofList nodes).parent i = some p) ∧ (ofList nodes).unresolvedParent i = none ∧
      ∃ m ∈ nodes, m.externalId = some x) ∨
    ((ofList nodes).parent i = none ∧ (ofList nodes).unresolvedParent i = some x ∧
      ∀ m ∈ nodes, m.externalId ≠ some x) := by
  have hnone := parent_eq_none_iff_of_parentRef (parentRef?_of_parentExternalId h hx)
  simp only [ParentRef.names, beq_eq_false_iff_ne] at hnone
  rw [unresolvedParent_ofList]
  by_cases hcarried : ∃ m ∈ nodes, m.externalId = some x
  · obtain ⟨m, hm, hmx⟩ := hcarried
    refine .inl ⟨?_, ?_, m, hm, hmx⟩
    · rw [← Option.ne_none_iff_exists']
      exact fun hp => hnone.mp hp m hm hmx
    · refine Option.eq_none_iff_forall_ne_some.mpr fun y hy => ?_
      obtain ⟨hy, -, houtside⟩ := Node.outsideParent?_eq_some_iff.mp hy
      obtain rfl := Option.some.inj (h.symm.trans hy)
      exact houtside m hm hmx
  · have houtside : ∀ m ∈ nodes, m.externalId ≠ some x :=
      fun m hm hmx => hcarried ⟨m, hm, hmx⟩
    exact .inr ⟨hnone.mpr houtside, Node.outsideParent?_eq_some_iff.mpr ⟨h, hx, houtside⟩, houtside⟩

/-! ### The invariant -/

theorem represents_ofList (nodes : List Node) : (ofList nodes).Represents nodes where
  node_eq := node_ofList nodes
  occurrences_sorted _ := pairwise_filter_positions _
  mem_occurrences_iff x i := by rw [mem_occurrences, node_ofList, Node.key?_eq_some_iff]
  isDuplicate_iff _ := isDuplicate_ofList_iff
  isDuplicateId_iff _ := isDuplicateId_ofList_iff
  parent_byExternalId i x h hx p := by
    rw [parent_of_parentRef (parentRef?_of_parentExternalId h hx)]
    simp only [ParentRef.names, beq_iff_eq]
  parent_byId i h d hd p := by
    have hr := parentRef?_of_parentId h
    rw [hd] at hr
    rw [parent_of_parentRef hr]
    simp only [ParentRef.names, beq_iff_eq]
  parent_ungiven i h hd := by
    rw [parent_ofList, parentRef?_of_parentId h, hd]
    rfl
  mem_children_iff _ _ := mem_children _
  children_sorted p := by
    rw [show (ofList nodes).children.get p = _ from get_children _ p]
    exact pairwise_filter_positions _
  roots_sorted := pairwise_filter_positions _
  root_or_child i := by
    have hchildren : ∀ p, i ∈ (ofList nodes).children.get p ↔ (ofList nodes).parent i = some p :=
      fun _ => mem_children _
    simp only [(rooted_ofList nodes).mem_roots, hchildren]
    cases (ofList nodes).parent i with
    | none => exact .inl ⟨rfl, nofun⟩
    | some p => exact .inr ⟨nofun, p, rfl, fun q hq => (Option.some.inj hq).symm⟩
  parent_or_unresolved _ _ h hx := parent_or_unresolved_ofList h hx

end Graph

/-- A graph that is made from nodes represents them, and it is what two passes over the nodes
leave: tables of the ids first, then the links. -/
theorem ofList_represents (nodes : List Node) :
    let g := Graph.ofList nodes
    (NodeTables.ofVector g.nodes).Describes g ∧ g.Represents nodes :=
  ⟨NodeTables.describes_ofVector _, Graph.represents_ofList nodes⟩

example :
    let g := Graph.ofList [.named "a" "First", .named "a" "Second",
      ((Node.named "b" "Third").withParent "a").withParentId 7,
      ((Node.named "c" "Fourth").withParent "x").withParentId 7, (Node.named "d" "Fifth").withId 7]
    g.occurrences "a" = [0, 1] ∧ g.parent 2 = some 1 ∧ g.children.get 0 = [] ∧
      g.parent 3 = none ∧ g.unresolvedParent 3 = some "x" := by
  decide +kernel

end AssetHierarchy
