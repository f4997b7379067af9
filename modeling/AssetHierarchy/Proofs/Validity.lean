import AssetHierarchy.Proofs.CycleWalk
import AssetHierarchy.Proofs.Lists
import AssetHierarchy.Proofs.Settlement

/-! What the check of a graph comes to. A report without problems means that no chain of parent
links returns to its start, that the external ids are all there and distinct, and that each parent
which no node carries is known to exist. -/
namespace AssetHierarchy

theorem Node.key?_eq_some_iff {node : Node} {x : String} :
    node.key? = some x ↔ node.externalId = some x ∧ x ≠ "" := by
  simp [key?, Option.filter_eq_some_iff]

theorem Node.key?_of_not_isMalformed {node : Node} (h : node.isMalformed = false) :
    node.key? = some node.xid := by
  simp only [isMalformed, Bool.or_eq_false_iff] at h
  obtain ⟨⟨⟨⟨hid, -⟩, -⟩, -⟩, -⟩ := h
  unfold key? xid
  cases hx : node.externalId with
  | none => simp [hx, isMissingOrBlank] at hid
  | some x =>
    have hne : x ≠ "" := by
      rintro rfl
      simp [hx, isMissingOrBlank, Text.allBlank] at hid
    simp [hne]

namespace Graph

variable {n : Nat} {g : Graph n} {exists? : String → Bool}

theorem mem_occurrences {x : String} {i : Fin n} :
    i ∈ g.occurrences x ↔ (g.node i).key? = some x := by
  simp [occurrences, positions]

theorem nodesWhere_eq_nil_iff {p : Fin n → Bool} : g.nodesWhere p = [] ↔ ∀ i, p i = false := by
  simp [nodesWhere, positions]

/-- What a graph without problems satisfies. -/
structure Valid (g : Graph n) (exists? : String → Bool) : Prop where
  wellFormed : ∀ i, (g.node i).isMalformed = false
  acyclic : ∀ i, ¬OnCycle g.parent i
  parents : ∀ i p, g.unresolvedParent i = some p → exists? p = true
  sure : ∀ i, g.isUnsure i = false
  single : ∀ i, g.isRepeated i = false

theorem isValid_validate_iff : (g.validate exists?).isValid = true ↔ g.Valid exists? := by
  rw [Report.isValid_iff]
  simp only [validate, nodesWhere_eq_nil_iff, Bool.and_eq_false_iff, Bool.not_eq_false',
    get_cycleFlags_eq_false_iff]
  constructor
  · rintro ⟨hinvalid, horphan, hunsure, hrepeated, hcycle⟩
    have hnot : ∀ i, ¬g.cycleFlags.get i = true :=
      fun i h => hcycle i ((g.get_cycleFlags_iff i).mp h)
    refine ⟨hinvalid, hcycle, fun i p hp => ?_, fun i => (hunsure i).resolve_left (hnot i),
      hrepeated⟩
    have hi := (horphan i).resolve_left (hnot i)
    simpa [isOrphan, hp] using hi
  · intro h
    refine ⟨h.wellFormed, fun i => .inr ?_, fun i => .inr (h.sure i), h.single, h.acyclic⟩
    unfold isOrphan
    cases hp : g.unresolvedParent i with
    | none => rfl
    | some p => simp [h.parents i p hp]

theorem Valid.named (h : g.Valid exists?) : g.Named := fun i =>
  (Node.key?_eq_some_iff.mp (Node.key?_of_not_isMalformed (h.wellFormed i))).1

/-- A carrier of an external id that is not repeated is its only one. -/
theorem Valid.distinctIds (h : g.Valid exists?) : g.DistinctIds := by
  intro i j hij
  have hi : i ∈ g.occurrences (g.node i).xid :=
    mem_occurrences.mpr (Node.key?_of_not_isMalformed (h.wellFormed i))
  have hj : j ∈ g.occurrences (g.node i).xid :=
    mem_occurrences.mpr (hij ▸ Node.key?_of_not_isMalformed (h.wellFormed j))
  have hsingle := h.single i
  rw [isRepeated, Bool.or_eq_false_iff, isDuplicate, decide_eq_false_iff_not] at hsingle
  exact eq_of_mem_of_length_le_one (Nat.le_of_not_lt hsingle.1) hi hj

/-- The planner accepts what the check accepts. -/
theorem exists_plan (h : ∀ i, ¬OnCycle g.parent i) (size : Nat) : ∃ bs, g.plan size = .ok bs := by
  unfold plan
  rw [if_pos (g.isEmpty_cycleMembers_iff.mpr h)]
  exact ⟨_, rfl⟩

/-! ### Parents outside of the input -/

theorem node_ofList (nodes : List Node) (i : Fin nodes.length) :
    (ofList nodes).node i = nodes.get i := by
  simp [node, ofList, ofVector, Vector.get]

theorem parent_ofList (nodes : List Node) (i : Fin nodes.length) :
    (ofList nodes).parent i =
      (nodes.get i).parentRef?.bind fun r => last? fun j => r.names (nodes.get j) := by
  simp only [parent, ofList, ofVector, Vector.get, Vector.toArray_map, Array.getElem_map]
  rfl

theorem map_node_ofList (nodes : List Node) :
    (ofList nodes).positions.map (ofList nodes).node = nodes := by
  have h : (ofList nodes).node = nodes.get := funext (node_ofList nodes)
  rw [h, positions, List.map_get_finRange]

end Graph

/-- A node's parent is given by an external id that none of the nodes has. -/
def Node.outsideParent? (nodes : List Node) (node : Node) : Option String :=
  node.parentExternalId.filter fun p => p ≠ "" ∧ ∀ m ∈ nodes, m.externalId ≠ some p

theorem Node.outsideParent?_eq_some_iff {nodes : List Node} {node : Node} {p : String} :
    node.outsideParent? nodes = some p ↔
      node.parentExternalId = some p ∧ p ≠ "" ∧ ∀ m ∈ nodes, m.externalId ≠ some p := by
  simp [outsideParent?, Option.filter_eq_some_iff]

/-- The parents outside of a list of nodes, each where it appears first. -/
def outsideParents (nodes : List Node) : List String :=
  (nodes.filterMap (Node.outsideParent? nodes)).eraseDups

namespace Graph

theorem unresolvedParent_ofList (nodes : List Node) (i : Fin nodes.length) :
    (ofList nodes).unresolvedParent i = Node.outsideParent? nodes (nodes.get i) := by
  have hcarried : ∀ p : String, p ≠ "" → (((ofList nodes).occurrences p).isEmpty = true ↔
      ∀ m ∈ nodes, m.externalId ≠ some p) := by
    intro p hp
    have hkey : ∀ j, j ∈ (ofList nodes).occurrences p ↔ (nodes.get j).externalId = some p := by
      intro j
      rw [mem_occurrences, node_ofList, Node.key?_eq_some_iff]
      exact and_iff_left hp
    rw [List.isEmpty_iff, List.eq_nil_iff_forall_not_mem]
    constructor
    · intro h m hm hx
      obtain ⟨j, rfl⟩ := List.mem_iff_get.mp hm
      exact h j ((hkey j).mpr hx)
    · intro h j hj
      exact h _ (List.get_mem nodes j) ((hkey j).mp hj)
  unfold unresolvedParent Node.outsideParent? Node.parentKey?
  rw [node_ofList, Option.filter_filter]
  congr 1
  funext p
  by_cases hp : p = ""
  · simp [hp]
  · have hiff := hcarried p hp
    rw [Bool.eq_iff_iff]
    simpa [hp] using hiff

theorem unresolvedParents_ofList (nodes : List Node) :
    (ofList nodes).unresolvedParents = outsideParents nodes := by
  have h : (ofList nodes).unresolvedParent =
      Node.outsideParent? nodes ∘ (ofList nodes).node := by
    funext i
    rw [unresolvedParent_ofList, Function.comp_apply, node_ofList]
  unfold unresolvedParents outsideParents
  rw [foldl_distinct (ofList nodes).unresolvedParent (fun seen i hi => by simp [hi])
    (fun seen i p hi => by simp [hi]), h, ← List.filterMap_map, map_node_ofList]

/-! ### Orphans -/

theorem nodesWhere_ofList (nodes : List Node) (p : Fin nodes.length → Bool) :
    (ofList nodes).nodesWhere p = ((List.finRange nodes.length).filter p).map nodes.get := by
  have h : (ofList nodes).node = nodes.get := funext (node_ofList nodes)
  rw [nodesWhere, positions, h]

theorem isOrphan_ofList (nodes : List Node) (exists? : String → Bool) (i : Fin nodes.length) :
    (ofList nodes).isOrphan exists? i =
      ((nodes.get i).outsideParent? nodes).any fun p => !exists? p := by
  rw [isOrphan, unresolvedParent_ofList]

/-- Without cycles an orphan is any node with a parent outside that does not exist. -/
theorem orphans_of_acyclic (nodes : List Node) (exists? : String → Bool)
    (h : ∀ i, ¬OnCycle (ofList nodes).parent i) :
    ((ofList nodes).validate exists?).orphans =
      nodes.filter fun node => (node.outsideParent? nodes).any fun p => !exists? p := by
  have hflag := fun i => ((ofList nodes).get_cycleFlags_eq_false_iff i).mpr (h i)
  simp only [validate, nodesWhere_ofList, hflag, Bool.not_false, Bool.true_and, isOrphan_ofList]
  conv_rhs => rw [← List.map_get_finRange nodes, List.filter_map]
  simp [Function.comp_def]

end Graph

end AssetHierarchy
