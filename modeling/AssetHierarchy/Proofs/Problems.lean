import AssetHierarchy.Proofs.Validity
import Mathlib.Algebra.Group.Nat.Defs

/-! What the report on a list of nodes says, told from the list alone: by how many nodes carry an id
and by which node a reference means. No graph is needed to read it. -/
namespace AssetHierarchy

open Relation

/-! ### Ids and references -/

/-- How many of the nodes carry the external id. -/
def externalIdCount (nodes : List Node) (x : String) : Nat :=
  nodes.countP fun node => node.externalId == some x

/-- How many of the nodes carry the internal id. -/
def internalIdCount (nodes : List Node) (d : UInt64) : Nat :=
  nodes.countP fun node => node.id == some d

/-- The second node carries the id that the first gives for its parent. An internal id counts only
where no external id is given, and the empty one counts as none. -/
inductive Node.Refers (a b : Node) : Prop
  | byExternalId (x : String) (ha : a.parentExternalId = some x) (hx : x ≠ "")
      (hb : b.externalId = some x)
  | byId (d : UInt64) (hx : a.parentExternalId = none ∨ a.parentExternalId = some "")
      (ha : a.parentId = some d) (hb : b.id = some d)

theorem Node.parentKey?_eq_some_iff {node : Node} {x : String} :
    node.parentKey? = some x ↔ node.parentExternalId = some x ∧ x ≠ "" := by
  simp [parentKey?, Option.filter_eq_some_iff]

theorem Node.parentKey?_eq_none_iff {node : Node} :
    node.parentKey? = none ↔ node.parentExternalId = none ∨ node.parentExternalId = some "" := by
  unfold parentKey?
  cases node.parentExternalId <;> simp [Option.filter_some]

theorem Node.refers_iff {a b : Node} :
    a.Refers b ↔ ∃ r, a.parentRef? = some r ∧ r.names b = true := by
  unfold parentRef?
  constructor
  · rintro (⟨x, ha, hx, hb⟩ | ⟨d, hx, ha, hb⟩)
    · rw [parentKey?_eq_some_iff.mpr ⟨ha, hx⟩]
      exact ⟨.externalId x, rfl, beq_iff_eq.mpr hb⟩
    · rw [parentKey?_eq_none_iff.mpr hx, ha]
      exact ⟨.id d, rfl, beq_iff_eq.mpr hb⟩
  · rintro ⟨r, hr, hb⟩
    split at hr
    · next x hkey =>
      obtain rfl := Option.some.inj hr
      obtain ⟨ha, hx⟩ := parentKey?_eq_some_iff.mp hkey
      exact .byExternalId x ha hx (beq_iff_eq.mp hb)
    · next hkey =>
      obtain ⟨d, ha, rfl⟩ := Option.map_eq_some_iff.mp hr
      exact .byId d (parentKey?_eq_none_iff.mp hkey) ha (beq_iff_eq.mp hb)

/-- The node at the second position is the parent of the one at the first: of the nodes that carry
the id, the last. -/
def ParentAt (nodes : List Node) (i p : Fin nodes.length) : Prop :=
  (nodes.get i).Refers (nodes.get p) ∧ ∀ j, p < j → ¬(nodes.get i).Refers (nodes.get j)

/-- References lead from the node back to it. -/
def OnReferenceCycle (nodes : List Node) (i : Fin nodes.length) : Prop :=
  TransGen (ParentAt nodes) i i

/-! ### Problems -/

/-- No text, or white space only. -/
def Blank (s : Option String) : Prop := ∀ x ∈ s, ∀ c ∈ x.toList, Text.isBlank c = true

/-- A number that the service gives to no asset. -/
def OutOfRange (id : Option UInt64) : Prop :=
  ∃ d ∈ id, ¬(1 ≤ d.toNat ∧ d.toNat ≤ 2 ^ 53 - 1)

inductive Node.Malformed (node : Node) : Prop
  | externalId (h : Blank node.externalId)
  | name (h : Blank node.name)
  | parentExternalId (h : node.parentExternalId = some "")
  | id (h : OutOfRange node.id)
  | parentId (h : OutOfRange node.parentId)

section

variable (nodes : List Node) (exists? : String → Bool)

/-- The parent is given by an external id that no node carries and no existing asset has. -/
def Orphaned (i : Fin nodes.length) : Prop :=
  ∃ p, (nodes.get i).parentExternalId = some p ∧ p ≠ "" ∧ (∀ m ∈ nodes, m.externalId ≠ some p) ∧
    exists? p = false

/-- More than one asset could be the parent. -/
inductive Unsure (i : Fin nodes.length) : Prop
  | twoReferences (hx : (nodes.get i).parentExternalId ≠ none) (hd : (nodes.get i).parentId ≠ none)
  | repeatedExternalId (p : String) (h : (nodes.get i).parentExternalId = some p) (hp : p ≠ "")
      (hcount : 2 ≤ externalIdCount nodes p)
  | repeatedId (d : UInt64) (h : (nodes.get i).parentId = some d)
      (hcount : 2 ≤ internalIdCount nodes d)
  | disagreement (j : Fin nodes.length) (hj : j ≠ i) (x : String) (hx : x ≠ "")
      (hxi : (nodes.get i).externalId = some x) (hxj : (nodes.get j).externalId = some x)
      (hparent : ((nodes.get j).parentExternalId, (nodes.get j).parentId) ≠
        ((nodes.get i).parentExternalId, (nodes.get i).parentId))

/-- Another node carries one of the ids too. -/
inductive Repeated (i : Fin nodes.length) : Prop
  | externalId (x : String) (h : (nodes.get i).externalId = some x) (hx : x ≠ "")
      (hcount : 2 ≤ externalIdCount nodes x)
  | id (d : UInt64) (h : (nodes.get i).id = some d) (hcount : 2 ≤ internalIdCount nodes d)

/-- What a node has to be reported for. -/
def HasIssue (i : Fin nodes.length) : Issue → Prop
  | .invalid => (nodes.get i).Malformed
  | .orphan => ¬OnReferenceCycle nodes i ∧ Orphaned nodes exists? i
  | .unsureParent => ¬OnReferenceCycle nodes i ∧ Unsure nodes i
  | .duplicate => Repeated nodes i
  | .cycle => OnReferenceCycle nodes i

/-- The nodes at the positions with a property, each once and in the order of the list. -/
def Lists (P : Fin nodes.length → Prop) (found : List Node) : Prop :=
  ∃ is : List (Fin nodes.length), is.Pairwise (· < ·) ∧ (∀ i, i ∈ is ↔ P i) ∧
    found = is.map nodes.get

end

/-! ### The tests -/

theorem isMissingOrBlank_iff {s : Option String} : Node.isMissingOrBlank s = true ↔ Blank s := by
  cases s with
  | none => simp [Node.isMissingOrBlank, Blank]
  | some x => simp [Node.isMissingOrBlank, Blank, Text.allBlank]

theorem isOutOfRange_iff {id : Option UInt64} : Node.isOutOfRange id = true ↔ OutOfRange id := by
  cases id with
  | none => simp [Node.isOutOfRange, OutOfRange]
  | some d =>
    have hmax : maxInternalId.toNat = 2 ^ 53 - 1 := rfl
    simp only [Node.isOutOfRange, OutOfRange, isValidInternalId, Bool.not_eq_true',
      Bool.and_eq_false_iff, decide_eq_false_iff_not, UInt64.le_iff_toNat_le, hmax,
      UInt64.toNat_one, Option.mem_some_iff, exists_eq_left']
    omega

theorem isMalformed_iff {node : Node} : node.isMalformed = true ↔ node.Malformed := by
  simp only [Node.isMalformed, Bool.or_eq_true, isMissingOrBlank_iff, isOutOfRange_iff,
    beq_iff_eq]
  constructor
  · rintro ((((h | h) | h) | h) | h)
    · exact .externalId h
    · exact .name h
    · exact .parentExternalId h
    · exact .id h
    · exact .parentId h
  · rintro (h | h | h | h | h) <;> simp [h]

theorem Node.sameParentAs_iff {a b : Node} : a.sameParentAs b = true ↔
    (a.parentExternalId, a.parentId) = (b.parentExternalId, b.parentId) := by
  simp [sameParentAs]

theorem Node.xid_of_some {node : Node} {x : String} (h : node.externalId = some x) :
    node.xid = x := by
  simp [xid, h]

theorem Node.xid_of_none {node : Node} (h : node.externalId = none) : node.xid = "" := by
  simp [xid, h]

namespace Graph

variable {nodes : List Node} {exists? : String → Bool} {i p : Fin nodes.length}

/-! ### Cycles -/

theorem of_last?_eq_some {n : Nat} {p : Fin n → Bool} {i : Fin n} (h : last? p = some i) :
    p i = true ∧ ∀ j, i < j → p j = false := by
  obtain ⟨hi, later, earlier, hsplit, hlater⟩ := List.find?_eq_some_iff_append.mp h
  refine ⟨hi, fun j hj => ?_⟩
  have hsorted : (later ++ i :: earlier).Pairwise (· > ·) := by
    rw [← hsplit, List.pairwise_reverse]
    exact List.pairwise_lt_finRange n
  have hmem : j ∈ later ++ i :: earlier := by
    rw [← hsplit, List.mem_reverse]
    exact List.mem_finRange j
  rcases List.mem_append.mp hmem with hlate | hrest
  · simpa using hlater j hlate
  · rcases List.mem_cons.mp hrest with rfl | hearly
    · exact absurd hj (lt_irrefl j)
    · exact absurd hj (lt_asymm (List.rel_of_pairwise_cons (List.pairwise_append.mp hsorted).2.1
        hearly))

theorem last?_eq_some_iff_last {n : Nat} {p : Fin n → Bool} {i : Fin n} :
    last? p = some i ↔ p i = true ∧ ∀ j, i < j → p j = false := by
  refine ⟨of_last?_eq_some, fun ⟨hi, hafter⟩ => ?_⟩
  obtain ⟨j, hj⟩ : ∃ j, last? p = some j := Option.isSome_iff_exists.mp
    (List.find?_isSome.mpr ⟨i, List.mem_reverse.mpr (List.mem_finRange i), hi⟩)
  obtain ⟨hpj, hafterj⟩ := of_last?_eq_some hj
  rcases lt_trichotomy i j with hlt | rfl | hlt
  · rw [hafter j hlt] at hpj
    contradiction
  · exact hj
  · rw [hafterj i hlt] at hi
    contradiction

theorem parent_ofList_eq_some_iff : (ofList nodes).parent i = some p ↔ ParentAt nodes i p := by
  rw [parent_ofList, Option.bind_eq_some_iff]
  unfold ParentAt
  simp only [Node.refers_iff, last?_eq_some_iff_last]
  constructor
  · rintro ⟨r, hr, hp, hafter⟩
    refine ⟨⟨r, hr, hp⟩, ?_⟩
    rintro j hj ⟨r', hr', hnames⟩
    obtain rfl := Option.some.inj (hr.symm.trans hr')
    rw [hafter j hj] at hnames
    contradiction
  · rintro ⟨⟨r, hr, hp⟩, hafter⟩
    exact ⟨r, hr, hp, fun j hj => Bool.eq_false_iff.mpr fun hnames => hafter j hj ⟨r, hr, hnames⟩⟩

theorem onCycle_ofList_iff : OnCycle (ofList nodes).parent i ↔ OnReferenceCycle nodes i := by
  have hlink : Up (ofList nodes).parent = ParentAt nodes :=
    funext fun _ => funext fun _ => propext parent_ofList_eq_some_iff
  rw [OnCycle, OnReferenceCycle, hlink]

/-! ### Counts -/

theorem length_filter_positions (nodes : List Node) (p : Node → Bool) :
    ((ofList nodes).positions.filter fun i => p ((ofList nodes).node i)).length =
      nodes.countP p := by
  rw [positions, funext (node_ofList nodes)]
  exact length_filter_finRange nodes p

theorem isDuplicate_ofList_iff {x : String} :
    (ofList nodes).isDuplicate x = true ↔ x ≠ "" ∧ 2 ≤ externalIdCount nodes x := by
  unfold isDuplicate occurrences
  rw [length_filter_positions nodes fun node => node.key? == some x, decide_eq_true_iff]
  by_cases hx : x = ""
  · have hnone : nodes.countP (fun node => node.key? == some x) = 0 := by
      rw [List.countP_eq_zero]
      intro node _
      simp [Node.key?_eq_some_iff, hx]
    rw [hnone]
    exact iff_of_false (by decide) fun h => h.1 hx
  · have hcount : nodes.countP (fun node => node.key? == some x) = externalIdCount nodes x := by
      refine List.countP_congr fun node _ => ?_
      simp [Node.key?_eq_some_iff, hx]
    rw [hcount]
    exact (and_iff_right hx).symm

theorem isDuplicateId_ofList_iff {d : UInt64} :
    (ofList nodes).isDuplicateId d = true ↔ 2 ≤ internalIdCount nodes d := by
  unfold isDuplicateId
  rw [length_filter_positions nodes fun node => node.id == some d, decide_eq_true_iff]
  exact Iff.rfl

/-- Two nodes have the same external id, and it names something. -/
theorem mem_occurrences_xid {j : Fin nodes.length} :
    j ∈ (ofList nodes).occurrences (nodes.get i).xid ↔
      ∃ x, x ≠ "" ∧ (nodes.get i).externalId = some x ∧ (nodes.get j).externalId = some x := by
  rw [mem_occurrences, node_ofList, Node.key?_eq_some_iff, Node.xid]
  cases hx : (nodes.get i).externalId with
  | none => simp
  | some x => simp [and_comm]

/-! ### The report -/

theorem isOrphan_iff : (ofList nodes).isOrphan exists? i = true ↔ Orphaned nodes exists? i := by
  rw [isOrphan_ofList, Option.any_eq_true]
  constructor
  · rintro ⟨p, hp, hasset⟩
    obtain ⟨h, hne, hnode⟩ := Node.outsideParent?_eq_some_iff.mp hp
    exact ⟨p, h, hne, hnode, by simpa using hasset⟩
  · rintro ⟨p, h, hne, hnode, hasset⟩
    exact ⟨p, Node.outsideParent?_eq_some_iff.mpr ⟨h, hne, hnode⟩, by simp [hasset]⟩

theorem isUnsure_iff : (ofList nodes).isUnsure i = true ↔ Unsure nodes i := by
  simp only [isUnsure, node_ofList, Bool.or_eq_true, Bool.and_eq_true, Option.any_eq_true,
    List.any_eq_true, isDuplicate_ofList_iff, isDuplicateId_ofList_iff, mem_occurrences_xid,
    Option.isSome_iff_ne_none]
  constructor
  · rintro (((⟨hd, hx⟩ | ⟨p, h, hp, hcount⟩) | ⟨d, h, hcount⟩) | ⟨j, ⟨x, hx, hxi, hxj⟩, hparent⟩)
    · exact .twoReferences hx hd
    · exact .repeatedExternalId p h hp hcount
    · exact .repeatedId d h hcount
    · rw [Bool.not_eq_true', Bool.eq_false_iff, ne_eq, Node.sameParentAs_iff] at hparent
      refine .disagreement j ?_ x hx hxi hxj hparent
      rintro rfl
      exact hparent rfl
  · rintro (⟨hx, hd⟩ | ⟨p, h, hp, hcount⟩ | ⟨d, h, hcount⟩ | ⟨j, -, x, hx, hxi, hxj, hparent⟩)
    · exact .inl (.inl (.inl ⟨hd, hx⟩))
    · exact .inl (.inl (.inr ⟨p, h, hp, hcount⟩))
    · exact .inl (.inr ⟨d, h, hcount⟩)
    · refine .inr ⟨j, ⟨x, hx, hxi, hxj⟩, ?_⟩
      rw [Bool.not_eq_true', Bool.eq_false_iff, ne_eq, Node.sameParentAs_iff]
      exact hparent

theorem isRepeated_iff : (ofList nodes).isRepeated i = true ↔ Repeated nodes i := by
  simp only [isRepeated, node_ofList, Bool.or_eq_true, Option.any_eq_true, isDuplicate_ofList_iff,
    isDuplicateId_ofList_iff]
  constructor
  · rintro (⟨hx, hcount⟩ | ⟨d, h, hcount⟩)
    · cases h : (nodes.get i).externalId with
      | none => exact absurd (Node.xid_of_none h) hx
      | some x =>
        rw [Node.xid_of_some h] at hx hcount
        exact .externalId x h hx hcount
    · exact .id d h hcount
  · rintro (⟨x, h, hx, hcount⟩ | ⟨d, h, hcount⟩)
    · rw [Node.xid_of_some h]
      exact .inl ⟨hx, hcount⟩
    · exact .inr ⟨d, h, hcount⟩

theorem lists_nodesWhere {p : Fin nodes.length → Bool} {P : Fin nodes.length → Prop}
    (h : ∀ i, p i = true ↔ P i) : Lists nodes P ((ofList nodes).nodesWhere p) := by
  refine ⟨_, (List.pairwise_lt_finRange _).filter p, fun i => ?_, nodesWhere_ofList nodes p⟩
  rw [List.mem_filter, h]
  exact and_iff_right (List.mem_finRange i)

theorem lists_validate (nodes : List Node) (exists? : String → Bool) (issue : Issue) :
    Lists nodes (HasIssue nodes exists? · issue)
      (((ofList nodes).validate exists?).nodes issue) := by
  have hcycle : ∀ i, (ofList nodes).cycleFlags.get i = true ↔ OnReferenceCycle nodes i :=
    fun i => ((ofList nodes).get_cycleFlags_iff i).trans onCycle_ofList_iff
  have hoff : ∀ i, (!(ofList nodes).cycleFlags.get i) = true ↔ ¬OnReferenceCycle nodes i := by
    intro i
    rw [Bool.not_eq_true', ← Bool.not_eq_true, hcycle]
  cases issue with
  | invalid => exact lists_nodesWhere fun i => by rw [node_ofList, isMalformed_iff]; rfl
  | orphan => exact lists_nodesWhere fun i => by rw [Bool.and_eq_true, hoff, isOrphan_iff]; rfl
  | unsureParent =>
    exact lists_nodesWhere fun i => by rw [Bool.and_eq_true, hoff, isUnsure_iff]; rfl
  | duplicate => exact lists_nodesWhere fun i => isRepeated_iff
  | cycle => exact lists_nodesWhere hcycle

end Graph

theorem Report.isValid_iff_forall {r : Report} :
    r.isValid = true ↔ ∀ issue, r.nodes issue = [] := by
  rw [isValid_iff]
  constructor
  · rintro ⟨hinvalid, horphans, hunsure, hduplicates, hcycles⟩ issue
    cases issue <;> assumption
  · intro h
    exact ⟨h .invalid, h .orphan, h .unsureParent, h .duplicate, h .cycle⟩

/-- Each category of a report lists the nodes with its problem, and an input is valid when all of
them are empty. -/
theorem validate_lists_problems (nodes : List Node) (exists? : String → Bool) :
    let report := (Graph.ofList nodes).validate exists?
    (∀ issue, Lists nodes (HasIssue nodes exists? · issue) (report.nodes issue)) ∧
      (report.isValid = true ↔ ∀ issue, report.nodes issue = []) :=
  ⟨Graph.lists_validate nodes exists?, Report.isValid_iff_forall⟩

end AssetHierarchy
