import AssetHierarchy.Proofs.Problems

/-! The order of the nodes does not decide whether they are valid. It can decide which problems they
have: where an id is repeated, the last node with it is the one that a reference means. Where no id
is repeated, a reference means the same node in any order, and each node keeps its problems when it
is moved. -/
namespace AssetHierarchy

open Relation

/-! ### What the order does not change -/

section

variable {nodes nodes' : List Node}

theorem externalIdCount_perm (h : nodes.Perm nodes') (x : String) :
    externalIdCount nodes' x = externalIdCount nodes x := (h.countP_eq _).symm

theorem internalIdCount_perm (h : nodes.Perm nodes') (d : UInt64) :
    internalIdCount nodes' d = internalIdCount nodes d := (h.countP_eq _).symm

/-- No id is carried by two nodes. The empty external id is no id. -/
structure Unrepeated (nodes : List Node) : Prop where
  externalId : ∀ x, x ≠ "" → externalIdCount nodes x ≤ 1
  id : ∀ d, internalIdCount nodes d ≤ 1

theorem Unrepeated.perm (h : Unrepeated nodes) (hperm : nodes.Perm nodes') :
    Unrepeated nodes' where
  externalId x hx := by
    rw [externalIdCount_perm hperm]
    exact h.externalId x hx
  id d := by
    rw [internalIdCount_perm hperm]
    exact h.id d

theorem unrepeated_of_forall (h : ∀ i, ¬Repeated nodes i) : Unrepeated nodes := by
  constructor
  · intro x hx
    by_contra hcount
    obtain ⟨node, hnode, hxid⟩ := List.countP_pos_iff.mp (show 0 < externalIdCount nodes x by omega)
    obtain ⟨i, rfl⟩ := List.mem_iff_get.mp hnode
    exact h i (.externalId x (beq_iff_eq.mp hxid) hx (by omega))
  · intro d
    by_contra hcount
    obtain ⟨node, hnode, hid⟩ := List.countP_pos_iff.mp (show 0 < internalIdCount nodes d by omega)
    obtain ⟨i, rfl⟩ := List.mem_iff_get.mp hnode
    exact h i (.id d (beq_iff_eq.mp hid) (by omega))

theorem Unrepeated.eq_of_refers (h : Unrepeated nodes) {a : Node} {i j : Fin nodes.length}
    (hi : a.Refers (nodes.get i)) (hj : a.Refers (nodes.get j)) : i = j := by
  rcases hi with ⟨x, ha, hx, hxi⟩ | ⟨d, hx, ha, hdi⟩
  · rcases hj with ⟨y, ha', -, hyj⟩ | ⟨d, hx', -, -⟩
    · obtain rfl := Option.some.inj (ha.symm.trans ha')
      exact eq_of_countP_le_one (h.externalId x hx) (beq_iff_eq.mpr hxi) (beq_iff_eq.mpr hyj)
    · simp [ha, hx] at hx'
  · rcases hj with ⟨y, ha', hy, -⟩ | ⟨d', -, ha', hdj⟩
    · simp [ha', hy] at hx
    · obtain rfl := Option.some.inj (ha.symm.trans ha')
      exact eq_of_countP_le_one (h.id d) (beq_iff_eq.mpr hdi) (beq_iff_eq.mpr hdj)

/-- The last node that a reference can mean is the only one. -/
theorem Unrepeated.parentAt_iff (h : Unrepeated nodes) {i p : Fin nodes.length} :
    ParentAt nodes i p ↔ (nodes.get i).Refers (nodes.get p) := by
  refine ⟨And.left, fun hp => ⟨hp, fun j hj hrefers => ?_⟩⟩
  rw [h.eq_of_refers hp hrefers] at hj
  exact lt_irrefl j hj

end

/-! ### Moving the nodes -/

/-- The second list holds the nodes of the first; `e` tells where each of them stood. -/
structure Moved (nodes nodes' : List Node) (e : Fin nodes'.length ≃ Fin nodes.length) : Prop where
  perm : nodes.Perm nodes'
  get : ∀ i, nodes'.get i = nodes.get (e i)

namespace Moved

variable {nodes nodes' : List Node} {exists? : String → Bool}
  {e : Fin nodes'.length ≃ Fin nodes.length}

theorem symm (h : Moved nodes nodes' e) : Moved nodes' nodes e.symm where
  perm := h.perm.symm
  get i := by rw [h.get, e.apply_symm_apply]

/-- What a node keeps whenever the nodes are moved, it neither loses nor gains. -/
theorem iff_of_kept (h : Moved nodes nodes' e) {P : (nodes : List Node) → Fin nodes.length → Prop}
    (kept : ∀ {nodes nodes' : List Node} {e : Fin nodes'.length ≃ Fin nodes.length},
      Moved nodes nodes' e → ∀ i, P nodes' i → P nodes (e i)) (i : Fin nodes'.length) :
    P nodes' i ↔ P nodes (e i) := by
  refine ⟨kept h i, fun hi => ?_⟩
  have hback := kept h.symm (e i) hi
  rwa [e.symm_apply_apply] at hback

theorem onReferenceCycle (h : Moved nodes nodes' e) (hids : Unrepeated nodes)
    (hids' : Unrepeated nodes') {i : Fin nodes'.length} (hi : OnReferenceCycle nodes' i) :
    OnReferenceCycle nodes (e i) := by
  refine TransGen.lift e (fun j p hp => ?_) i i hi
  rw [hids'.parentAt_iff, h.get, h.get] at hp
  exact hids.parentAt_iff.mpr hp

theorem onReferenceCycle_iff (h : Moved nodes nodes' e) (hids : Unrepeated nodes)
    (i : Fin nodes'.length) : OnReferenceCycle nodes' i ↔ OnReferenceCycle nodes (e i) := by
  have hids' := hids.perm h.perm
  refine ⟨h.onReferenceCycle hids hids', fun hi => ?_⟩
  have hback := h.symm.onReferenceCycle hids' hids hi
  rwa [e.symm_apply_apply] at hback

theorem orphaned (h : Moved nodes nodes' e) (i : Fin nodes'.length)
    (hi : Orphaned nodes' exists? i) : Orphaned nodes exists? (e i) := by
  obtain ⟨p, hp, hne, hnode, hasset⟩ := hi
  exact ⟨p, h.get i ▸ hp, hne, fun m hm => hnode m (h.perm.mem_iff.mp hm), hasset⟩

theorem unsure (h : Moved nodes nodes' e) (i : Fin nodes'.length) (hi : Unsure nodes' i) :
    Unsure nodes (e i) := by
  rcases hi with
    ⟨hx, hd⟩ | ⟨p, hp, hne, hcount⟩ | ⟨d, hd, hcount⟩ | ⟨j, hj, x, hne, hxi, hxj, hparent⟩
  · rw [h.get] at hx hd
    exact .twoReferences hx hd
  · rw [h.get] at hp
    rw [externalIdCount_perm h.perm] at hcount
    exact .repeatedExternalId p hp hne hcount
  · rw [h.get] at hd
    rw [internalIdCount_perm h.perm] at hcount
    exact .repeatedId d hd hcount
  · rw [h.get] at hxi hxj
    rw [h.get, h.get] at hparent
    exact .disagreement (e j) (e.injective.ne hj) x hne hxi hxj hparent

theorem repeated (h : Moved nodes nodes' e) (i : Fin nodes'.length) (hi : Repeated nodes' i) :
    Repeated nodes (e i) := by
  rcases hi with ⟨x, hx, hne, hcount⟩ | ⟨d, hd, hcount⟩
  · rw [h.get] at hx
    rw [externalIdCount_perm h.perm] at hcount
    exact .externalId x hx hne hcount
  · rw [h.get] at hd
    rw [internalIdCount_perm h.perm] at hcount
    exact .id d hd hcount

theorem hasIssue_iff (h : Moved nodes nodes' e) (hids : Unrepeated nodes) (issue : Issue)
    (i : Fin nodes'.length) :
    HasIssue nodes' exists? i issue ↔ HasIssue nodes exists? (e i) issue := by
  have hcycle := h.onReferenceCycle_iff hids i
  cases issue with
  | invalid =>
    unfold HasIssue
    rw [h.get]
  | orphan => exact and_congr hcycle.not (h.iff_of_kept (P := (Orphaned · exists? ·)) orphaned i)
  | unsureParent => exact and_congr hcycle.not (h.iff_of_kept unsure i)
  | duplicate => exact h.iff_of_kept repeated i
  | cycle => exact hcycle

/-- What holds of the same nodes is listed in another order. -/
theorem lists_perm (h : Moved nodes nodes' e) {P : Fin nodes.length → Prop}
    {P' : Fin nodes'.length → Prop} (hP : ∀ i, P' i ↔ P (e i)) {found found' : List Node}
    (hfound : Lists nodes P found) (hfound' : Lists nodes' P' found') : found.Perm found' := by
  obtain ⟨is, hsorted, hmem, rfl⟩ := hfound
  obtain ⟨is', hsorted', hmem', rfl⟩ := hfound'
  have hplaces : is.Perm (is'.map e) := by
    have hnodup : is.Nodup := hsorted.imp ne_of_lt
    have hnodup' : is'.Nodup := hsorted'.imp ne_of_lt
    rw [List.perm_ext_iff_of_nodup hnodup (hnodup'.map e.injective)]
    intro i
    rw [hmem, List.mem_map]
    constructor
    · intro hi
      refine ⟨e.symm i, ?_, e.apply_symm_apply i⟩
      rwa [hmem', hP, e.apply_symm_apply]
    · rintro ⟨j, hj, rfl⟩
      rwa [← hP, ← hmem']
  have hget : nodes'.get = nodes.get ∘ e := funext h.get
  rw [hget, ← List.map_map]
  exact hplaces.map nodes.get

end Moved

theorem exists_moved {nodes nodes' : List Node} (h : nodes.Perm nodes') :
    ∃ e, Moved nodes nodes' e := by
  obtain ⟨e, he⟩ := exists_equiv_of_perm h
  exact ⟨e, h, he⟩

/-! ### The report -/

namespace Graph

variable {nodes nodes' : List Node} (exists? : String → Bool)

theorem nodes_validate_perm (hperm : nodes.Perm nodes') (hids : Unrepeated nodes) (issue : Issue) :
    (((ofList nodes).validate exists?).nodes issue).Perm
      (((ofList nodes').validate exists?).nodes issue) := by
  obtain ⟨e, he⟩ := exists_moved hperm
  exact he.lists_perm (he.hasIssue_iff hids issue) (lists_validate nodes exists? issue)
    (lists_validate nodes' exists? issue)

theorem isValid_of_perm (hperm : nodes.Perm nodes')
    (h : ((ofList nodes).validate exists?).isValid = true) :
    ((ofList nodes').validate exists?).isValid = true := by
  rw [Report.isValid_iff_forall] at h ⊢
  obtain ⟨is, -, hmem, his⟩ := lists_validate nodes exists? .duplicate
  rw [h, eq_comm, List.map_eq_nil_iff] at his
  subst his
  have hids : Unrepeated nodes := unrepeated_of_forall fun i hi => by simpa using (hmem i).mpr hi
  intro issue
  have hsame := nodes_validate_perm exists? hperm hids issue
  rw [h] at hsame
  exact hsame.nil_eq.symm

end Graph

/-- Rearranged nodes are valid if they were before, and the same nodes have the same problems as
long as no id is repeated. -/
theorem validate_perm {nodes nodes' : List Node} (hperm : nodes.Perm nodes')
    (exists? : String → Bool) :
    let report := (Graph.ofList nodes).validate exists?
    let report' := (Graph.ofList nodes').validate exists?
    (report.isValid = true ↔ report'.isValid = true) ∧
      ((∀ x, x ≠ "" → externalIdCount nodes x ≤ 1) → (∀ d, internalIdCount nodes d ≤ 1) →
        ∀ issue, (report.nodes issue).Perm (report'.nodes issue)) :=
  ⟨⟨Graph.isValid_of_perm exists? hperm, Graph.isValid_of_perm exists? hperm.symm⟩,
    fun hx hd => Graph.nodes_validate_perm exists? hperm ⟨hx, hd⟩⟩

/-- Two equal nodes without ids around two that are each other's parent, and all of them
backwards. -/
theorem validate_perm_reverse :
    let a := (Node.named "a" "A").withParent "b"
    let b := (Node.named "b" "B").withParent "a"
    let nodes : List Node := [{}, a, b, {}]
    let report := (Graph.ofList nodes).validate fun _ => false
    let report' := (Graph.ofList nodes.reverse).validate fun _ => false
    nodes.Perm nodes.reverse ∧
      (∀ x, x ≠ "" → externalIdCount nodes x ≤ 1) ∧ (∀ d, internalIdCount nodes d ≤ 1) ∧
      (report.isValid = true ↔ report'.isValid = true) ∧
      report.invalid.Perm report'.invalid ∧ report.cycles.Perm report'.cycles ∧
      report.cycles = [a, b] := by
  intro a b nodes report report'
  have hreverse : nodes.Perm nodes.reverse := (List.reverse_perm nodes).symm
  obtain ⟨hvalid, hsame⟩ := validate_perm hreverse fun _ => false
  have hx : ∀ x, x ≠ "" → externalIdCount nodes x ≤ 1 := by
    intro x _
    have hdistinct : (nodes.filterMap Node.externalId).Nodup := by decide
    rw [externalIdCount, ← List.count_filterMap]
    exact List.nodup_iff_count_le_one.mp hdistinct x
  have hd : ∀ d, internalIdCount nodes d ≤ 1 := fun d => Nat.zero_le 1
  have hperm := hsame hx hd
  exact ⟨hreverse, hx, hd, hvalid, hperm .invalid, hperm .cycle, by decide +kernel⟩

end AssetHierarchy
