import AssetHierarchy.Proofs.Gatekeeping
import Mathlib.Data.List.Sort

/-! Where the nodes end up. A node was created by the call that sent it; it is unknown exactly when
the answer for it, or for a node above it, left open whether it was written. The induction goes up
the chain of parents: what was passed over takes its uncertainty from its parent alone, and what was
sent has no uncertain parent. -/
namespace AssetHierarchy

theorem isUncertain_answered (x : Option SubmitOutcome) :
    (answered x).isUncertain = x.all SubmitOutcome.isAmbiguous := by
  rcases x with _ | x
  · rfl
  · cases x <;> rfl

/-- The answers that leave nothing open and nothing written. -/
theorem answered_refused_iff {x : Option SubmitOutcome} :
    (answered x).isCreated = false ∧ (answered x).isUncertain = false ↔
      (∃ code reason, x = some (.clientError code reason)) ∨
        ∃ reason, x = some (.notSent reason) := by
  rcases x with _ | x
  · simp [answered, Disposition.isUncertain]
  · cases x <;> simp [answered, SubmitOutcome.disposition, Disposition.isCreated,
      Disposition.isUncertain]

namespace Progress

variable {n : Nat} {σ : Type} {g : Graph n} {bs : List (Batch n)} {p : Progress n σ}

/-- A call of the run carried the node. -/
def Sent (p : Progress n σ) (k : Call n) (i : Fin n) : Prop :=
  k ∈ p.calls ∧ i ∈ k.batch.positions

namespace Invariant

theorem created_iff (h : Invariant g bs p) {i : Fin n} {id : UInt64} :
    p.table.get i = .created id ↔ ∃ k, p.Sent k i ∧ k.outcome? g i = some (.success id) := by
  constructor
  · intro hi
    obtain ⟨l, k, hl, hik, hout⟩ := h.exists_call_of_created hi
    exact ⟨k, ⟨List.mem_of_getElem? hl, hik⟩, hout⟩
  · rintro ⟨k, ⟨hk, hik⟩, hout⟩
    rw [h.sent k hk i hik, hout]
    rfl

/-- The parent of a node that was sent has been created. -/
theorem parent_created (h : Invariant g bs p) {k : Call n} {i q : Fin n} (hi : p.Sent k i)
    (hq : g.parent i = some q) : ∃ id, p.table.get q = .created id := by
  obtain ⟨m, hm⟩ := List.mem_iff_getElem?.mp hi.1
  obtain ⟨l, _, c, hl, hqc, id, hout⟩ := h.parents m k hm i hi.2 q hq
  exact ⟨id, h.created_iff.mpr ⟨c, ⟨List.mem_of_getElem? hl, hqc⟩, hout⟩⟩

theorem isUncertain_of_sent (h : Invariant g bs p) {k : Call n} {i : Fin n} (hi : p.Sent k i) :
    (p.table.get i).isUncertain = (k.outcome? g i).all SubmitOutcome.isAmbiguous := by
  rw [h.sent k hi.1 i hi.2, isUncertain_answered]

theorem isUncertain_of_not_sent (h : Invariant g bs p)
    (hall : ∀ i, i ∈ bs.flatMap Batch.positions) {i : Fin n} (hi : ∀ k, ¬p.Sent k i) :
    (p.table.get i).isUncertain = p.table.isBelowUncertain g i := by
  rw [h.passed i (hall i) fun k hk hik => hi k ⟨hk, hik⟩]
  rfl

theorem isUncertain_iff (h : Invariant g bs p) (hall : ∀ i, i ∈ bs.flatMap Batch.positions)
    (hacyclic : ∀ i, ¬OnCycle g.parent i) (i : Fin n) :
    (p.table.get i).isUncertain = true ↔ ∃ a, Within g.parent i a ∧
      ∃ k, p.Sent k a ∧ (k.outcome? g a).all SubmitOutcome.isAmbiguous = true := by
  induction i using (wellFounded_up hacyclic).induction with
  | _ i ih =>
    by_cases hsent : ∃ k, p.Sent k i
    · obtain ⟨k, hk⟩ := hsent
      constructor
      · intro hi
        exact ⟨i, .refl, k, hk, (h.isUncertain_of_sent hk).symm.trans hi⟩
      · rintro ⟨a, ha, c, hc, hout⟩
        rcases Relation.ReflTransGen.cases_head ha with rfl | ⟨q, hq, hqa⟩
        · rw [h.isUncertain_of_sent hc, hout]
        · -- something above is uncertain, but the parent has been created
          obtain ⟨id, hid⟩ := h.parent_created hk hq
          have huncertain := (ih q hq).mpr ⟨a, hqa, c, hc, hout⟩
          rw [hid] at huncertain
          contradiction
    · have hnot : ∀ k, ¬p.Sent k i := fun k hk => hsent ⟨k, hk⟩
      rw [h.isUncertain_of_not_sent hall hnot, Table.isBelowUncertain, Option.any_eq_true]
      constructor
      · rintro ⟨q, hq, hqu⟩
        obtain ⟨a, hqa, hopen⟩ := (ih q hq).mp hqu
        exact ⟨a, .head hq hqa, hopen⟩
      · rintro ⟨a, ha, c, hc, hout⟩
        rcases Relation.ReflTransGen.cases_head ha with rfl | ⟨q, hq, hqa⟩
        · exact absurd hc (hnot c)
        · exact ⟨q, hq, (ih q hq).mpr ⟨a, hqa, c, hc, hout⟩⟩

/-- Nothing may have been written exactly when the service has refused every node that was sent. -/
theorem refused_iff (h : Invariant g bs p) (hall : ∀ i, i ∈ bs.flatMap Batch.positions)
    (hacyclic : ∀ i, ¬OnCycle g.parent i) :
    (∀ i, (p.table.get i).isCreated = false ∧ (p.table.get i).isUncertain = false) ↔
      ∀ k i, p.Sent k i → (∃ code reason, k.outcome? g i = some (.clientError code reason)) ∨
        ∃ reason, k.outcome? g i = some (.notSent reason) := by
  constructor
  · intro hnone k i hi
    rw [← answered_refused_iff, ← h.sent k hi.1 i hi.2]
    exact hnone i
  · intro hrefused i
    have hsent : ∀ k a, p.Sent k a →
        (answered (k.outcome? g a)).isCreated = false ∧
          (answered (k.outcome? g a)).isUncertain = false :=
      fun k a ha => answered_refused_iff.mpr (hrefused k a ha)
    constructor
    · rw [Bool.eq_false_iff]
      intro hi
      obtain ⟨id, hid⟩ := Disposition.isCreated_iff.mp hi
      obtain ⟨k, hk, hout⟩ := h.created_iff.mp hid
      have hcreated := (hsent k i hk).1
      rw [hout] at hcreated
      contradiction
    · rw [Bool.eq_false_iff]
      intro hi
      obtain ⟨a, _, k, hk, hout⟩ := (h.isUncertain_iff hall hacyclic i).mp hi
      have huncertain := (hsent k a hk).2
      rw [isUncertain_answered, hout] at huncertain
      contradiction

end Invariant

end Progress

/-! ### The three lists -/

namespace Table

variable {n : Nat}

def createdAt (t : Table n) (i : Fin n) : Option (Fin n × UInt64) :=
  match t.get i with
  | .created id => some (i, id)
  | _ => none

/-- The positions that have been created, in order, with their ids. -/
def createdPositions (t : Table n) : List (Fin n × UInt64) :=
  (List.finRange n).filterMap t.createdAt

def unknownPositions (t : Table n) : List (Fin n) :=
  (List.finRange n).filter fun i => (t.get i).isUncertain

def failedPositions (t : Table n) : List (Fin n) :=
  (List.finRange n).filter fun i => !(t.get i).isCreated && !(t.get i).isUncertain

variable {t : Table n}

theorem createdAt_eq_some_iff {i j : Fin n} {id : UInt64} :
    t.createdAt i = some (j, id) ↔ i = j ∧ t.get i = .created id := by
  unfold createdAt
  split
  · next id' h => simp [h]
  · next h => simpa using fun _ => h id

theorem mem_createdPositions {i : Fin n} {id : UInt64} :
    (i, id) ∈ t.createdPositions ↔ t.get i = .created id := by
  simp only [createdPositions, List.mem_filterMap, List.mem_finRange, true_and]
  constructor
  · rintro ⟨j, hj⟩
    obtain ⟨rfl, h⟩ := createdAt_eq_some_iff.mp hj
    exact h
  · exact fun h => ⟨i, createdAt_eq_some_iff.mpr ⟨rfl, h⟩⟩

theorem mem_unknownPositions {i : Fin n} :
    i ∈ t.unknownPositions ↔ (t.get i).isUncertain = true := by
  simp [unknownPositions]

theorem map_fst_createdPositions (t : Table n) :
    t.createdPositions.map Prod.fst = (List.finRange n).filter fun i => (t.get i).isCreated := by
  rw [createdPositions, List.map_filterMap, ← List.filterMap_eq_filter]
  congr 1
  funext i
  cases h : t.get i <;> simp [createdAt, h, Disposition.isCreated, Option.guard]

theorem perm_positions (t : Table n) :
    (t.createdPositions.map Prod.fst ++ t.unknownPositions ++ t.failedPositions).Perm
      (List.finRange n) := by
  have hunknown : t.unknownPositions =
      ((List.finRange n).filter fun i => !(t.get i).isCreated).filter
        fun i => (t.get i).isUncertain := by
    rw [List.filter_filter]
    refine List.filter_congr fun i _ => ?_
    cases t.get i <;> simp [Disposition.isCreated, Disposition.isUncertain]
  have hfailed : t.failedPositions =
      ((List.finRange n).filter fun i => !(t.get i).isCreated).filter
        fun i => !(t.get i).isUncertain := by
    rw [List.filter_filter]
    exact List.filter_congr fun i _ => Bool.and_comm ..
  rw [map_fst_createdPositions, hunknown, hfailed, List.append_assoc]
  exact ((List.filter_append_perm _ _).append_left _).trans (List.filter_append_perm _ _)

theorem outcomes_eq (g : Graph n) (t : Table n) : t.outcomes g =
    { created := t.createdPositions.map fun (i, id) => ⟨(g.node i).xid, id⟩
      unknown := t.unknownPositions.map g.node
      failed := t.failedPositions.map g.node } := by
  unfold outcomes
  congr 1
  rw [createdPositions, List.map_filterMap]
  congr 1
  funext i
  cases h : t.get i <;> simp [createdAt, h]

variable {g : Graph n}

theorem mem_failed {node : Node} : node ∈ (t.outcomes g).failed ↔
    ∃ i, (t.get i).isCreated = false ∧ (t.get i).isUncertain = false ∧ g.node i = node := by
  simp [outcomes, Graph.nodesWhere, Graph.positions, and_assoc]

theorem mem_unknown {node : Node} : node ∈ (t.outcomes g).unknown ↔
    ∃ i, (t.get i).isUncertain = true ∧ g.node i = node := by
  simp [outcomes, Graph.nodesWhere, Graph.positions]

theorem xid_mem_createdIds {i : Fin n} (h : (t.get i).isCreated = true) :
    (g.node i).xid ∈ (t.outcomes g).createdIds := by
  obtain ⟨id, hid⟩ := Disposition.isCreated_iff.mp h
  rw [OutcomeSet.createdIds, outcomes_eq, List.map_map]
  exact List.mem_map.mpr ⟨(i, id), mem_createdPositions.mpr hid, rfl⟩

end Table

/-! ### The result -/

theorem Table.mayHaveWritten_eq_false_iff {n : Nat} (g : Graph n) (t : Table n) :
    (HierarchyError.partialSubmission (t.outcomes g)).mayHaveWritten = false ↔
      ∀ i, (t.get i).isCreated = false ∧ (t.get i).isUncertain = false := by
  have hcreated : t.createdPositions = [] ↔ ∀ i, (t.get i).isCreated = false := by
    rw [← List.map_eq_nil_iff, map_fst_createdPositions, List.filter_eq_nil_iff]
    simp
  have hunknown : t.unknownPositions = [] ↔ ∀ i, (t.get i).isUncertain = false := by
    rw [unknownPositions, List.filter_eq_nil_iff]
    simp
  simp [outcomes_eq, HierarchyError.mayHaveWritten, hcreated, hunknown, forall_and]

/-- The final state of every node, given the calls that were made and the replies to them. -/
theorem createHierarchy_accounts {σ : Type} {ex : String → Bool} (t : Transport σ) (o : Options σ)
    (nodes : List Node) (s : σ) (hk : knownParents t o nodes s = .ok ex)
    (hv : ((Graph.ofList nodes).validate ex).isValid = true) :
    let g := Graph.ofList nodes
    let c := createHierarchy t o nodes s
    ∃ (created : List (Fin nodes.length × UInt64)) (unknown failed : List (Fin nodes.length)),
      (created.map Prod.fst).Pairwise (· < ·) ∧ unknown.Pairwise (· < ·) ∧
        failed.Pairwise (· < ·) ∧
      (created.map Prod.fst ++ unknown ++ failed).Perm (List.finRange nodes.length) ∧
      (∀ i id, (i, id) ∈ created ↔ ∃ k ∈ c.calls, i ∈ k.batch.positions ∧
        k.outcome? g i = some (.success id)) ∧
      (∀ i, i ∈ unknown ↔ ∃ a, Within g.parent i a ∧ ∃ k ∈ c.calls, a ∈ k.batch.positions ∧
        (k.outcome? g a).all SubmitOutcome.isAmbiguous = true) ∧
      let outcome : OutcomeSet :=
        { created := created.map fun (i, id) => ⟨(nodes.get i).xid, id⟩
          unknown := unknown.map nodes.get
          failed := failed.map nodes.get }
      (c.result = if unknown = [] ∧ failed = [] then .ok outcome.created
        else .error (.partialSubmission outcome)) ∧
      ((HierarchyError.partialSubmission outcome).mayHaveWritten = false ↔
        ∀ k ∈ c.calls, ∀ i ∈ k.batch.positions,
          (∃ code reason, k.outcome? g i = some (.clientError code reason)) ∨
            ∃ reason, k.outcome? g i = some (.notSent reason)) := by
  intro g c
  have hvalid : g.Valid ex := Graph.isValid_validate_iff.mp hv
  obtain ⟨bs, hw⟩ := exists_written hk hvalid
  have hinv : Progress.Invariant g bs _ := hw.invariant
  have hall : ∀ i, i ∈ bs.flatMap Batch.positions := fun i =>
    let ⟨d, hd⟩ := exists_atDepth hvalid.acyclic i
    ((Graph.rooted_ofList nodes).writingOrder hw.plan).complete i d hd
  have hsorted := (List.sortedLT_finRange nodes.length).pairwise
  have hnode : g.node = nodes.get := funext (Graph.node_ofList nodes)
  rw [show c = _ from hw.eq]
  dsimp only
  generalize runOver t o nodes s bs = p at hinv ⊢
  refine ⟨p.table.createdPositions, p.table.unknownPositions, p.table.failedPositions,
    ?_, hsorted.filter _, hsorted.filter _, p.table.perm_positions, ?_, ?_, ?_, ?_⟩
  · rw [Table.map_fst_createdPositions]
    exact hsorted.filter _
  · intro i id
    rw [Table.mem_createdPositions, hinv.created_iff]
    simp [Progress.Sent, and_assoc]
  · intro i
    rw [Table.mem_unknownPositions, hinv.isUncertain_iff hall hvalid.acyclic]
    simp [Progress.Sent, and_assoc]
  · rw [OutcomeSet.result_eq, Table.outcomes_eq, hnode]
    simp
  · rw [← hnode, ← Table.outcomes_eq, Table.mayHaveWritten_eq_false_iff,
      hinv.refused_iff hall hvalid.acyclic]
    exact ⟨fun h k hk i hi => h k i ⟨hk, hi⟩, fun h k i hi => h k hi.1 i hi.2⟩

/-- A service that creates the node with one external id and says nothing about others. -/
def answersOnly (x : String) (id : UInt64) : Transport Unit where
  submit b s := ((b.externalIds.filter (· == x)).map fun y => (y, .success id), s)
  existing _ s := (.ok [], s)

/-- Of a root, its child and its grandchild, where the service says nothing about the child, the
root is created and the others are unknown. -/
theorem createHierarchy_accounts_silence :
    let nodes := [.named "site" "Site", (Node.named "pump" "Pump").withParent "site",
      (Node.named "motor" "Motor").withParent "pump"]
    ∃ (created : List (Fin 3 × UInt64)) (unknown failed : List (Fin 3)),
      (createHierarchy (answersOnly "site" 7) {} nodes ()).result = .error (.partialSubmission
        { created := created.map fun (i, id) => ⟨(nodes.get i).xid, id⟩
          unknown := unknown.map nodes.get
          failed := failed.map nodes.get }) ∧
        (0, 7) ∈ created ∧ 1 ∈ unknown ∧ 2 ∈ unknown := by
  intro nodes
  obtain ⟨created, unknown, failed, -, -, -, -, hcreated, hunknown, hresult, -⟩ :=
    createHierarchy_accounts (answersOnly "site" 7) {} nodes () rfl (by decide +kernel)
  have hsilent : ∃ k ∈ (createHierarchy (answersOnly "site" 7) {} nodes ()).calls,
      1 ∈ k.batch.positions ∧
        (k.outcome? (Graph.ofList nodes) 1).all SubmitOutcome.isAmbiguous = true := by
    decide +kernel
  have hparent : (Graph.ofList nodes).parent 2 = some 1 := by decide +kernel
  have hchild : 1 ∈ unknown := (hunknown 1).mpr ⟨1, .refl, hsilent⟩
  rw [if_neg fun h => List.ne_nil_of_mem hchild h.1] at hresult
  refine ⟨created, unknown, failed, hresult, (hcreated 0 7).mpr ?_, hchild, (hunknown 2).mpr ?_⟩
  · decide +kernel
  · exact ⟨1, .single hparent, hsilent⟩

end AssetHierarchy
