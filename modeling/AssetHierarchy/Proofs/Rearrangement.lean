import AssetHierarchy.Proofs.Fate
import AssetHierarchy.Proofs.Validity
import Mathlib.Data.List.NodupEquivFin

/-! The order of the input does not matter. Where ids tell the nodes apart, a reference to a parent
means the same node wherever that stands, so rearranged input gives the same graph with its
positions renamed, and what becomes of a node goes with it. Since that does not depend on the
batches either, two runs over the same nodes come to the same. -/
namespace AssetHierarchy

namespace Graph

variable {n m : Nat} {g : Graph n} {g' : Graph m} {e : Fin m ≃ Fin n}

/-! ### Parents by name -/

/-- No reference means two nodes. -/
def Identified (g : Graph n) : Prop :=
  ∀ (r : ParentRef) i j, r.names (g.node i) = true → r.names (g.node j) = true → i = j

theorem Valid.identified {exists? : String → Bool} (h : g.Valid exists?) : g.Identified := by
  intro r i j hi hj
  cases r with
  | externalId x =>
    have hxid : ∀ k, (ParentRef.externalId x).names (g.node k) = true → (g.node k).xid = x := by
      intro k hk
      rw [Node.xid, beq_iff_eq.mp hk]
      rfl
    exact h.distinctIds i j ((hxid i hi).trans (hxid j hj).symm)
  | id d =>
    have hmem : ∀ k, (ParentRef.id d).names (g.node k) = true →
        k ∈ g.positions.filter fun i => (g.node i).id == some d :=
      fun k hk => List.mem_filter.mpr ⟨List.mem_finRange k, hk⟩
    have hsingle := h.single i
    rw [isRepeated, Bool.or_eq_false_iff, beq_iff_eq.mp hi, Option.any_some, isDuplicateId,
      decide_eq_false_iff_not] at hsingle
    exact eq_of_mem_of_length_le_one (Nat.le_of_not_lt hsingle.2) (hmem i hi) (hmem j hj)

theorem last?_eq_some_iff {p : Fin n → Bool}
    (hp : ∀ i j, p i = true → p j = true → i = j) {i : Fin n} : last? p = some i ↔ p i = true := by
  constructor
  · exact fun h => List.find?_some h
  · intro hi
    obtain ⟨j, hj⟩ : ∃ j, last? p = some j := Option.isSome_iff_exists.mp
      (List.find?_isSome.mpr ⟨i, List.mem_reverse.mpr (List.mem_finRange i), hi⟩)
    rw [hj, hp j i (List.find?_some hj) hi]

theorem Identified.parent_ofList_iff {nodes : List Node} (h : (ofList nodes).Identified)
    {i p : Fin nodes.length} : (ofList nodes).parent i = some p ↔
      ∃ r, ((ofList nodes).node i).parentRef? = some r ∧
        r.names ((ofList nodes).node p) = true := by
  have hnode : (ofList nodes).node = nodes.get := funext (node_ofList nodes)
  have hparent : (ofList nodes).parent i =
      ((ofList nodes).node i).parentRef?.bind fun r =>
        last? fun j => r.names ((ofList nodes).node j) := by
    rw [parent_ofList, hnode]
  rw [hparent, Option.bind_eq_some_iff]
  exact exists_congr fun r => and_congr_right fun _ => last?_eq_some_iff (h r)

/-! ### Renaming -/

theorem finRange_perm_map (e : Fin m ≃ Fin n) :
    (List.finRange n).Perm ((List.finRange m).map e) := by
  rw [List.perm_ext_iff_of_nodup (List.nodup_finRange n)
    ((List.nodup_finRange m).map e.injective)]
  intro i
  simp only [List.mem_finRange, List.mem_map, true_and, true_iff]
  exact ⟨e.symm i, e.apply_symm_apply i⟩

/-- The second graph is the first one with its positions renamed. -/
structure Renames (g : Graph n) (g' : Graph m) (e : Fin m ≃ Fin n) : Prop where
  node : ∀ i, g'.node i = g.node (e i)
  parent : ∀ i p, g'.parent i = some p ↔ g.parent (e i) = some (e p)

/-- Rearranging nodes that ids tell apart renames the positions of their graph. -/
theorem exists_renames {nodes nodes' : List Node} (hperm : nodes.Perm nodes')
    (hnodup : nodes.Nodup) (hid : (ofList nodes).Identified) :
    ∃ e, (ofList nodes).Renames (ofList nodes') e := by
  let e : Fin nodes'.length ≃ Fin nodes.length :=
    ((hperm.nodup hnodup).getEquiv nodes').trans
      ((Equiv.subtypeEquivRight fun _ => hperm.mem_iff.symm).trans (hnodup.getEquiv nodes).symm)
  have hnode : ∀ i, (ofList nodes').node i = (ofList nodes).node (e i) := by
    intro i
    rw [node_ofList, node_ofList]
    have hmem : nodes'.get i ∈ nodes := hperm.mem_iff.mpr (nodes'.get_mem i)
    exact (congrArg Subtype.val ((hnodup.getEquiv nodes).apply_symm_apply ⟨_, hmem⟩)).symm
  have hid' : (ofList nodes').Identified := by
    intro r i j hi hj
    rw [hnode] at hi hj
    exact e.injective (hid r _ _ hi hj)
  refine ⟨e, hnode, fun i p => ?_⟩
  rw [hid'.parent_ofList_iff, hid.parent_ofList_iff, hnode, hnode]

namespace Renames

variable (h : g.Renames g' e)

include h

theorem distinctIds (hg : g.DistinctIds) : g'.DistinctIds := by
  intro i j hij
  rw [h.node, h.node] at hij
  exact e.injective (hg _ _ hij)

theorem acyclic (hg : ∀ i, ¬OnCycle g.parent i) (i : Fin m) : ¬OnCycle g'.parent i :=
  fun hi => hg (e i) (hi.lift e fun a b => (h.parent a b).mp)

theorem parent_eq_none {i : Fin m} (hi : g'.parent i = none) : g.parent (e i) = none := by
  cases hp : g.parent (e i) with
  | none => rfl
  | some p =>
    have hsome := (h.parent i (e.symm p)).mpr (by rw [hp, e.apply_symm_apply])
    rw [hi] at hsome
    contradiction

theorem fate_eq (hg : ∀ i, ¬OnCycle g.parent i) (hg' : ∀ i, ¬OnCycle g'.parent i)
    (f : String → Option SubmitOutcome) (i : Fin m) : g'.fate hg' f i = g.fate hg f (e i) := by
  induction i using (wellFounded_up hg').induction with
  | _ i ih =>
    cases hp : g'.parent i with
    | none => rw [fate_of_root hp, fate_of_root (h.parent_eq_none hp), h.node]
    | some p =>
      rw [fate_of_parent hp, fate_of_parent ((h.parent i p).mp hp), ih p hp, h.node]

theorem nodesWhere_perm (p : Fin n → Bool) :
    (g.nodesWhere p).Perm (g'.nodesWhere fun i => p (e i)) := by
  have hnode : g'.node = g.node ∘ e := funext h.node
  have hlist : g'.nodesWhere (fun i => p (e i)) =
      (((List.finRange m).map e).filter p).map g.node := by
    rw [List.filter_map, List.map_map, ← hnode]
    rfl
  rw [hlist]
  exact ((finRange_perm_map e).filter p).map g.node

/-- The lists of an outcome hold the same after renaming. -/
theorem outcomesBy_perm (fate : Fin n → Fate) :
    (g.outcomesBy fate).created.Perm (g'.outcomesBy fun i => fate (e i)).created ∧
      (g.outcomesBy fate).unknown.Perm (g'.outcomesBy fun i => fate (e i)).unknown ∧
      (g.outcomesBy fate).failed.Perm (g'.outcomesBy fun i => fate (e i)).failed := by
  refine ⟨?_, h.nodesWhere_perm _, h.nodesWhere_perm _⟩
  have hcreated : (g'.outcomesBy fun i => fate (e i)).created =
      ((List.finRange m).map e).filterMap fun i =>
        (fate i).id?.map fun id => ⟨(g.node i).xid, id⟩ := by
    rw [List.filterMap_map]
    simp only [outcomesBy, h.node]
    rfl
  rw [hcreated]
  exact (finRange_perm_map e).filterMap _

end Renames

end Graph

/-! ### Two runs -/

/-- A run ends for every node as the recursion along its parents says, whatever the size of the
batches; and it ends in the same way for the same nodes in any order. -/
theorem submit_refines_fate {σ₁ σ₂ : Type} {ex : String → Bool} {nodes nodes' : List Node}
    (hv : ((Graph.ofList nodes).validate ex).isValid = true) (hperm : nodes.Perm nodes')
    {f : String → Option SubmitOutcome} {t₁ : Transport σ₁} {o₁ : Options σ₁}
    (h₁ : Steady t₁ o₁ f) {t₂ : Transport σ₂} {o₂ : Options σ₂} (h₂ : Steady t₂ o₂ f)
    (size₁ size₂ : Nat) (s₁ : σ₁) (s₂ : σ₂) :
    let g₁ := Graph.ofList nodes
    let g₂ := Graph.ofList nodes'
    ∃ (hacyclic : ∀ i, ¬OnCycle g₁.parent i) (bs₁ : List (Batch nodes.length))
      (bs₂ : List (Batch nodes'.length)), g₁.plan size₁ = .ok bs₁ ∧ g₂.plan size₂ = .ok bs₂ ∧
      let table₁ := (g₁.submit t₁ o₁ bs₁ s₁).table
      let table₂ := (g₂.submit t₂ o₂ bs₂ s₂).table
      (∀ i, (table₁.get i).fate = g₁.fate hacyclic f i) ∧
      table₁.outcomes g₁ = g₁.outcomesBy (g₁.fate hacyclic f) ∧
      (∀ i j, (nodes.get i).xid = (nodes'.get j).xid →
        (table₁.get i).fate = (table₂.get j).fate) ∧
      (table₁.outcomes g₁).created.Perm (table₂.outcomes g₂).created ∧
      (table₁.outcomes g₁).unknown.Perm (table₂.outcomes g₂).unknown ∧
      (table₁.outcomes g₁).failed.Perm (table₂.outcomes g₂).failed := by
  intro g₁ g₂
  have hvalid : g₁.Valid ex := Graph.isValid_validate_iff.mp hv
  have hnodup : nodes.Nodup := by
    rw [List.nodup_iff_injective_get]
    intro i j hij
    exact hvalid.distinctIds i j (by rw [Graph.node_ofList, Graph.node_ofList, hij])
  obtain ⟨e, he⟩ := Graph.exists_renames hperm hnodup hvalid.identified
  have hacyclic := hvalid.acyclic
  have hacyclic' := he.acyclic hacyclic
  obtain ⟨bs₁, hbs₁⟩ := Graph.exists_plan hacyclic size₁
  obtain ⟨bs₂, hbs₂⟩ := Graph.exists_plan hacyclic' size₂
  have hfate₁ : ∀ i, ((g₁.submit t₁ o₁ bs₁ s₁).table.get i).fate = g₁.fate hacyclic f i :=
    ((Graph.rooted_ofList nodes).writingOrder hbs₁).fate_eq hvalid.distinctIds hacyclic h₁ s₁
  have hfate₂ : ∀ i, ((g₂.submit t₂ o₂ bs₂ s₂).table.get i).fate = g₁.fate hacyclic f (e i) := by
    intro i
    rw [((Graph.rooted_ofList nodes').writingOrder hbs₂).fate_eq (he.distinctIds hvalid.distinctIds)
      hacyclic' h₂ s₂ i, he.fate_eq hacyclic hacyclic' f i]
  refine ⟨hacyclic, bs₁, bs₂, hbs₁, hbs₂, hfate₁, ?_, ?_, ?_⟩
  · rw [Table.outcomes_eq_outcomesBy]
    exact congrArg g₁.outcomesBy (funext hfate₁)
  · intro i j hij
    have hi : i = e j := by
      refine hvalid.distinctIds i (e j) ?_
      rw [← he.node, Graph.node_ofList, Graph.node_ofList, hij]
    rw [hfate₁, hfate₂, hi]
  · rw [Table.outcomes_eq_outcomesBy, Table.outcomes_eq_outcomesBy, funext hfate₁, funext hfate₂]
    exact he.outcomesBy_perm (g₁.fate hacyclic f)

/-- A service that answers every node on its own, in the order of the batch or backwards. -/
def answering (f : String → Option SubmitOutcome) (backwards : Bool) : Transport Unit where
  submit b s :=
    let reply := b.externalIds.filterMap fun x => (f x).map fun outcome => (x, outcome)
    (if backwards then reply.reverse else reply, s)
  existing _ s := (.ok [], s)

theorem steady_answering (f : String → Option SubmitOutcome) (backwards : Bool) :
    Steady (answering f backwards) {} f where
  answers b _ := by
    cases backwards with
    | true => exact List.reverse_perm _
    | false => exact .refl _
  policy := rfl
  quiet _ := rfl

/-- A root, a node below it that gets no answer and one below that, written one by one; and the same
nodes backwards in large batches. -/
theorem submit_refines_fate_silence :
    let site := Node.named "site" "Site"
    let pump := (Node.named "pump" "Pump").withParent "site"
    let motor := (Node.named "motor" "Motor").withParent "pump"
    let f : String → Option SubmitOutcome := fun x => if x = "pump" then none else some (.success 7)
    let g₁ := Graph.ofList [site, pump, motor]
    let g₂ := Graph.ofList [motor, pump, site]
    ∃ bs₁ bs₂, g₁.plan 1 = .ok bs₁ ∧ g₂.plan 1000 = .ok bs₂ ∧
      ((g₁.submit (answering f false) {} bs₁ ()).table.get 2).fate = .unknown ∧
      ((g₂.submit (answering f true) {} bs₂ ()).table.get 0).fate = .unknown := by
  intro site pump motor f g₁ g₂
  have hvalid : (g₁.validate fun _ => false).isValid = true := by decide +kernel
  have hperm : [site, pump, motor].Perm [motor, pump, site] := (List.reverse_perm _).symm
  obtain ⟨hacyclic, bs₁, bs₂, hbs₁, hbs₂, hfate, -, hsame, -⟩ :=
    submit_refines_fate hvalid hperm (steady_answering f false) (steady_answering f true) 1 1000
      () ()
  have hunknown : ((g₁.submit (answering f false) {} bs₁ ()).table.get 2).fate = .unknown := by
    have hsite : g₁.parent 0 = none := by decide +kernel
    have hpump : g₁.parent 1 = some 0 := by decide +kernel
    have hmotor : g₁.parent 2 = some 1 := by decide +kernel
    rw [hfate, Graph.fate_of_parent hmotor, Graph.fate_of_parent hpump, Graph.fate_of_root hsite]
    rfl
  exact ⟨bs₁, bs₂, hbs₁, hbs₂, hunknown, (hsame 2 0 rfl).symm.trans hunknown⟩

end AssetHierarchy
