import AssetHierarchy.Proofs.Validity
import AssetHierarchy.Proofs.WritingOrder

/-! The shape of a plan. Each layer is in the order of the input, and its pieces are the batches of
one depth, all of them full but the last. So the order of the nodes in a plan is that of the layers,
whatever the size of the batches. -/
namespace AssetHierarchy

variable {n : Nat}

namespace Graph

/-! ### Layers in input order -/

theorem pairwise_filter_positions (p : Fin n → Bool) :
    ((List.finRange n).filter p).Pairwise (· < ·) :=
  (List.pairwise_lt_finRange n).filter p

theorem pairwise_nextLayer (g : Graph n) (layer : List (Fin n)) :
    (g.nextLayer layer).Pairwise (· < ·) :=
  pairwise_filter_positions _

theorem pairwise_layer (nodes : List Node) {L : List (Fin nodes.length)}
    (hL : L ∈ (ofList nodes).layers) : L.Pairwise (· < ·) :=
  of_mem_layersFrom (pairwise_filter_positions _) (pairwise_nextLayer _) hL

theorem get_children (nodes : Vector Node n) (p : Fin n) : (ofVector nodes).children.get p =
    (List.finRange n).filter fun i => (ofVector nodes).parent i = some p := by
  show (Vector.ofFn _)[p.val] = _
  rw [Vector.getElem_ofFn]
  rfl

theorem mem_children (nodes : Vector Node n) {i p : Fin n} :
    i ∈ (ofVector nodes).children.get p ↔ (ofVector nodes).parent i = some p := by
  simp [get_children]

/-- No node is a child of two, so the children of a layer are its next one once they are sorted. -/
theorem nextLayer_eq_mergeSort (nodes : Vector Node n) {layer : List (Fin n)} (h : layer.Nodup) :
    (ofVector nodes).nextLayer layer =
      (layer.flatMap (ofVector nodes).children.get).mergeSort fun i j => decide (i ≤ j) := by
  have hchildren : (layer.flatMap (ofVector nodes).children.get).Nodup := by
    rw [List.nodup_flatMap]
    constructor
    · intro p _
      rw [get_children]
      exact (List.nodup_finRange n).filter _
    · refine h.imp fun {p q} hpq i hp hq => hpq ?_
      have hp' := (mem_children nodes).mp hp
      have hq' := (mem_children nodes).mp hq
      exact Option.some.inj (hp'.symm.trans hq')
  have hperm : ((ofVector nodes).nextLayer layer).Perm
      (layer.flatMap (ofVector nodes).children.get) := by
    refine (List.perm_ext_iff_of_nodup ?_ hchildren).mpr fun i => ?_
    · exact (pairwise_nextLayer _ layer).imp ne_of_lt
    · simp only [mem_nextLayer, List.mem_flatMap, mem_children, and_comm]
  have hsorted := @List.pairwise_mergeSort _ (fun i j : Fin n => decide (i ≤ j))
    (fun i j k hij hjk => decide_eq_true ((of_decide_eq_true hij).trans (of_decide_eq_true hjk)))
    (fun i j => by simpa using le_total i j) (layer.flatMap (ofVector nodes).children.get)
  refine @List.Perm.eq_of_pairwise _ (· ≤ ·) _ _ (fun i j _ _ => le_antisymm) ?_ ?_
    (hperm.trans (List.mergeSort_perm _ _).symm)
  · exact (pairwise_nextLayer _ layer).imp le_of_lt
  · exact hsorted.imp of_decide_eq_true

/-! ### The batches of one depth -/

variable {g : Graph n}

theorem filter_slices (g : Graph n) (m d : Nat) :
    (g.slices m).filter (·.1 == d) =
      (chunks (max 1 m) (g.layers[d]?.getD [])).map fun s => (d, s) := by
  have hpiece : ∀ x : List (Fin n) × Nat,
      ((chunks (max 1 m) x.1).map fun s => (x.2, s)).filter (·.1 == d) =
        if x.2 = 0 + d then (chunks (max 1 m) x.1).map fun s => (d, s) else [] := by
    intro x
    rw [Nat.zero_add]
    split
    · next hx =>
      rw [hx, List.filter_map, List.filter_eq_self.mpr fun s _ => ?_]
      simp
    · next hx =>
      rw [List.filter_eq_nil_iff]
      intro y hy
      obtain ⟨s, -, rfl⟩ := List.mem_map.mp hy
      simpa using hx
  rw [slices, List.filter_flatMap]
  simp only [hpiece]
  rw [flatMap_zipIdx_at g.layers fun layer => (chunks (max 1 m) layer).map fun s => (d, s)]
  cases g.layers[d]? with
  | none => simp
  | some L => simp

/-- The batches of a depth are the pieces of its layer, one after the other. -/
theorem map_positions_filter_plan {size : Nat} {bs : List (Batch n)} (hp : g.plan size = .ok bs)
    (d : Nat) : (bs.filter (·.depth == d)).map Batch.positions =
      chunks (max 1 size) (g.layers[d]?.getD []) := by
  have hdepth : (fun b : Batch n => b.depth == d) ∘ g.batchOf = (·.1 == d) ∘ Prod.fst := rfl
  have hpositions : Batch.positions ∘ g.batchOf = Prod.snd ∘ Prod.fst := by
    funext x
    exact positions_map_entry _ _ _
  rw [plan_eq_ok hp, List.filter_map, List.map_map, hdepth, hpositions, ← List.map_map,
    ← List.filter_map, List.zipIdx_map_fst, filter_slices, List.map_map]
  simp [Function.comp_def]

theorem index_of_plan {size : Nat} {bs : List (Batch n)} (hp : g.plan size = .ok bs) {k : Nat}
    {b : Batch n} (hb : bs[k]? = some b) : b.index = k := by
  rw [plan_eq_ok hp, List.getElem?_map, List.getElem?_zipIdx, Option.map_map,
    Option.map_eq_some_iff] at hb
  obtain ⟨x, -, rfl⟩ := hb
  exact Nat.zero_add k

/-- A batch at a smaller depth has a smaller number. -/
theorem index_lt_of_depth_lt {size : Nat} {bs : List (Batch n)} (hp : g.plan size = .ok bs)
    {b c : Batch n} (hb : b ∈ bs) (hc : c ∈ bs) (h : c.depth < b.depth) : c.index < b.index := by
  obtain ⟨k, hk, rfl⟩ := List.getElem_of_mem hb
  obtain ⟨m, hm, rfl⟩ := List.getElem_of_mem hc
  rw [index_of_plan hp (List.getElem?_eq_getElem hk),
    index_of_plan hp (List.getElem?_eq_getElem hm)]
  by_contra hle
  rcases Nat.lt_or_eq_of_le (Nat.le_of_not_lt hle) with hlt | rfl
  · exact absurd (List.pairwise_iff_getElem.mp (pairwise_depth_plan hp) k m hk hm hlt) (by omega)
  · exact absurd h (Nat.lt_irrefl _)

end Graph

/-! ### Plans -/

/-- A plan that puts the nodes of a list into batches layer by layer. -/
structure Layered (nodes : List Node) (size : Nat) (bs : List (Batch nodes.length)) : Prop where
  perm : (bs.flatMap Batch.positions).Perm (List.finRange nodes.length)
  atDepth : ∀ b ∈ bs, ∀ i ∈ b.positions, AtDepth (Graph.ofList nodes).parent i b.depth
  index_eq : ∀ (k : Nat) (b : Batch nodes.length), bs[k]? = some b → b.index = k
  parent_before : ∀ b ∈ bs, ∀ i ∈ b.positions, ∀ p, (Graph.ofList nodes).parent i = some p →
    ∀ c ∈ bs, p ∈ c.positions → c.index < b.index
  depth_le : bs.Pairwise fun a b => a.depth ≤ b.depth
  inputOrder : ∀ d, ((bs.filter (·.depth == d)).flatMap Batch.positions).Pairwise (· < ·)
  ne_nil : ∀ b ∈ bs, b.positions ≠ []
  length_le : ∀ b ∈ bs, b.positions.length ≤ max 1 size
  /-- Only the last batch of a depth has room left. -/
  full : ∀ d, ∀ b ∈ (bs.filter (·.depth == d)).dropLast, b.positions.length = max 1 size
  nodes_eq : ∀ b ∈ bs, b.nodes = b.positions.map nodes.get

theorem layered_of_plan {nodes : List Node} {size : Nat} {bs : List (Batch nodes.length)}
    (hacyclic : ∀ i, ¬OnCycle (Graph.ofList nodes).parent i)
    (hp : (Graph.ofList nodes).plan size = .ok bs) : Layered nodes size bs := by
  have hrooted := Graph.rooted_ofList nodes
  have horder := hrooted.writingOrder hp
  have hpiece := fun b hb => Graph.exists_layer_of_mem_plan hp (b := b) hb
  have hdepth := Graph.map_positions_filter_plan hp
  constructor
  · refine (List.perm_ext_iff_of_nodup horder.nodup (List.nodup_finRange _)).mpr fun i => ?_
    obtain ⟨d, hd⟩ := exists_atDepth hacyclic i
    exact iff_of_true (horder.complete i d hd) (List.mem_finRange i)
  · exact fun b hb i hi => hrooted.atDepth_of_mem_plan hp hb hi
  · exact fun k b hb => Graph.index_of_plan hp hb
  · intro b hb i hi p hparent c hc hpc
    obtain ⟨d, hbd, hd⟩ := (hrooted.atDepth_of_mem_plan hp hb hi).of_parent hparent
    have hcd : c.depth = d := (hrooted.atDepth_of_mem_plan hp hc hpc).unique hd
    exact Graph.index_lt_of_depth_lt hp hb hc (by omega)
  · exact Graph.pairwise_depth_plan hp
  · intro d
    rw [List.flatMap_def, hdepth, flatten_chunks (by omega)]
    cases hL : (Graph.ofList nodes).layers[d]? with
    | none => exact .nil
    | some L => exact Graph.pairwise_layer nodes (List.mem_of_getElem? hL)
  · intro b hb
    obtain ⟨L, -, hs, -⟩ := hpiece b hb
    exact ne_nil_of_mem_chunks (by omega) hs
  · intro b hb
    obtain ⟨L, -, hs, -⟩ := hpiece b hb
    exact length_le_of_mem_chunks (by omega) hs
  · intro d b hb
    have hmem := List.mem_map_of_mem (f := Batch.positions) hb
    rw [List.map_dropLast, hdepth] at hmem
    exact length_eq_of_mem_dropLast_chunks (by omega) hmem
  · intro b hb
    rw [Batch.nodes_eq (horder.entries_eq b hb)]
    exact List.map_congr_left fun i _ => Graph.node_ofList nodes i

theorem Graph.plan_of_onCycle {g : Graph n} {i : Fin n} (hi : OnCycle g.parent i) (size : Nat) :
    g.plan size = .error { cycles := g.cycleMembers.map g.node } := by
  unfold plan
  exact if_neg fun h => g.isEmpty_cycleMembers_iff.mp h i hi

/-- Nodes on a cycle are all that a plan can fail for, and then they are what is reported. Otherwise
the nodes go by layers, in an order that does not depend on the size of the batches. -/
theorem plan_is_layered (nodes : List Node) (size : Nat) :
    let g := Graph.ofList nodes
    ((∃ i, OnCycle g.parent i) →
      ∃ members : List (Fin nodes.length), members.Pairwise (· < ·) ∧
        (∀ i, i ∈ members ↔ OnCycle g.parent i) ∧
        g.plan size = .error { cycles := members.map nodes.get }) ∧
    ((∀ i, ¬OnCycle g.parent i) →
      ∃ bs, g.plan size = .ok bs ∧ Layered nodes size bs ∧
        ∀ other, ∃ bs', g.plan other = .ok bs' ∧
          bs'.flatMap Batch.positions = bs.flatMap Batch.positions) := by
  intro g
  constructor
  · rintro ⟨i, hi⟩
    have hnode : g.node = nodes.get := funext (Graph.node_ofList nodes)
    refine ⟨g.cycleMembers, Graph.pairwise_filter_positions _, fun _ => g.mem_cycleMembers, ?_⟩
    rw [Graph.plan_of_onCycle hi, hnode]
  · intro hacyclic
    obtain ⟨bs, hbs⟩ := Graph.exists_plan hacyclic size
    refine ⟨bs, hbs, layered_of_plan hacyclic hbs, fun other => ?_⟩
    obtain ⟨bs', hbs'⟩ := Graph.exists_plan hacyclic other
    refine ⟨bs', hbs', ?_⟩
    rw [Graph.flatMap_positions_plan hbs, Graph.flatMap_positions_plan hbs']

end AssetHierarchy
