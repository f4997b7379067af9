import AssetHierarchy.Proofs.Ancestry
import AssetHierarchy.Proofs.Lists
import Mathlib.Data.List.Nodup

/-! The order of a plan. The layers are the nodes by their depth, so no node is in two of them, and
a batch is a piece of one layer. Hence each node with a root above it is in exactly one batch, and
the batch of its parent comes before. -/
namespace AssetHierarchy

variable {n : Nat}

namespace Graph

variable {g : Graph n}

/-- The roots are the nodes without a parent, each once. -/
structure Rooted (g : Graph n) : Prop where
  mem_roots : ∀ i, i ∈ g.roots ↔ g.parent i = none
  nodup_roots : g.roots.Nodup

theorem rooted_ofVector (nodes : Vector Node n) : (ofVector nodes).Rooted where
  mem_roots i := by simp [ofVector, parent]
  nodup_roots := (List.nodup_finRange n).filter _

theorem rooted_ofList (nodes : List Node) : (ofList nodes).Rooted := rooted_ofVector _

/-! ### Layers -/

theorem mem_nextLayer {layer : List (Fin n)} {i : Fin n} :
    i ∈ g.nextLayer layer ↔ ∃ p, g.parent i = some p ∧ p ∈ layer := by
  cases hp : g.parent i <;> simp [nextLayer, positions, hp]

theorem mem_layersFrom {layer : List (Fin n)} {d : Nat} (hl : ∀ i, i ∈ layer ↔ AtDepth g.parent i d)
    {fuel k : Nat} {L : List (Fin n)} (hL : (g.layersFrom layer fuel)[k]? = some L) (i : Fin n) :
    i ∈ L ↔ AtDepth g.parent i (d + k) := by
  induction fuel generalizing layer d k with
  | zero => simp [layersFrom] at hL
  | succ fuel ih =>
    unfold layersFrom at hL
    split at hL
    · simp at hL
    · cases k with
      | zero =>
        obtain rfl := Option.some.inj hL
        exact hl i
      | succ k =>
        have hnext : ∀ j, j ∈ g.nextLayer layer ↔ AtDepth g.parent j (d + 1) := by
          intro j
          simp only [mem_nextLayer, atDepth_succ_iff, hl]
        rw [ih hnext hL, Nat.add_right_comm, Nat.add_assoc]

/-- The layers reach every depth that a node has. -/
theorem lt_length_layersFrom {layer : List (Fin n)} {d : Nat}
    (hl : ∀ i, i ∈ layer ↔ AtDepth g.parent i d) {fuel k : Nat} (hk : k < fuel) {i : Fin n}
    (hi : AtDepth g.parent i (d + k)) : k < (g.layersFrom layer fuel).length := by
  induction fuel generalizing layer d k with
  | zero => omega
  | succ fuel ih =>
    obtain ⟨a, ha⟩ := hi.exists_of_le (Nat.le_add_right d k)
    have hne : layer.isEmpty = false := by
      rw [List.isEmpty_eq_false_iff]
      exact List.ne_nil_of_mem ((hl a).mpr ha)
    rw [layersFrom, hne, if_neg Bool.false_ne_true, List.length_cons]
    cases k with
    | zero => omega
    | succ k =>
      have hnext : ∀ j, j ∈ g.nextLayer layer ↔ AtDepth g.parent j (d + 1) := by
        intro j
        simp only [mem_nextLayer, atDepth_succ_iff, hl]
      have := ih hnext (Nat.lt_of_succ_lt_succ hk) (by rwa [Nat.add_right_comm, Nat.add_assoc])
      omega

theorem Rooted.mem_layer (h : g.Rooted) {k : Nat} {L : List (Fin n)} (hL : g.layers[k]? = some L)
    (i : Fin n) : i ∈ L ↔ AtDepth g.parent i k := by
  have hroots : ∀ i, i ∈ g.roots ↔ AtDepth g.parent i 0 := by
    intro i
    rw [h.mem_roots, atDepth_zero_iff]
  rw [mem_layersFrom hroots hL, Nat.zero_add]

theorem Rooted.exists_layer (h : g.Rooted) {i : Fin n} {d : Nat} (hi : AtDepth g.parent i d) :
    ∃ L, g.layers[d]? = some L ∧ i ∈ L := by
  have hroots : ∀ i, i ∈ g.roots ↔ AtDepth g.parent i 0 := by
    intro i
    rw [h.mem_roots, atDepth_zero_iff]
  have hlt : d < g.layers.length :=
    lt_length_layersFrom hroots hi.lt (by rwa [Nat.zero_add])
  have hL := List.getElem?_eq_getElem hlt
  exact ⟨_, hL, (h.mem_layer hL i).mpr hi⟩

/-- What holds of the first layer and of every next one holds of all layers. -/
theorem of_mem_layersFrom {P : List (Fin n) → Prop} {layer : List (Fin n)} (hl : P layer)
    (hnext : ∀ L, P (g.nextLayer L)) {fuel : Nat} {L : List (Fin n)}
    (hL : L ∈ g.layersFrom layer fuel) : P L := by
  induction fuel generalizing layer with
  | zero => simp [layersFrom] at hL
  | succ fuel ih =>
    unfold layersFrom at hL
    split at hL
    · simp at hL
    · rcases List.mem_cons.mp hL with rfl | hL
      · exact hl
      · exact ih (hnext layer) hL

theorem Rooted.nodup_flatten_layers (h : g.Rooted) : g.layers.flatten.Nodup := by
  rw [List.nodup_flatten]
  refine ⟨fun L hL => of_mem_layersFrom h.nodup_roots
    (fun _ => (List.nodup_finRange n).filter _) hL, ?_⟩
  rw [List.pairwise_iff_getElem]
  intro k m hk hm hkm i hik him
  have hik' := (h.mem_layer (List.getElem?_eq_getElem hk) i).mp hik
  have him' := (h.mem_layer (List.getElem?_eq_getElem hm) i).mp him
  exact absurd (hik'.unique him') hkm.ne

/-! ### Slices -/

/-- A slice is a piece of the layer of its depth. -/
theorem mem_slices {m d : Nat} {s : List (Fin n)} :
    (d, s) ∈ g.slices m ↔ ∃ L, g.layers[d]? = some L ∧ s ∈ chunks (max 1 m) L := by
  simp [slices, List.mem_flatMap, List.mem_zipIdx_iff_getElem?]

theorem flatMap_slices (g : Graph n) (m : Nat) :
    (g.slices m).flatMap Prod.snd = g.layers.flatten := by
  have hpiece : ∀ p : List (Fin n) × Nat,
      ((chunks (max 1 m) p.1).map fun s => (p.2, s)).flatMap Prod.snd = p.1 := by
    intro p
    rw [List.flatMap_map, List.flatMap_def, List.map_id', flatten_chunks (by omega)]
  rw [slices, List.flatMap_assoc]
  simp only [hpiece]
  rw [List.flatMap_def, List.zipIdx_map_fst]

theorem pairwise_slices (g : Graph n) (m : Nat) :
    (g.slices m).Pairwise fun a b => a.1 ≤ b.1 := by
  rw [slices, List.pairwise_flatMap]
  constructor
  · intro p _
    exact List.pairwise_map.mpr (List.pairwise_of_forall fun _ _ => le_rfl)
  · refine (pairwise_zipIdx g.layers).imp fun hlt x hx y hy => ?_
    obtain ⟨_, _, rfl⟩ := List.mem_map.mp hx
    obtain ⟨_, _, rfl⟩ := List.mem_map.mp hy
    exact hlt.le

/-! ### Batches -/

/-- Parents are among the given nodes, or in a batch before. -/
def ParentsFirst (g : Graph n) : List (Fin n) → List (Batch n) → Prop
  | _, [] => True
  | earlier, b :: rest =>
    (∀ i ∈ b.positions, ∀ p, g.parent i = some p → p ∈ earlier) ∧
      ParentsFirst g (earlier ++ b.positions) rest

/-- What a run relies on in a list of batches. -/
structure WritingOrder (g : Graph n) (size : Nat) (bs : List (Batch n)) : Prop where
  entries_eq : ∀ b ∈ bs, b.entries = b.positions.map g.entry
  length_le : ∀ b ∈ bs, b.entries.length ≤ max 1 size
  index_lt : bs.Pairwise fun a b => a.index < b.index
  nodup : (bs.flatMap Batch.positions).Nodup
  parentsFirst : g.ParentsFirst [] bs
  complete : ∀ i d, AtDepth g.parent i d → i ∈ bs.flatMap Batch.positions

/-- Batches in the order of their depths come after the parents of their nodes. -/
theorem parentsFirst_of_depth {earlier : List (Fin n)} {bs : List (Batch n)}
    (hdepth : ∀ b ∈ bs, ∀ i ∈ b.positions, AtDepth g.parent i b.depth)
    (hsorted : bs.Pairwise fun a b => a.depth ≤ b.depth)
    (hcomplete : ∀ i d, AtDepth g.parent i d → i ∈ earlier ∨ i ∈ bs.flatMap Batch.positions) :
    g.ParentsFirst earlier bs := by
  induction bs generalizing earlier with
  | nil => trivial
  | cons b rest ih =>
    obtain ⟨hle, hrest⟩ := List.pairwise_cons.mp hsorted
    constructor
    · intro i hi p hp
      obtain ⟨d, hbd, hd⟩ := (hdepth b List.mem_cons_self i hi).of_parent hp
      refine (hcomplete p d hd).resolve_right fun hmem => ?_
      obtain ⟨c, hc, hpc⟩ := List.mem_flatMap.mp hmem
      have hcd : c.depth = d := (hdepth c hc p hpc).unique hd
      have hbc : b.depth ≤ c.depth := by
        rcases List.mem_cons.mp hc with rfl | hc
        · exact le_rfl
        · exact hle c hc
      omega
    · refine ih (fun c hc => hdepth c (List.mem_cons_of_mem b hc)) hrest fun i d hi => ?_
      rcases hcomplete i d hi with h | h
      · exact .inl (List.mem_append_left _ h)
      · rw [List.flatMap_cons, List.mem_append] at h
        exact h.imp_left (List.mem_append_right _)

theorem positions_map_entry (i d : Nat) (s : List (Fin n)) :
    (⟨i, d, s.map g.entry⟩ : Batch n).positions = s := by
  simp [Batch.positions, entry, Function.comp_def]

/-- The batch that a numbered slice becomes. -/
def batchOf (g : Graph n) (x : (Nat × List (Fin n)) × Nat) : Batch n :=
  ⟨x.2, x.1.1, x.1.2.map g.entry⟩

theorem plan_eq_ok {size : Nat} {bs : List (Batch n)} (hp : g.plan size = .ok bs) :
    bs = (g.slices size).zipIdx.map g.batchOf := by
  simp only [plan] at hp
  split at hp
  · exact (Except.ok.inj hp).symm
  · contradiction

theorem flatMap_positions_batchOf (g : Graph n) (size : Nat) :
    ((g.slices size).zipIdx.map g.batchOf).flatMap Batch.positions = g.layers.flatten := by
  rw [List.flatMap_map, ← flatMap_slices g size]
  simp only [batchOf, positions_map_entry]
  rw [← List.zipIdx_map_fst 0 (g.slices size), List.flatMap_map, List.zipIdx_map_fst]

/-- A batch of a plan is a piece of the layer of its depth. -/
theorem exists_layer_of_mem_plan {size : Nat} {bs : List (Batch n)} (hp : g.plan size = .ok bs)
    {b : Batch n} (hb : b ∈ bs) : ∃ L, g.layers[b.depth]? = some L ∧
      b.positions ∈ chunks (max 1 size) L ∧ b.entries = b.positions.map g.entry := by
  obtain rfl := plan_eq_ok hp
  obtain ⟨⟨⟨d, s⟩, k⟩, hx, rfl⟩ := List.mem_map.mp hb
  obtain ⟨L, hL, hs⟩ := mem_slices.mp (List.fst_mem_of_mem_zipIdx hx)
  exact ⟨L, hL, by rwa [batchOf, positions_map_entry], by rw [batchOf, positions_map_entry]⟩

theorem Rooted.atDepth_of_mem_plan (h : g.Rooted) {size : Nat} {bs : List (Batch n)}
    (hp : g.plan size = .ok bs) {b : Batch n} (hb : b ∈ bs) {i : Fin n} (hi : i ∈ b.positions) :
    AtDepth g.parent i b.depth := by
  obtain ⟨L, hL, hs, _⟩ := exists_layer_of_mem_plan hp hb
  exact (h.mem_layer hL i).mp (mem_of_mem_chunks (by omega) hs hi)

theorem pairwise_depth_plan {size : Nat} {bs : List (Batch n)} (hp : g.plan size = .ok bs) :
    bs.Pairwise fun a b => a.depth ≤ b.depth := by
  obtain rfl := plan_eq_ok hp
  have hsorted := pairwise_slices g size
  rw [← List.zipIdx_map_fst 0 (g.slices size), List.pairwise_map] at hsorted
  exact List.pairwise_map.mpr hsorted

theorem flatMap_positions_plan {size : Nat} {bs : List (Batch n)} (hp : g.plan size = .ok bs) :
    bs.flatMap Batch.positions = g.layers.flatten := by
  rw [plan_eq_ok hp, flatMap_positions_batchOf]

theorem Rooted.writingOrder (h : g.Rooted) {size : Nat} {bs : List (Batch n)}
    (hp : g.plan size = .ok bs) : g.WritingOrder size bs := by
  have hcomplete : ∀ i d, AtDepth g.parent i d → i ∈ bs.flatMap Batch.positions := by
    intro i d hi
    obtain ⟨L, hL, hiL⟩ := h.exists_layer hi
    rw [flatMap_positions_plan hp]
    exact List.mem_flatten_of_mem (List.mem_of_getElem? hL) hiL
  constructor
  · intro b hb
    obtain ⟨_, _, _, he⟩ := exists_layer_of_mem_plan hp hb
    exact he
  · intro b hb
    obtain ⟨L, _, hs, he⟩ := exists_layer_of_mem_plan hp hb
    rw [he, List.length_map]
    exact length_le_of_mem_chunks (by omega) hs
  · rw [plan_eq_ok hp]
    exact List.pairwise_map.mpr (pairwise_zipIdx _)
  · rw [flatMap_positions_plan hp]
    exact h.nodup_flatten_layers
  · exact parentsFirst_of_depth (fun b hb i hi => h.atDepth_of_mem_plan hp hb hi)
      (pairwise_depth_plan hp) fun i d hi => .inr (hcomplete i d hi)
  · exact hcomplete

end Graph

end AssetHierarchy
