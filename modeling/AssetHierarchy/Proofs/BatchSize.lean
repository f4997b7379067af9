import AssetHierarchy.Proofs.Completion
import AssetHierarchy.Proofs.Gatekeeping
import AssetHierarchy.Proofs.Layering

/-! How large the batches of a hierarchy are when no size is asked for. A batch is to hold what all
workers send in one go, but that number is taken in words of 64 bits, and no bound on the workers
keeps it below `2 ^ 64`. From there on it wraps around, and the batches are smaller than meant. -/
namespace AssetHierarchy

/-! ### Accepted settings -/

/-- The settings of a client are those that some draft is built into. -/
theorem Config.exists_draft (c : Config) : ∃ d : Draft, d.build = .ok c := by
  have hw : ¬c.maxWorkers = 0 := by
    intro h
    have h1 := UInt64.le_iff_toNat_le.mp c.one_le_maxWorkers
    rw [h] at h1
    exact absurd h1 (by decide)
  have ht : atLeastOne c.maxTries = c.maxTries := by
    refine if_neg fun h => ?_
    have h1 := UInt32.le_iff_toNat_le.mp c.one_le_maxTries
    rw [h] at h1
    exact absurd h1 (by decide)
  refine ⟨⟨some c.project, some c.token, some c.clientName, some c.baseUrl, some c.apiVersion,
    some c.maxWorkers, some c.timeout, some c.maxTries, some c.createLimit⟩, ?_⟩
  show (if hw : c.maxWorkers = 0 then _ else _) = _
  rw [dif_neg hw]
  show (if hc : 1 ≤ c.createLimit ∧ c.createLimit ≤ maxCreateLimit then _ else _) = _
  rw [dif_pos ⟨c.one_le_createLimit, c.createLimit_le⟩]
  simp only [Option.getD_some, ht]

/-! ### The default size -/

namespace AssetService

variable (a : AssetService)

/-- What all workers send in one go: a full request each. -/
def wave : Nat := a.config.createLimit.toNat * a.config.maxWorkers.toNat

theorem wave_pos : 0 < a.wave := Nat.mul_pos a.limit_pos a.workers_pos

theorem preferredBatchSize_eq_mod : a.preferredBatchSize = a.wave % 2 ^ 64 :=
  UInt64.toNat_mul _ _

theorem preferredBatchSize_eq_wave_iff : a.preferredBatchSize = a.wave ↔ a.wave < 2 ^ 64 := by
  rw [preferredBatchSize_eq_mod, Nat.mod_eq_iff_lt (by decide)]

end AssetService

/-! ### The batches of a layer -/

namespace Graph

variable {n : Nat} {g : Graph n}

/-- The nodes at a depth are those of its layer. -/
theorem Rooted.perm_layer (h : g.Rooted) {d : Nat} {is : List (Fin n)} (hnodup : is.Nodup)
    (his : ∀ i, i ∈ is ↔ AtDepth g.parent i d) : (g.layers[d]?.getD []).Perm is := by
  cases hL : g.layers[d]? with
  | none =>
    obtain rfl : is = [] := by
      refine List.eq_nil_iff_forall_not_mem.mpr fun i hi => ?_
      obtain ⟨L, hL', -⟩ := h.exists_layer ((his i).mp hi)
      rw [hL] at hL'
      contradiction
    exact .nil
  | some L =>
    have hLnodup : L.Nodup :=
      (List.nodup_flatten.mp h.nodup_flatten_layers).1 L (List.mem_of_getElem? hL)
    exact (List.perm_ext_iff_of_nodup hLnodup hnodup).mpr fun i => by rw [h.mem_layer hL, his]

theorem Rooted.length_filter_depth_plan (h : g.Rooted) {size : Nat} {bs : List (Batch n)}
    (hp : g.plan size = .ok bs) {d : Nat} {is : List (Fin n)} (hnodup : is.Nodup)
    (his : ∀ i, i ∈ is ↔ AtDepth g.parent i d) :
    (bs.filter (·.depth == d)).length = is.length ⌈/⌉ max 1 size := by
  have hcut := cutInto_chunks (show 0 < max 1 size by omega) (g.layers[d]?.getD [])
  rw [← List.length_map Batch.positions, map_positions_filter_plan hp, hcut.length_eq,
    (h.perm_layer hnodup his).length_eq]

end Graph

variable {σ : Type}

/-- Without a size of its own a run cuts each layer into batches of as many nodes as all workers
send in one go, provided that this number is below `2 ^ 64`. Otherwise the batches have what is left
of it modulo `2 ^ 64`, or one node if that is nothing. -/
theorem createHierarchy_default_batches (a : AssetService) (peer : Peer σ)
    (o : Options (Session σ)) (nodes : List Node) (s : Session σ) (ho : o.batchSize = none) :
    let c := a.createHierarchy peer o nodes s
    (∃ d : Config.Draft, d.build = .ok a.config) ∧
    a.preferredBatchSize = a.wave % 2 ^ 64 ∧
    (a.preferredBatchSize = a.wave ↔ a.wave < 2 ^ 64) ∧
    ((∃ report, c.result = .error (.invalidStructure report)) ∨
      (∃ e, c.result = .error (.existenceCheck e)) ∨
      ∃ ex bs, Written (a.transport peer) o nodes s ex bs ∧
        ∀ (d : Nat) (layer : List (Fin nodes.length)), layer.Nodup →
          (∀ i, i ∈ layer ↔ AtDepth (Graph.ofList nodes).parent i d) →
          (bs.filter (·.depth == d)).length = layer.length ⌈/⌉ max 1 (a.wave % 2 ^ 64) ∧
          (a.wave < 2 ^ 64 → (bs.filter (·.depth == d)).length = layer.length ⌈/⌉ a.wave)) := by
  intro c
  refine ⟨a.config.exists_draft, a.preferredBatchSize_eq_mod, a.preferredBatchSize_eq_wave_iff, ?_⟩
  rcases createHierarchy_cases (a.transport peer) o nodes s with h | ⟨e, h⟩ | ⟨report, h⟩ |
    ⟨ex, bs, hw⟩
  · exact .inl ⟨_, congrArg Creation.result h⟩
  · exact .inr (.inl ⟨e, congrArg Creation.result h⟩)
  · exact .inl ⟨report, congrArg Creation.result h⟩
  · refine .inr (.inr ⟨ex, bs, hw, fun d layer hnodup hlayer => ?_⟩)
    have hplan : (Graph.ofList nodes).plan (a.wave % 2 ^ 64) = .ok bs := by
      rw [← hw.plan, ho, ← a.preferredBatchSize_eq_mod]
      rfl
    have hcount := (Graph.rooted_ofList nodes).length_filter_depth_plan hplan hnodup hlayer
    refine ⟨hcount, fun hfits => ?_⟩
    rw [hcount, Nat.mod_eq_of_lt hfits, Nat.max_eq_right a.wave_pos]

/-- Two workers send four items in one go, so five roots take two batches. -/
theorem createHierarchy_default_batches_fiveRoots :
    let nodes := ["a", "b", "c", "d", "e"].map fun x => Node.named x x
    let s : Session ServerScript := { peer := { authority := "h", reachable := false } }
    twoWorkers.wave = 4 ∧
      ∃ ex bs, Written (twoWorkers.transport ServerScript.peer) {} nodes s ex bs ∧
        (bs.filter (·.depth == 0)).length = 2 := by
  intro nodes s
  have hwritten : (match (twoWorkers.createHierarchy ServerScript.peer {} nodes s).result with
      | .ok _ => true | .error e => e.outcome?.isSome) = true := by decide +kernel
  have hroots : ∀ i, (Graph.ofList nodes).parent i = none := by decide +kernel
  obtain ⟨-, -, -, ⟨report, h⟩ | ⟨e, h⟩ | ⟨ex, bs, hw, hbatches⟩⟩ :=
    createHierarchy_default_batches twoWorkers ServerScript.peer {} nodes s rfl
  · rw [h] at hwritten
    contradiction
  · rw [h] at hwritten
    contradiction
  · obtain ⟨-, hcount⟩ := hbatches 0 (List.finRange 5) (List.nodup_finRange 5)
      fun i => iff_of_true (List.mem_finRange i) (.root (hroots i))
    exact ⟨by decide, ex, bs, hw, (hcount (by decide)).trans (by decide)⟩

/-! ### A size that wraps around -/

/-- A client whose workers would send `2 ^ 64` items in one go. -/
def countlessWorkers : AssetService where
  config :=
    { twoWorkers.config with
      maxWorkers := 9223372036854775808
      one_le_maxWorkers := by decide }

/-- No size is left, and two roots that fit into one batch are sent one by one. -/
theorem preferredBatchSize_wraps :
    let nodes := ["a", "b"].map fun x => Node.named x x
    (∃ d : Config.Draft, d.build = .ok countlessWorkers.config) ∧
      countlessWorkers.wave = 2 ^ 64 ∧ countlessWorkers.preferredBatchSize = 0 ∧
      nodes.length ⌈/⌉ countlessWorkers.wave = 1 ∧
      (countlessWorkers.createHierarchy ServerScript.peer {} nodes
        { peer := { authority := "h", reachable := false } }).calls.map
          (fun k => k.batch.externalIds) = [["a"], ["b"]] :=
  ⟨countlessWorkers.config.exists_draft, by decide +kernel⟩

end AssetHierarchy
