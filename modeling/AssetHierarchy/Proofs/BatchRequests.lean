import AssetHierarchy.Proofs.Completion

/-! The requests that a batch is written with, and the reply that their results make. The nodes of
the batch are told apart by whether they have an id, and each part is cut into pieces of the size
that the settings of the client bound. So each node is in one request, at the endpoint that is for
it, and the reply speaks for the requests one by one. -/
namespace AssetHierarchy

/-! ### What a request carries -/

namespace WriteChunk

/-- A request to create carries its nodes as they are, and a request to update the changes to each
of its nodes together with the id. -/
inductive Carries : WriteChunk → Request → Prop
  | create {nodes : List Node} (h : ∀ node ∈ nodes, node.id = none) :
      Carries ⟨.create, nodes⟩ (.postItems "assets" (nodes.map Node.toJson))
  | update {nodes : List Node} {items : List Json}
      (h : List.Forall₂ (fun node item => ∃ id, node.id = some id ∧
        item = Json.object [("id", .natural id), ("update", .object node.changes)]) nodes items) :
      Carries ⟨.update, nodes⟩ (.postItems "assets/update" items)

theorem carries_of_creates {nodes : List Node} (h : ∀ node ∈ nodes, node.isUpdate = false) :
    Carries ⟨.create, nodes⟩ (request ⟨.create, nodes⟩) := by
  refine .create fun node hnode => ?_
  rw [← Option.isNone_iff_eq_none, ← Option.isSome_eq_false_iff]
  exact h node hnode

theorem carries_of_updates {nodes : List Node} (h : ∀ node ∈ nodes, node.isUpdate = true) :
    Carries ⟨.update, nodes⟩ (request ⟨.update, nodes⟩) := by
  refine .update ?_
  rw [List.forall₂_map_right_iff, List.forall₂_same]
  intro node hnode
  obtain ⟨id, hid⟩ := Option.isSome_iff_exists.mp (h node hnode)
  refine ⟨id, hid, ?_⟩
  simp only [WriteKind.item, hid]
  rfl

/-- The assets that a reply lists under an external id, one by one. -/
theorem forall₂_reply_ok (c : WriteChunk) (assets : List Asset) :
    List.Forall₂ (fun asset entry => ∃ x, asset.externalId = some x ∧
      entry = (x, SubmitOutcome.success asset.id))
      (assets.filter (·.externalId.isSome)) (c.reply (.ok assets)) := by
  induction assets with
  | nil => exact .nil
  | cons asset rest ih =>
    cases hx : asset.externalId with
    | none => simpa [reply, hx] using ih
    | some x =>
      have hfilter : (asset :: rest).filter (·.externalId.isSome) =
          asset :: rest.filter (·.externalId.isSome) := by simp [hx]
      have hreply : c.reply (.ok (asset :: rest)) =
          (x, .success asset.id) :: c.reply (.ok rest) := by simp [reply, hx]
      rw [hfilter, hreply]
      exact .cons ⟨x, hx, rfl⟩ ih

end WriteChunk

namespace AssetService

variable {n : Nat} (a : AssetService) (b : Batch n)

theorem limit_le : a.limit ≤ 1000 := UInt64.le_iff_toNat_le.mp a.config.createLimit_le

theorem carries_of_mem_writeChunks {c : WriteChunk} (hc : c ∈ a.writeChunks b) :
    c.Carries c.request := by
  rcases List.mem_append.mp hc with hc | hc
  · obtain ⟨piece, hpiece, rfl⟩ := List.mem_map.mp hc
    refine WriteChunk.carries_of_creates fun node hnode => ?_
    have hmem : node ∈ b.creates := mem_of_mem_chunks a.limit_pos hpiece hnode
    simpa using (List.mem_filter.mp hmem).2
  · obtain ⟨piece, hpiece, rfl⟩ := List.mem_map.mp hc
    refine WriteChunk.carries_of_updates fun node hnode => ?_
    have hmem : node ∈ b.updates := mem_of_mem_chunks a.limit_pos hpiece hnode
    exact (List.mem_filter.mp hmem).2

end AssetService

/-! ### What a result says -/

namespace FinishedChunk

/-- The part of a reply that stands for one request. If the request failed there is one entry for
each of its nodes, and otherwise one for each asset that was read with an external id. -/
structure Answered (d : FinishedChunk) (part : Reply) : Prop where
  failed : ∀ e, d.result = .error e →
    List.Forall₂ (fun node entry => entry = (node.xid, e.outcome)) d.chunk.nodes part
  listed : ∀ assets, d.result = .ok assets →
    List.Forall₂ (fun asset entry => ∃ x, asset.externalId = some x ∧
      entry = (x, SubmitOutcome.success asset.id)) (assets.filter (·.externalId.isSome)) part

theorem answered_reply (d : FinishedChunk) : d.Answered d.reply where
  failed e he := by
    rw [reply, he, WriteChunk.reply, List.forall₂_map_right_iff, List.forall₂_same]
    exact fun _ _ => rfl
  listed assets hassets := by
    rw [reply, hassets]
    exact d.chunk.forall₂_reply_ok assets

theorem replies_eq_flatten (ds : List FinishedChunk) :
    ∃ parts, List.Forall₂ Answered ds parts ∧ replies ds = parts.flatten := by
  refine ⟨ds.map reply, ?_, List.flatMap_def⟩
  rw [List.forall₂_map_right_iff, List.forall₂_same]
  exact fun d _ => d.answered_reply

end FinishedChunk

/-! ### Batches -/

/-- A batch is sent in full and only once: the nodes without an id piece by piece to be created,
then those with an id to be updated, and no piece is empty or longer than the limit allows. Every
request is made, and its result comes of what the other side answers. Whatever the results are, and
in whatever order the requests finish, the reply has the parts that the results stand for, and
nothing else. -/
theorem submit_sends_each_once {n : Nat} (a : AssetService) (b : Batch n) :
    (1 ≤ a.limit ∧ a.limit ≤ 1000) ∧
    (∃ creates updates,
      CutInto a.limit (b.nodes.filter (·.id.isNone)) creates ∧
      CutInto a.limit (b.nodes.filter (·.id.isSome)) updates ∧
      a.writeChunks b = creates.map (⟨.create, ·⟩) ++ updates.map (⟨.update, ·⟩)) ∧
    ((a.writeChunks b).flatMap WriteChunk.nodes).Perm b.nodes ∧
    (∀ c ∈ a.writeChunks b, c.Carries c.request) ∧
    (∀ (σ : Type) (peer : Peer σ) (s : Session σ), ∃ ds log,
      ds.map FinishedChunk.chunk = a.writeChunks b ∧
      Arrives a.config.maxWorkers.toNat ds [] ds ∧
      ds.map FinishedChunk.result =
        (a.fetchAll peer ((a.writeChunks b).map WriteChunk.request) s).1 ∧
      (a.submit peer b s).1 = FinishedChunk.replies ds ∧
      (a.submit peer b s).2.attempts.toList = s.attempts.toList ++ log ∧
      Fetched a peer (a.submit peer b s).2.ended s.peer
        ((a.writeChunks b).map WriteChunk.request) (ds.map FinishedChunk.result) log) ∧
    ∀ ds arrived, ds.map FinishedChunk.chunk = a.writeChunks b →
      Arrives a.config.maxWorkers.toNat ds [] arrived →
      arrived.Perm ds ∧ ∃ parts, List.Forall₂ FinishedChunk.Answered arrived parts ∧
        FinishedChunk.replies arrived = parts.flatten := by
  refine ⟨⟨a.limit_pos, a.limit_le⟩, ?_, a.nodes_writeChunks_perm b,
    fun c => a.carries_of_mem_writeChunks b, fun σ peer s => ?_, fun ds arrived _ h => ?_⟩
  · have hcreates : b.creates = b.nodes.filter (·.id.isNone) :=
      List.filter_congr fun node _ => Option.not_isSome node.id
    refine ⟨chunks a.limit b.creates, chunks a.limit b.updates, ?_, ?_, rfl⟩
    · rw [← hcreates]
      exact cutInto_chunks a.limit_pos b.creates
    · exact cutInto_chunks a.limit_pos b.updates
  · obtain ⟨ds, log, hds, hsubmit⟩ := a.exists_finished_submit b peer s
    exact ⟨ds, log, hds, .inOrder a.workers_pos ds, hsubmit⟩
  · exact ⟨by simpa using h.perm, FinishedChunk.replies_eq_flatten arrived⟩

end AssetHierarchy
