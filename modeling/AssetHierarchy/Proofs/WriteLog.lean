import AssetHierarchy.Proofs.Exchange
import AssetHierarchy.Proofs.Lists
import AssetHierarchy.Proofs.Members
import AssetHierarchy.Proofs.Settlement
import AssetHierarchy.Simulation.ScriptedServer
import Mathlib.Data.List.Nodup

/-! What is seen on the wire when nodes are written. A write message carries the external ids of its
items, so the attempts that carried a node can be read off the record of a session. -/
namespace AssetHierarchy

/-! ### Messages -/

namespace ServerScript

theorem externalIdOf?_toJson (node : Node) : externalIdOf? node.toJson = node.externalId := by
  have hid : node.toJson.get? "externalId" = node.externalId.map .string := by
    simp [Node.toJson, Json.get?, Node.members, List.lookup_append, Json.lookup_member?_self,
      Json.lookup_member?_of_ne]
  have hupdate : node.toJson.get? "update" = none := by
    simp [Node.toJson, Json.get?, Node.members, List.lookup_append, Json.lookup_member?_of_ne]
  unfold externalIdOf?
  rw [hid, hupdate]
  cases node.externalId <;> rfl

theorem externalIdOf?_updateItem (node : Node) (id : UInt64) :
    externalIdOf? (node.updateItem id) = node.externalId := by
  have hid : (node.updateItem id).get? "externalId" = none := by
    simp [Node.updateItem, Json.get?, List.lookup_cons]
  have hupdate : (node.updateItem id).get? "update" = some (.object node.changes) := by
    simp [Node.updateItem, Json.get?, List.lookup_cons]
  have hparent : node.parentChange.lookup "externalId" = none := by
    unfold Node.parentChange
    split <;> simp [Json.lookup_member?_of_ne]
  have hset : (Json.object node.changes).get? "externalId" =
      node.externalId.map (setTo .string) := by
    simp [Json.get?, Node.changes, List.lookup_append, Json.lookup_member?_self,
      Json.lookup_member?_of_ne, hparent]
  unfold externalIdOf?
  rw [hid, hupdate]
  simp only [Option.bind_none, Option.bind_some, hset]
  cases node.externalId <;> rfl

theorem externalIdOf?_item (k : WriteKind) (node : Node) :
    externalIdOf? (k.item node) = node.externalId := by
  unfold WriteKind.item
  split
  · exact externalIdOf?_updateItem node _
  · exact externalIdOf?_toJson node

end ServerScript

/-- One of the items of the message has the external id. -/
def Message.carries (m : Message) (x : String) : Bool :=
  (ServerScript.itemsOf m.body).any fun item => ServerScript.externalIdOf? item == some x

/-- The answers to the attempts whose message is of some kind, in order. -/
def answersWhere (p : Message → Bool) (log : List Attempt) : List Answer :=
  (log.filter fun t => p t.message).map Attempt.answer

section

variable {p : Message → Bool}

theorem answersWhere_append (log₁ log₂ : List Attempt) :
    answersWhere p (log₁ ++ log₂) = answersWhere p log₁ ++ answersWhere p log₂ := by
  simp [answersWhere]

theorem answersWhere_eq_nil {log : List Attempt} (h : ∀ t ∈ log, p t.message = false) :
    answersWhere p log = [] := by
  rw [answersWhere, List.map_eq_nil_iff, List.filter_eq_nil_iff]
  intro t ht
  simp [h t ht]

/-- The attempts of one request are all of the kind, or none is. -/
theorem answersWhere_map (m : Message) (answers : List Answer) :
    answersWhere p (answers.map (⟨m, ·⟩)) = if p m then answers else [] := by
  unfold answersWhere
  cases h : p m <;> simp [List.filter_map, Function.comp_def, h]

end

namespace AssetService

variable (a : AssetService)

/-- The message asks for assets to be created or updated. -/
def isWrite (m : Message) : Bool :=
  [WriteKind.create, .update].any fun k => m.url == a.client.urlFor (.post k.path .null)

/-- The message asks for assets by their ids. -/
def isLookup (m : Message) : Bool := m.url == a.client.urlFor (.post "assets/byids" .null)

/-- The answers to the attempts that carried an external id for writing, in order. -/
def answersTo (x : String) (log : List Attempt) : List Answer :=
  (log.filter fun t => a.isWrite t.message && t.message.carries x).map Attempt.answer

variable {a : AssetService}

theorem answersTo_eq (x : String) (log : List Attempt) :
    a.answersTo x log = answersWhere (fun m => a.isWrite m && m.carries x) log := rfl

theorem answersTo_append (x : String) (log₁ log₂ : List Attempt) :
    a.answersTo x (log₁ ++ log₂) = a.answersTo x log₁ ++ a.answersTo x log₂ := by
  simp only [answersTo_eq, answersWhere_append]

theorem mem_answersTo {x : String} {log : List Attempt} {y : Answer} :
    y ∈ a.answersTo x log ↔
      ∃ t ∈ log, a.isWrite t.message = true ∧ t.message.carries x = true ∧ t.answer = y := by
  simp [answersTo, and_assoc]

theorem answersTo_of_read {log : List Attempt} (h : ∀ t ∈ log, a.isWrite t.message = false)
    (x : String) : a.answersTo x log = [] := by
  rw [answersTo_eq]
  exact answersWhere_eq_nil fun t ht => by rw [h t ht, Bool.false_and]

/-- The attempts of one request all carry the external id, or none does. -/
theorem answersTo_map (x : String) (m : Message) (answers : List Answer) :
    a.answersTo x (answers.map (⟨m, ·⟩)) =
      if a.isWrite m && m.carries x then answers else [] := by
  rw [answersTo_eq, answersWhere_map]

theorem isWrite_request (c : WriteChunk) : a.isWrite (a.client.message c.request) = true := by
  have hmem : c.kind ∈ [WriteKind.create, .update] := by cases c.kind <;> simp
  exact List.any_eq_true.mpr ⟨c.kind, hmem, beq_self_eq_true _⟩

theorem carries_request {c : WriteChunk}
    (hid : ∀ node ∈ c.nodes, node.externalId = some node.xid) (x : String) :
    (a.client.message c.request).carries x = true ↔ x ∈ c.nodes.map Node.xid := by
  have hitems : ServerScript.itemsOf (a.client.message c.request).body =
      c.nodes.map c.kind.item := by
    simp [ServerScript.itemsOf, Client.message, WriteChunk.request, Request.postItems,
      Request.post, Json.get?, Json.asArray?]
  simp only [Message.carries, hitems, List.any_map, List.any_eq_true, Function.comp_apply,
    ServerScript.externalIdOf?_item, beq_iff_eq, List.mem_map]
  refine exists_congr fun node => and_congr_right fun hnode => ?_
  rw [hid node hnode, Option.some.injEq]

/-- The attempts of the request for a chunk. -/
theorem answersTo_request {c : WriteChunk}
    (hid : ∀ node ∈ c.nodes, node.externalId = some node.xid) (x : String)
    (answers : List Answer) :
    a.answersTo x (answers.map (⟨a.client.message c.request, ·⟩)) =
      if x ∈ c.nodes.map Node.xid then answers else [] := by
  rw [answersTo_map, isWrite_request, Bool.true_and]
  simp only [carries_request hid]

theorem isWrite_eq_false_of_isLookup {m : Message} (h : a.isLookup m = true) :
    a.isWrite m = false := by
  have hpath : ∀ k : WriteKind, String.ofList ("assets/byids".toList.dropWhile (· == '/')) ≠
      String.ofList (k.path.toList.dropWhile (· == '/')) := by
    intro k
    cases k <;> decide
  refine List.any_eq_false.mpr fun k _ hk => hpath k ?_
  exact String.append_right_inj _ |>.mp ((beq_iff_eq.mp h).symm.trans (beq_iff_eq.mp hk))

theorem isLookup_of_retrieve {ids : List Identifier} {ignoreUnknown : Bool} {r : Request}
    (hr : r ∈ a.retrieveRequests ids ignoreUnknown) :
    a.isLookup (a.client.message r) = true := by
  obtain ⟨part, -, rfl⟩ := List.mem_map.mp hr
  exact beq_self_eq_true _

end AssetService

/-! ### Replies -/

namespace WriteChunk

variable {c : WriteChunk} {x : String} {o : SubmitOutcome}

theorem isSuccess_of_lookup_ok {assets : List Asset}
    (h : (c.reply (.ok assets)).lookup x = some o) : o.isSuccess = true := by
  obtain ⟨l₁, l₂, hl, -⟩ := List.lookup_eq_some_iff.mp h
  have hmem : (x, o) ∈ c.reply (.ok assets) := by simp [hl]
  obtain ⟨asset, -, hasset⟩ := List.mem_filterMap.mp hmem
  obtain ⟨y, -, hy⟩ := Option.map_eq_some_iff.mp hasset
  rw [← (Prod.mk.inj hy).2]
  rfl

theorem lookup_error_of_mem (e : HttpError) (hx : x ∈ c.nodes.map Node.xid) :
    (c.reply (.error e)).lookup x = some e.outcome := by
  obtain ⟨node, hnode, rfl⟩ := List.mem_map.mp hx
  have hsome : ((c.reply (.error e)).lookup node.xid).isSome = true := by
    rw [List.lookup_isSome_iff]
    exact ⟨_, List.mem_map_of_mem hnode, by simp⟩
  obtain ⟨o, ho⟩ := Option.isSome_iff_exists.mp hsome
  obtain ⟨l₁, l₂, hl, -⟩ := List.lookup_eq_some_iff.mp ho
  have hmem : (node.xid, o) ∈ c.reply (.error e) := by simp [hl]
  obtain ⟨other, -, hother⟩ := List.mem_map.mp hmem
  rw [ho, ← (Prod.mk.inj hother).2]

theorem lookup_error_of_notMem (e : HttpError) (hx : x ∉ c.nodes.map Node.xid) :
    (c.reply (.error e)).lookup x = none := by
  rw [List.lookup_eq_none_iff]
  rintro ⟨y, o⟩ hmem
  obtain ⟨node, hnode, hy⟩ := List.mem_map.mp hmem
  rw [← (Prod.mk.inj hy).1]
  simpa using fun h => hx (List.mem_map.mpr ⟨node, hnode, h.symm⟩)

end WriteChunk

/-! ### Chunks -/

/-- The requests for some chunks were made one after the other, with this reply and these
attempts. -/
inductive Wrote (a : AssetService) : List WriteChunk → Reply → List Attempt → Prop
  | nil : Wrote a [] [] []
  | cons {c : WriteChunk} {rest : List WriteChunk} {reply : Reply} {log : List Attempt}
      {answers : List Answer} {result : Except HttpError (List Asset)}
      (hx : Exchange answers result) (h : Wrote a rest reply log) :
      Wrote a (c :: rest) (c.reply result ++ reply)
        (answers.map (⟨a.client.message c.request, ·⟩) ++ log)

theorem AssetService.exists_wrote {σ : Type} (a : AssetService) (peer : Peer σ)
    (cs : List WriteChunk) (s : Session σ) :
    ∃ log, (a.submitChunks peer cs s).2.attempts.toList = s.attempts.toList ++ log ∧
      Wrote a cs (a.submitChunks peer cs s).1 log := by
  induction cs generalizing s with
  | nil => exact ⟨[], by simp [submitChunks], .nil⟩
  | cons c rest ih =>
    obtain ⟨answers, -, hlog, hx, -⟩ := a.exists_exchange_fetch peer c.request s
    obtain ⟨log, hrest, hw⟩ := ih (a.fetch peer c.request s).2
    refine ⟨_, ?_, .cons hx hw⟩
    rw [← List.append_assoc, ← hlog]
    exact hrest

/-- What the answers to the attempts that carried a node say about the outcome reported for it. -/
structure Reflects (answers : List Answer) (outcome : Option SubmitOutcome) : Prop where
  asked_again : ∀ x ∈ answers.dropLast, x.asksAgain = true
  left_open : ∀ x ∈ answers.getLast?, x.mayHaveActed = true →
    outcome.all (fun o => o.isSuccess || o.isAmbiguous) = true

namespace Wrote

variable {a : AssetService} {cs : List WriteChunk} {reply : Reply} {log : List Attempt} {x : String}

theorem answersTo_of_notMem (h : Wrote a cs reply log)
    (hid : ∀ node ∈ cs.flatMap WriteChunk.nodes, node.externalId = some node.xid)
    (hx : x ∉ (cs.flatMap WriteChunk.nodes).map Node.xid) : a.answersTo x log = [] := by
  induction h with
  | nil => rfl
  | @cons c rest reply log answers result _ _ ih =>
    rw [List.flatMap_cons] at hid hx
    rw [List.map_append, List.mem_append, not_or] at hx
    rw [AssetService.answersTo_append, ih (fun node h => hid node (List.mem_append_right _ h)) hx.2,
      AssetService.answersTo_request fun node h => hid node (List.mem_append_left _ h), if_neg hx.1]
    rfl

/-- An outcome for a node that is in none of the chunks comes from a reply that lists it. -/
theorem isSuccess_of_notMem (h : Wrote a cs reply log)
    (hx : x ∉ (cs.flatMap WriteChunk.nodes).map Node.xid) {o : SubmitOutcome}
    (ho : reply.lookup x = some o) : o.isSuccess = true := by
  induction h with
  | nil => simp at ho
  | @cons c rest reply log answers result _ _ ih =>
    rw [List.flatMap_cons, List.map_append, List.mem_append, not_or] at hx
    rw [List.lookup_append] at ho
    rcases Option.or_eq_some_iff.mp ho with ho | ⟨-, ho⟩
    · cases result with
      | error e =>
        rw [WriteChunk.lookup_error_of_notMem e hx.1] at ho
        contradiction
      | ok assets => exact WriteChunk.isSuccess_of_lookup_ok ho
    · exact ih hx.2 ho

/-- An outcome that is reported first need not be that of the request which carried the node: the
reply to another one can list it. -/
theorem reflects (h : Wrote a cs reply log)
    (hid : ∀ node ∈ cs.flatMap WriteChunk.nodes, node.externalId = some node.xid)
    (hnodup : ((cs.flatMap WriteChunk.nodes).map Node.xid).Nodup) (x : String) :
    Reflects (a.answersTo x log) (reply.lookup x) := by
  induction h with
  | nil => exact ⟨nofun, nofun⟩
  | @cons c rest reply log answers result hx hrest ih =>
    rw [List.flatMap_cons] at hid hnodup
    rw [List.map_append, List.nodup_append] at hnodup
    obtain ⟨-, hnodup, hdisjoint⟩ := hnodup
    have hidc : ∀ node ∈ c.nodes, node.externalId = some node.xid :=
      fun node h => hid node (List.mem_append_left _ h)
    have hidr : ∀ node ∈ rest.flatMap WriteChunk.nodes, node.externalId = some node.xid :=
      fun node h => hid node (List.mem_append_right _ h)
    rw [AssetService.answersTo_append, AssetService.answersTo_request hidc, List.lookup_append]
    by_cases hmem : x ∈ c.nodes.map Node.xid
    · have hnot : x ∉ (rest.flatMap WriteChunk.nodes).map Node.xid :=
        fun h => hdisjoint x hmem x h rfl
      rw [if_pos hmem, hrest.answersTo_of_notMem hidr hnot, List.append_nil]
      refine ⟨hx.asked_again, fun y hy hacted => ?_⟩
      cases result with
      | error e =>
        rw [WriteChunk.lookup_error_of_mem e hmem, Option.some_or]
        simp [hx.left_open y hy hacted e rfl]
      | ok assets =>
        rw [Option.all_eq_true]
        intro o ho
        rcases Option.or_eq_some_iff.mp ho with ho | ⟨-, ho⟩
        · simp [WriteChunk.isSuccess_of_lookup_ok ho]
        · simp [hrest.isSuccess_of_notMem hnot ho]
    · rw [if_neg hmem, List.nil_append]
      cases result with
      | error e =>
        rw [WriteChunk.lookup_error_of_notMem e hmem, Option.none_or]
        exact ih hidr hnodup
      | ok assets =>
        cases hok : (c.reply (.ok assets)).lookup x with
        | none => exact ih hidr hnodup
        | some o =>
          refine ⟨(ih hidr hnodup).asked_again, fun _ _ _ => ?_⟩
          simp [WriteChunk.isSuccess_of_lookup_ok hok]

/-- Every attempt is one of the request for some chunk. -/
theorem exists_chunk (h : Wrote a cs reply log) {t : Attempt} (ht : t ∈ log) :
    ∃ c ∈ cs, t.message = a.client.message c.request := by
  induction h with
  | nil => contradiction
  | @cons c rest reply log answers result _ _ ih =>
    rcases List.mem_append.mp ht with ht | ht
    · obtain ⟨x, -, rfl⟩ := List.mem_map.mp ht
      exact ⟨c, List.mem_cons_self, rfl⟩
    · obtain ⟨d, hd, hm⟩ := ih ht
      exact ⟨d, List.mem_cons_of_mem c hd, hm⟩

end Wrote

/-! ### Batches -/

namespace AssetService

variable {n : Nat} (a : AssetService) (b : Batch n)

theorem limit_pos : 0 < a.limit :=
  UInt64.le_iff_toNat_le.mp a.config.one_le_createLimit

theorem workers_pos : 0 < a.config.maxWorkers.toNat :=
  UInt64.le_iff_toNat_le.mp a.config.one_le_maxWorkers

theorem nodes_writeChunks_perm :
    ((a.writeChunks b).flatMap WriteChunk.nodes).Perm b.nodes := by
  have hcreate : ∀ (k : WriteKind) (l : List Node),
      ((chunks a.limit l).map (⟨k, ·⟩)).flatMap WriteChunk.nodes = l := by
    intro k l
    rw [List.flatMap_map, List.flatMap_id', flatten_chunks a.limit_pos]
  rw [writeChunks, List.flatMap_append, hcreate, hcreate]
  exact List.perm_append_comm.trans (List.filter_append_perm Node.isUpdate b.nodes)

variable {a b}

theorem nodes_ne_nil_of_mem_writeChunks {c : WriteChunk} (hc : c ∈ a.writeChunks b) :
    c.nodes ≠ [] := by
  rcases List.mem_append.mp hc with hc | hc
  · obtain ⟨l, hl, rfl⟩ := List.mem_map.mp hc
    exact ne_nil_of_mem_chunks a.limit_pos hl
  · obtain ⟨l, hl, rfl⟩ := List.mem_map.mp hc
    exact ne_nil_of_mem_chunks a.limit_pos hl

end AssetService

section

variable {n : Nat} {g : Graph n} {a : AssetService} {b : Batch n} {reply : Reply}
  {log : List Attempt}

theorem mem_writeChunks_iff (he : b.entries = b.positions.map g.entry) {node : Node} :
    node ∈ (a.writeChunks b).flatMap WriteChunk.nodes ↔ ∃ i ∈ b.positions, g.node i = node := by
  rw [(a.nodes_writeChunks_perm b).mem_iff, Batch.nodes_eq he, List.mem_map]

theorem named_of_mem_writeChunks (hn : g.Named) (he : b.entries = b.positions.map g.entry)
    {node : Node} (h : node ∈ (a.writeChunks b).flatMap WriteChunk.nodes) :
    node.externalId = some node.xid := by
  obtain ⟨i, -, rfl⟩ := (mem_writeChunks_iff he).mp h
  exact hn i

namespace Wrote

/-- The nodes of a batch, seen through its requests. -/
theorem reflects_batch (h : Wrote a (a.writeChunks b) reply log) (hd : g.DistinctIds)
    (hn : g.Named) (he : b.entries = b.positions.map g.entry) (hnodup : b.positions.Nodup)
    (i : Fin n) : Reflects (a.answersTo (g.node i).xid log) (reply.lookup (g.node i).xid) := by
  refine h.reflects (fun node hnode => named_of_mem_writeChunks hn he hnode) ?_ _
  rw [((a.nodes_writeChunks_perm b).map Node.xid).nodup_iff, Batch.nodes_eq he, List.map_map]
  exact List.Nodup.map (fun i j hij => hd i j hij) hnodup

theorem answersTo_of_notMem_batch (h : Wrote a (a.writeChunks b) reply log) (hd : g.DistinctIds)
    (hn : g.Named) (he : b.entries = b.positions.map g.entry) {i : Fin n}
    (hi : i ∉ b.positions) : a.answersTo (g.node i).xid log = [] := by
  refine h.answersTo_of_notMem (fun node hnode => named_of_mem_writeChunks hn he hnode)
    fun hmem => hi ?_
  obtain ⟨node, hnode, hx⟩ := List.mem_map.mp hmem
  obtain ⟨j, hj, rfl⟩ := (mem_writeChunks_iff he).mp hnode
  rwa [← hd j i hx]

/-- Every attempt carried a node of the batch. -/
theorem exists_carried (h : Wrote a (a.writeChunks b) reply log) (hn : g.Named)
    (he : b.entries = b.positions.map g.entry) {t : Attempt} (ht : t ∈ log) :
    a.isWrite t.message = true ∧
      ∃ i ∈ b.positions, t.message.carries (g.node i).xid = true := by
  obtain ⟨c, hc, hm⟩ := h.exists_chunk ht
  have hmem : ∀ node ∈ c.nodes, node ∈ (a.writeChunks b).flatMap WriteChunk.nodes :=
    fun node hnode => List.mem_flatMap.mpr ⟨c, hc, hnode⟩
  obtain ⟨node, hnode⟩ :=
    List.exists_mem_of_ne_nil _ (AssetService.nodes_ne_nil_of_mem_writeChunks hc)
  have hcarries := AssetService.carries_request (a := a)
    (fun node hnode => named_of_mem_writeChunks hn he (hmem node hnode)) node.xid
  obtain ⟨i, hi, rfl⟩ := (mem_writeChunks_iff he).mp (hmem node hnode)
  rw [hm]
  exact ⟨AssetService.isWrite_request c, i, hi, hcarries.mpr (List.mem_map_of_mem hnode)⟩

end Wrote

end

end AssetHierarchy
