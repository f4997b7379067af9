import AssetHierarchy.Proofs.Attempts
import AssetHierarchy.Proofs.Tallies
import AssetHierarchy.Proofs.WritingOrder

/-! The write requests of one batch are under way side by side, and their results arrive in any
order. Each request speaks for its own nodes, and no node is in two of them. So the first outcome
for a node is that of its own request wherever this stands, and the table and the tally follow. -/
namespace AssetHierarchy

/-! ### Orders of arrival -/

/-- Of the elements that wait, the first is started whenever fewer than `workers` are under way; any
of those under way may be the next to arrive. -/
inductive Arrives {α : Type} (workers : Nat) : List α → List α → List α → Prop
  | done : Arrives workers [] [] []
  | start {x : α} {waiting underway arrived : List α} (hroom : underway.length < workers)
      (h : Arrives workers waiting (x :: underway) arrived) :
      Arrives workers (x :: waiting) underway arrived
  | arrive {x : α} {waiting before after arrived : List α}
      (h : Arrives workers waiting (before ++ after) arrived) :
      Arrives workers waiting (before ++ x :: after) (x :: arrived)

namespace Arrives

variable {α : Type} {workers : Nat} {waiting underway arrived : List α}

/-- Everything arrives once. -/
theorem perm (h : Arrives workers waiting underway arrived) :
    arrived.Perm (underway ++ waiting) := by
  induction h with
  | done => exact .nil
  | start _ _ ih => exact ih.trans List.perm_middle.symm
  | @arrive x waiting before after arrived _ ih =>
    rw [List.append_assoc] at ih ⊢
    exact (ih.cons x).trans List.perm_middle.symm

theorem arrive_head {x : α} (h : Arrives workers waiting underway arrived) :
    Arrives workers waiting (x :: underway) (x :: arrived) :=
  @arrive α workers x waiting [] underway arrived h

/-- One after the other is one of the orders. -/
theorem inOrder (h : 0 < workers) (l : List α) : Arrives workers l [] l := by
  induction l with
  | nil => exact .done
  | cons x rest ih => exact .start h ih.arrive_head

end Arrives

/-! ### Results -/

/-- A write request, and what came of it in the end. -/
structure FinishedChunk where
  chunk : WriteChunk
  result : Except HttpError (List Asset)

namespace FinishedChunk

def xids (d : FinishedChunk) : List String := d.chunk.nodes.map Node.xid

def reply (d : FinishedChunk) : Reply := d.chunk.reply d.result

/-- What the result says about one of the nodes that the request carried. -/
def disposition (d : FinishedChunk) (x : String) : Disposition :=
  match d.result with
  | .ok assets =>
    ((assets.find? fun asset => asset.externalId == some x).map fun asset =>
      .created asset.id).getD .ambiguous
  | .error e => if e.outcome.isAmbiguous then .ambiguous else .rejected

/-- The reply to a batch whose requests have finished in this order. -/
def replies (ds : List FinishedChunk) : Reply := ds.flatMap reply

end FinishedChunk

theorem HttpError.disposition_outcome (e : HttpError) :
    e.outcome.disposition = if e.outcome.isAmbiguous then .ambiguous else .rejected := by
  have hstatus : ∀ code reason, (outcomeOfStatus code reason).disposition =
      if (outcomeOfStatus code reason).isAmbiguous then .ambiguous else .rejected := by
    intro code reason
    unfold outcomeOfStatus
    split <;> rfl
  cases e with
  | response e => exact hstatus e.code e.reason
  | maxRetries _ last => exact hstatus last.code last.reason
  | network fault => cases fault <;> rfl
  | emptyPath => rfl
  | decode e => rfl

theorem WriteChunk.lookup_ok (c : WriteChunk) (assets : List Asset) (x : String) :
    (c.reply (.ok assets)).lookup x =
      (assets.find? fun asset => asset.externalId == some x).map
        fun asset => .success asset.id := by
  unfold reply
  induction assets with
  | nil => rfl
  | cons asset rest ih =>
    cases hx : asset.externalId with
    | none => simpa [hx] using ih
    | some y =>
      by_cases hxy : x = y
      · simp [hx, hxy]
      · have hbeq : (x == y) = false := beq_eq_false_iff_ne.mpr hxy
        simpa [hx, List.lookup_cons, hbeq, Ne.symm hxy] using ih

/-- A node takes its disposition from the reply of its request. -/
theorem FinishedChunk.answered_lookup {d : FinishedChunk} {x : String} (hx : x ∈ d.xids) :
    answered (d.reply.lookup x) = d.disposition x := by
  unfold reply disposition
  cases d.result with
  | ok assets =>
    rw [WriteChunk.lookup_ok]
    dsimp only
    cases assets.find? fun asset => asset.externalId == some x <;> rfl
  | error e =>
    rw [WriteChunk.lookup_error_of_mem e hx]
    exact e.disposition_outcome

/-! ### Replies in any order -/

theorem lookup_flatMap {α β : Type} (f : α → List (String × β)) (l : List α) (x : String) :
    (l.flatMap f).lookup x = l.findSome? fun a => (f a).lookup x := by
  induction l with
  | nil => rfl
  | cons a rest ih =>
    rw [List.flatMap_cons, List.lookup_append, ih, List.findSome?_cons]
    cases (f a).lookup x <;> rfl

/-- If one element alone has a value, it does not matter where it stands. -/
theorem findSome?_eq_of_unique {α β : Type} {f : α → Option β} {l : List α} {a : α} (ha : a ∈ l)
    (h : ∀ b ∈ l, b ≠ a → f b = none) : l.findSome? f = f a := by
  cases hfound : l.findSome? f with
  | none => exact (List.findSome?_eq_none_iff.mp hfound a ha).symm
  | some y =>
    obtain ⟨b, hb, hy⟩ := List.exists_of_findSome?_eq_some hfound
    by_contra hne
    have hba : b ≠ a := fun hba => hne (by rw [← hba, hy])
    rw [h b hb hba] at hy
    contradiction

/-- The requests of a batch, all of them finished: none has a node of another, and none is answered
with one. -/
structure Apart (xids : List String) (ds : List FinishedChunk) : Prop where
  unique : ∀ d ∈ ds, ∀ d' ∈ ds, ∀ x ∈ d.xids, x ∈ d'.xids → d = d'
  own : ∀ d ∈ ds, ∀ assets, d.result = .ok assets → ∀ asset ∈ assets, ∀ x ∈ xids,
    asset.externalId = some x → x ∈ d.xids

namespace Apart

variable {xids : List String} {ds ds' : List FinishedChunk}

theorem of_subset (h : Apart xids ds) (hsub : ds' ⊆ ds) : Apart xids ds' where
  unique d hd d' hd' := h.unique d (hsub hd) d' (hsub hd')
  own d hd := h.own d (hsub hd)

theorem lookup_eq_none (h : Apart xids ds) {d : FinishedChunk} (hd : d ∈ ds) {x : String}
    (hx : x ∈ xids) (hnot : x ∉ d.xids) : d.reply.lookup x = none := by
  unfold FinishedChunk.reply
  cases hresult : d.result with
  | error e => exact WriteChunk.lookup_error_of_notMem e hnot
  | ok assets =>
    rw [WriteChunk.lookup_ok, Option.map_eq_none_iff, List.find?_eq_none]
    intro asset hasset hid
    exact hnot (h.own d hd assets hresult asset hasset x hx (beq_iff_eq.mp hid))

theorem lookup_replies (h : Apart xids ds) {d : FinishedChunk} (hd : d ∈ ds) {x : String}
    (hx : x ∈ xids) (hxd : x ∈ d.xids) :
    (FinishedChunk.replies ds).lookup x = d.reply.lookup x := by
  rw [FinishedChunk.replies, lookup_flatMap]
  refine findSome?_eq_of_unique hd fun d' hd' hne => h.lookup_eq_none hd' hx fun hxd' => hne ?_
  exact h.unique d' hd' d hd x hxd' hxd

end Apart

/-! ### Batches -/

section

variable {n : Nat} {g : Graph n} {a : AssetService} {b : Batch n} {ds : List FinishedChunk}

theorem FinishedChunk.flatMap_xids (hds : ds.map chunk = a.writeChunks b) :
    ds.flatMap xids = ((a.writeChunks b).flatMap WriteChunk.nodes).map Node.xid := by
  rw [← hds, List.flatMap_map, List.map_flatMap]
  rfl

/-- Distinct external ids are in distinct requests. -/
theorem FinishedChunk.eq_of_mem_xids (hds : ds.map chunk = a.writeChunks b)
    (hdistinct : b.externalIds.Nodup) {d d' : FinishedChunk} (hd : d ∈ ds) (hd' : d' ∈ ds)
    {x : String} (hx : x ∈ d.xids) (hx' : x ∈ d'.xids) : d = d' := by
  have hnodup : (ds.flatMap xids).Nodup := by
    rw [flatMap_xids hds, ((a.nodes_writeChunks_perm b).map Node.xid).nodup_iff]
    exact hdistinct
  have hdisjoint := (List.nodup_flatMap.mp hnodup).2
  have : Std.Symm (Function.onFun List.Disjoint xids) := ⟨fun _ _ h => h.symm⟩
  by_contra hne
  exact hdisjoint.forall hd hd' hne hx hx'

theorem FinishedChunk.exists_of_mem (hds : ds.map chunk = a.writeChunks b) {node : Node}
    (hnode : node ∈ b.nodes) : ∃ d ∈ ds, node ∈ d.chunk.nodes := by
  rw [← (a.nodes_writeChunks_perm b).mem_iff, ← hds, List.flatMap_map] at hnode
  exact List.mem_flatMap.mp hnode

theorem Batch.distinctIds_of_nodup (he : b.entries = b.positions.map g.entry)
    (hdistinct : b.externalIds.Nodup) : b.DistinctIds g := by
  rw [externalIds_eq he] at hdistinct
  exact fun i hi j hj hij => List.inj_on_of_nodup_map hdistinct hi hj hij

theorem Apart.outcomeFor?_replies (h : Apart b.externalIds ds)
    (he : b.entries = b.positions.map g.entry) (hdistinct : b.externalIds.Nodup) {i : Fin n}
    (hi : i ∈ b.positions) {d : FinishedChunk} (hd : d ∈ ds) (hid : g.node i ∈ d.chunk.nodes) :
    b.outcomeFor? (FinishedChunk.replies ds) i = d.reply.lookup (g.node i).xid := by
  have hx : (g.node i).xid ∈ b.externalIds := by
    rw [Batch.externalIds_eq he]
    exact List.mem_map_of_mem hi
  rw [Batch.outcomeFor?_eq_lookup (Batch.distinctIds_of_nodup he hdistinct) he _ hi]
  exact h.lookup_replies hd hx (List.mem_map_of_mem hid)

/-- Each node is settled by the result of its own request. -/
theorem Apart.get_applyReply (h : Apart b.externalIds ds)
    (he : b.entries = b.positions.map g.entry) (hdistinct : b.externalIds.Nodup) {t : Table n}
    {i : Fin n} (hi : i ∈ b.positions) (hpending : t.get i = .pending) {d : FinishedChunk}
    (hd : d ∈ ds) (hid : g.node i ∈ d.chunk.nodes) :
    (b.applyReply t (FinishedChunk.replies ds)).1.get i = d.disposition (g.node i).xid := by
  rw [Batch.get_applyReply_of_mem t _ hi hpending, h.outcomeFor?_replies he hdistinct hi hd hid]
  exact FinishedChunk.answered_lookup (List.mem_map_of_mem hid)

end

/-- The reply to a batch and the results of its requests come from the same exchanges. -/
theorem AssetService.exists_finished_fetchAll {σ : Type} (a : AssetService) (peer : Peer σ)
    (cs : List WriteChunk) (s : Session σ) :
    ∃ ds, ds.map FinishedChunk.chunk = cs ∧
      ds.map FinishedChunk.result = (a.fetchAll peer (cs.map WriteChunk.request) s).1 ∧
      a.submitChunks peer cs s =
        (FinishedChunk.replies ds, (a.fetchAll peer (cs.map WriteChunk.request) s).2) := by
  induction cs generalizing s with
  | nil => exact ⟨[], rfl, rfl, rfl⟩
  | cons c rest ih =>
    obtain ⟨ds, hds, hresults, hsubmit⟩ := ih (a.fetch peer c.request s).2
    refine ⟨⟨c, (a.fetch peer c.request s).1⟩ :: ds, by simp [hds], ?_, ?_⟩
    · exact congrArg ((a.fetch peer c.request s).1 :: ·) hresults
    · rw [FinishedChunk.replies, List.flatMap_cons]
      exact congrArg (fun r => (c.reply (a.fetch peer c.request s).1 ++ r.1, r.2)) hsubmit

theorem WriteChunk.path_request (c : WriteChunk) :
    c.request.path.toList.all (· == '/') = false := by
  show c.kind.path.toList.all (· == '/') = false
  cases c.kind <;> decide

/-- Requests that are made one after the other finish with the reply that the service gives, and
their results are those of what the other side answers. -/
theorem AssetService.exists_finished_submit {σ : Type} {n : Nat} (a : AssetService) (b : Batch n)
    (peer : Peer σ) (s : Session σ) :
    let requests := (a.writeChunks b).map WriteChunk.request
    ∃ ds log, ds.map FinishedChunk.chunk = a.writeChunks b ∧
      ds.map FinishedChunk.result = (a.fetchAll peer requests s).1 ∧
      (a.submit peer b s).1 = FinishedChunk.replies ds ∧
      (a.submit peer b s).2.attempts.toList = s.attempts.toList ++ log ∧
      Fetched a peer (a.submit peer b s).2.ended s.peer requests
        (ds.map FinishedChunk.result) log := by
  intro requests
  obtain ⟨ds, hds, hresults, hsubmit⟩ := a.exists_finished_fetchAll peer (a.writeChunks b) s
  -- a request that names a path reaches the peer, so each has its answers in the log
  have hpath : ∀ r ∈ requests, r.path.toList.all (· == '/') = false :=
    List.forall_mem_map.mpr fun c _ => c.path_request
  obtain ⟨log, hlog, hfetched⟩ := a.exists_fetched peer hpath s
  rw [← hresults] at hfetched
  refine ⟨ds, log, hds, hresults, ?_⟩
  rw [show a.submit peer b s = _ from hsubmit]
  exact ⟨rfl, hlog, hfetched⟩

/-- In whatever order the requests for a batch finish, the table and the tally are the same. Each
node has the disposition that its own request gives it, and no other request has a part in it. The
order of a run over a connection is one of them, with the results that the other side brings
about. -/
theorem applyReply_of_arrives {n : Nat} (a : AssetService) (g : Graph n) (index depth : Nat)
    (is : List (Fin n)) (t : Table n) (hdistinct : (is.map fun i => (g.node i).xid).Nodup)
    (hpending : ∀ i ∈ is, t.get i = .pending) :
    let b : Batch n := ⟨index, depth, is.map g.entry⟩
    let workers := a.config.maxWorkers.toNat
    let requests := (a.writeChunks b).map WriteChunk.request
    (∀ (σ : Type) (peer : Peer σ) (s : Session σ), ∃ ds log,
      ds.map FinishedChunk.chunk = a.writeChunks b ∧ Arrives workers ds [] ds ∧
      ds.map FinishedChunk.result = (a.fetchAll peer requests s).1 ∧
      (a.submit peer b s).1 = FinishedChunk.replies ds ∧
      (a.submit peer b s).2.attempts.toList = s.attempts.toList ++ log ∧
      Fetched a peer (a.submit peer b s).2.ended s.peer requests
        (ds.map FinishedChunk.result) log) ∧
    ∀ ds, ds.map FinishedChunk.chunk = a.writeChunks b →
      (∀ d ∈ ds, ∀ assets, d.result = .ok assets → ∀ asset ∈ assets, ∀ x ∈ b.externalIds,
        asset.externalId = some x → x ∈ d.xids) →
      (∀ i ∈ is, ∃! d, d ∈ ds ∧ g.node i ∈ d.chunk.nodes) ∧
      ∀ arrived, Arrives workers ds [] arrived →
        let after := b.applyReply t (FinishedChunk.replies arrived)
        after = b.applyReply t (FinishedChunk.replies ds) ∧
        (∀ i ∉ is, after.1.get i = t.get i) ∧
        ∀ d ∈ ds, ∀ i ∈ is,
          (g.node i ∈ d.chunk.nodes → after.1.get i = d.disposition (g.node i).xid) ∧
          (g.node i ∉ d.chunk.nodes → ∀ earlier later, arrived = earlier ++ d :: later →
            (b.applyReply t (FinishedChunk.replies (earlier ++ later))).1.get i =
              after.1.get i) := by
  intro b workers requests
  have hpos : b.positions = is := Graph.positions_map_entry index depth is
  have he : b.entries = b.positions.map g.entry := by rw [hpos]
  have hxids : b.externalIds.Nodup := by
    rw [Batch.externalIds_eq he, hpos]
    exact hdistinct
  refine ⟨fun σ peer s => ?_, fun ds hds hown => ?_⟩
  · obtain ⟨ds, log, hds, hsubmit⟩ := a.exists_finished_submit b peer s
    exact ⟨ds, log, hds, .inOrder a.workers_pos ds, hsubmit⟩
  · have hapart : Apart b.externalIds ds :=
      ⟨fun d hd d' hd' x => FinishedChunk.eq_of_mem_xids hds hxids hd hd', hown⟩
    have hexists : ∀ i ∈ is, ∃ d ∈ ds, g.node i ∈ d.chunk.nodes := by
      intro i hi
      refine FinishedChunk.exists_of_mem hds ?_
      rw [Batch.nodes_eq he, hpos]
      exact List.mem_map_of_mem hi
    refine ⟨fun i hi => ?_, fun arrived harrived => ?_⟩
    · obtain ⟨d, hd, hid⟩ := hexists i hi
      refine ⟨d, ⟨hd, hid⟩, fun d' hd' => ?_⟩
      exact hapart.unique d' hd'.1 d hd _ (List.mem_map_of_mem hd'.2) (List.mem_map_of_mem hid)
    · have hperm : arrived.Perm ds := by simpa using harrived.perm
      have harr := hapart.of_subset hperm.subset
      -- the results that have arrived settle a node as soon as that of its own request is there
      have hget : ∀ ds' ⊆ ds, ∀ d ∈ ds', ∀ i ∈ is, g.node i ∈ d.chunk.nodes →
          (b.applyReply t (FinishedChunk.replies ds')).1.get i = d.disposition (g.node i).xid :=
        fun ds' hsub d hd i hi hid => (hapart.of_subset hsub).get_applyReply he hxids
          (hpos ▸ hi) (hpending i hi) hd hid
      refine ⟨Batch.applyReply_congr fun i hi => ?_, fun i hi => ?_, fun d hd i hi => ⟨?_, ?_⟩⟩
      · obtain ⟨d, hd, hid⟩ := hexists i (hpos ▸ hi)
        rw [harr.outcomeFor?_replies he hxids hi (hperm.mem_iff.mpr hd) hid,
          hapart.outcomeFor?_replies he hxids hi hd hid]
      · exact Batch.get_applyReply_of_notMem t _ (hpos ▸ hi)
      · exact hget arrived hperm.subset d (hperm.mem_iff.mpr hd) i hi
      · rintro hid earlier later rfl
        obtain ⟨d', hd', hid'⟩ := hexists i hi
        have hmem : d' ∈ earlier ++ later := by
          have hor := hperm.mem_iff.mpr hd'
          rw [List.mem_append, List.mem_cons] at hor
          rcases hor with h | rfl | h
          · exact List.mem_append_left _ h
          · exact absurd hid' hid
          · exact List.mem_append_right _ h
        have hsub : earlier ++ later ⊆ ds :=
          List.Subset.trans ((List.sublist_cons_self d later).append_left earlier).subset
            hperm.subset
        rw [hget _ hsub d' hmem i hi hid', hget _ hperm.subset d' (hperm.mem_iff.mpr hd') i hi hid']

/-- A client that writes one node at a time, and two at once. -/
def twoWorkers : AssetService where
  config :=
    { project := ⟨"plant", by decide +kernel⟩
      token := ⟨"key", by decide⟩
      clientName := ⟨"uploader", by decide +kernel⟩
      baseUrl := ⟨"http://h"⟩
      apiVersion := .v1
      maxWorkers := 2
      timeout := 30000
      maxTries := 1
      createLimit := 2
      one_le_maxWorkers := by decide
      one_le_maxTries := by decide
      one_le_createLimit := by decide
      createLimit_le := by decide }

/-- The update of a valve is lost before the creation of a pump is answered. -/
theorem applyReply_of_arrives_late :
    let nodes := [.named "pump" "Pump", (Node.named "valve" "Valve").withId 7]
    let b : Batch 2 := ⟨0, 0, [0, 1].map (Graph.ofList nodes).entry⟩
    let pump : FinishedChunk :=
      ⟨⟨.create, [.named "pump" "Pump"]⟩,
        .ok [{ id := 5, externalId := some "pump", name := "Pump" }]⟩
    let valve : FinishedChunk :=
      ⟨⟨.update, [(Node.named "valve" "Valve").withId 7]⟩, .error (.network .lost)⟩
    let table := (b.applyReply (.start 2) (FinishedChunk.replies [valve, pump])).1
    table.get 0 = .created 5 ∧ table.get 1 = .ambiguous := by
  intro nodes b pump valve table
  obtain ⟨-, h⟩ := applyReply_of_arrives twoWorkers (Graph.ofList nodes) 0 0 [0, 1] (.start 2)
    (by decide +kernel) (by decide)
  have hown : ∀ d ∈ [pump, valve], ∀ assets, d.result = .ok assets → ∀ asset ∈ assets,
      ∀ x ∈ b.externalIds, asset.externalId = some x → x ∈ d.xids := by
    simp [pump, valve, FinishedChunk.xids, Node.xid, Node.named]
  obtain ⟨-, harrived⟩ := h [pump, valve] (by decide +kernel) hown
  obtain ⟨-, -, hget⟩ := harrived [valve, pump]
    (.start (by decide) (.start (by decide) (Arrives.done.arrive_head.arrive_head)))
  exact ⟨(hget pump (by simp) 0 (by simp)).1 (by decide +kernel),
    (hget valve (by simp) 1 (by simp)).1 (by decide +kernel)⟩

end AssetHierarchy
