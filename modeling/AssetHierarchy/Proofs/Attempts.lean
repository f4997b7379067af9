import AssetHierarchy.Proofs.FinalAccounting
import AssetHierarchy.Proofs.RetrySafety
import AssetHierarchy.Proofs.WriteLog

/-! The attempts of a whole run over a connection, and what they have to do with the final state of
the nodes. A node was carried by the attempts of one request at most. The last of them decides: a
node that counts as failed has no last answer that may have had an effect. Answers before the last
count for nothing, so a server error after which the client tried again is forgotten. -/
namespace AssetHierarchy

variable {σ : Type}

/-- A signal that has no part in the connection: to look at it sends nothing. -/
def AbortSignal.onSession (signal : AbortSignal σ) : AbortSignal (Session σ) where
  poll s :=
    let (raised, peer) := signal.poll s.peer
    (raised, { s with peer })

def Options.onSession (o : Options σ) : Options (Session σ) where
  batchSize := o.batchSize
  assumeParentsExist := o.assumeParentsExist
  failurePolicy := o.failurePolicy
  abort := o.abort.map AbortSignal.onSession

/-! ### The record of a run -/

/-- The attempts that some calls made, one call after the other. -/
inductive Logged {n : Nat} (a : AssetService) : List (Call n) → List Attempt → Prop
  | nil : Logged a [] []
  | concat {cs : List (Call n)} {k : Call n} {log new : List Attempt} (h : Logged a cs log)
      (hk : Wrote a (a.writeChunks k.batch) k.reply new) : Logged a (cs ++ [k]) (log ++ new)

namespace Logged

variable {n : Nat} {g : Graph n} {a : AssetService} {cs : List (Call n)} {log : List Attempt}

theorem answersTo_of_notMem (h : Logged a cs log) (hd : g.DistinctIds) (hn : g.Named)
    (he : ∀ k ∈ cs, k.batch.entries = k.batch.positions.map g.entry) {i : Fin n}
    (hi : ∀ k ∈ cs, i ∉ k.batch.positions) : a.answersTo (g.node i).xid log = [] := by
  induction h with
  | nil => rfl
  | @concat cs k log new _ hk ih =>
    simp only [List.forall_mem_append, List.forall_mem_singleton] at he hi
    rw [AssetService.answersTo_append, ih he.1 hi.1,
      hk.answersTo_of_notMem_batch hd hn he.2 hi.2]
    rfl

/-- The one call that carried a node made all of its attempts. -/
theorem reflects (h : Logged a cs log) (hd : g.DistinctIds) (hn : g.Named)
    (he : ∀ k ∈ cs, k.batch.entries = k.batch.positions.map g.entry)
    (hnodup : (cs.flatMap fun k => k.batch.positions).Nodup) {k : Call n} (hk : k ∈ cs)
    {i : Fin n} (hi : i ∈ k.batch.positions) :
    Reflects (a.answersTo (g.node i).xid log) (k.outcome? g i) := by
  induction h with
  | nil => contradiction
  | @concat cs k' log new hlog hk' ih =>
    simp only [List.forall_mem_append, List.forall_mem_singleton] at he
    rw [List.flatMap_append, List.flatMap_singleton, List.nodup_append] at hnodup
    obtain ⟨hcs, hlast, hdisjoint⟩ := hnodup
    rw [AssetService.answersTo_append]
    rcases List.mem_append.mp hk with hk | hk
    · have hnot : i ∉ k'.batch.positions :=
        fun hmem => hdisjoint i (List.mem_flatMap.mpr ⟨k, hk, hi⟩) i hmem rfl
      rw [hk'.answersTo_of_notMem_batch hd hn he.2 hnot, List.append_nil]
      exact ih he.1 hcs hk
    · obtain rfl := List.mem_singleton.mp hk
      have hnot : ∀ c ∈ cs, i ∉ c.batch.positions :=
        fun c hc hmem => hdisjoint i (List.mem_flatMap.mpr ⟨c, hc, hmem⟩) i hi rfl
      rw [hlog.answersTo_of_notMem hd hn he.1 hnot, List.nil_append]
      exact hk'.reflects_batch hd hn he.2 hlast i

theorem exists_carried (h : Logged a cs log) (hn : g.Named)
    (he : ∀ k ∈ cs, k.batch.entries = k.batch.positions.map g.entry) {t : Attempt}
    (ht : t ∈ log) : ∃ k ∈ cs, ∃ i ∈ k.batch.positions,
      a.isWrite t.message = true ∧ t.message.carries (g.node i).xid = true := by
  induction h with
  | nil => contradiction
  | @concat cs k log new _ hk ih =>
    simp only [List.forall_mem_append, List.forall_mem_singleton] at he
    rcases List.mem_append.mp ht with ht | ht
    · obtain ⟨c, hc, h⟩ := ih he.1 ht
      exact ⟨c, List.mem_append_left _ hc, h⟩
    · obtain ⟨hwrite, i, hi, hcarries⟩ := hk.exists_carried hn he.2 ht
      exact ⟨k, by simp, i, hi, hwrite, hcarries⟩

/-- A call does nothing but write. -/
theorem isWrite (h : Logged a cs log) : ∀ t ∈ log, a.isWrite t.message = true := by
  induction h with
  | nil => nofun
  | @concat cs k log new _ hk ih =>
    refine List.forall_mem_append.mpr ⟨ih, fun t ht => ?_⟩
    obtain ⟨c, -, hm⟩ := hk.exists_chunk ht
    rw [hm]
    exact AssetService.isWrite_request c

end Logged

/-! ### Requests one after the other -/

/-- A request was sent so many times to the other side as it was in this state, and this is what
came of it. The settings bound the tries. All answers but the last asked for another one, and the
result is what the last one lists. -/
structure Asked (a : AssetService) (peer : Peer σ) (state : σ) (r : Request) (k : Nat)
    (result : Except HttpError (List Asset)) : Prop where
  tries : k ≤ a.config.maxTries.toNat
  exchange : Exchange (peer.firstAnswers (a.client.message r) state k) result
  read : result.toOption =
    (peer.firstAnswers (a.client.message r) state k).getLast?.bind Answer.assets?

/-- Some requests were made one after the other, with these results and these attempts. Each found
the other side as the one before had left it, and was answered by it unless the session had ended by
then. -/
inductive Fetched (a : AssetService) (peer : Peer σ) (ended : Bool) :
    σ → List Request → List (Except HttpError (List Asset)) → List Attempt → Prop
  | nil (state : σ) : Fetched a peer ended state [] [] []
  | cons {state : σ} {r : Request} {rest : List Request} {k : Nat}
      {result : Except HttpError (List Asset)} {results : List (Except HttpError (List Asset))}
      {log : List Attempt} (hr : Asked a peer state r k result) (hanswered : k = 0 → ended = true)
      (h : Fetched a peer ended (peer.after (a.client.message r) state k) rest results log) :
      Fetched a peer ended state (r :: rest) (result :: results)
        ((peer.firstAnswers (a.client.message r) state k).map (⟨a.client.message r, ·⟩) ++ log)

theorem Fetched.exists_request {a : AssetService} {peer : Peer σ} {ended : Bool} {state : σ}
    {rs : List Request} {results : List (Except HttpError (List Asset))} {log : List Attempt}
    (h : Fetched a peer ended state rs results log) {t : Attempt} (ht : t ∈ log) :
    ∃ r ∈ rs, t.message = a.client.message r := by
  induction h with
  | nil => contradiction
  | @cons state r rest k result results log _ _ _ ih =>
    rcases List.mem_append.mp ht with ht | ht
    · obtain ⟨x, -, rfl⟩ := List.mem_map.mp ht
      exact ⟨r, List.mem_cons_self, rfl⟩
    · obtain ⟨r', hr', hm⟩ := ih ht
      exact ⟨r', List.mem_cons_of_mem r hr', hm⟩

namespace AssetService

variable (a : AssetService) (peer : Peer σ)

theorem exists_logged_of_ran {n : Nat} {o : Options σ} {s s' : Session σ} {cs : List (Call n)}
    (h : Progress.Ran (a.transport peer) o.onSession s cs s') :
    ∃ log, s'.attempts.toList = s.attempts.toList ++ log ∧ Logged a cs log := by
  induction h with
  | start => exact ⟨[], by simp, .nil⟩
  | looked _ hs ih =>
    obtain ⟨signal, -, rfl⟩ := Option.map_eq_some_iff.mp hs
    exact ih
  | @called cs s' _ b ih =>
    obtain ⟨log, hlog, hcs⟩ := ih
    obtain ⟨new, hnew, hw⟩ := a.exists_wrote peer (a.writeChunks b) s'
    refine ⟨log ++ new, ?_, hcs.concat hw⟩
    rw [← List.append_assoc, ← hlog]
    exact hnew

theorem fetchAll_of_ended (rs : List Request) {s : Session σ} (h : s.ended = true) :
    (a.fetchAll peer rs s).2 = s := by
  induction rs with
  | nil => rfl
  | cons r rest ih =>
    show (a.fetchAll peer rest (a.fetch peer r s).2).2 = s
    rw [a.fetch_of_ended peer r h, ih]

/-- A request adds to the record what the other side answers to it, and its result comes of these
answers. -/
theorem exists_asked (r : Request) (s : Session σ) :
    ∃ k, (s.ended = false → r.path.toList.all (· == '/') = false → k ≠ 0) ∧
      (a.fetch peer r s).2.attempts.toList = s.attempts.toList ++
        (peer.firstAnswers (a.client.message r) s.peer k).map (⟨a.client.message r, ·⟩) ∧
      (a.fetch peer r s).2.peer = peer.after (a.client.message r) s.peer k ∧
      Asked a peer s.peer r k (a.fetch peer r s).1 := by
  obtain ⟨answers, hne, hlog, hx, hread⟩ := a.exists_exchange_fetch peer r s
  have htries : (r.withTries a.config.maxTries.toNat).tries = a.config.maxTries.toNat :=
    max_eq_right (UInt32.le_iff_toNat_le.mp a.config.one_le_maxTries)
  obtain ⟨k, hk, hmade, hpeer⟩ := a.client.exists_made_request peer
    (r := r.withTries a.config.maxTries.toNat) (le_max_left 1 _) s
  rw [htries] at hk
  rw [← a.state_fetch] at hmade hpeer
  obtain rfl := hmade.answers_eq hlog
  exact ⟨k, fun hs hpath => Peer.firstAnswers_eq_nil_iff.not.mp (hne hs hpath), hlog, hpeer,
    hk, hx, hread⟩

theorem exists_fetched {rs : List Request}
    (hpath : ∀ r ∈ rs, r.path.toList.all (· == '/') = false) (s : Session σ) :
    ∃ log, (a.fetchAll peer rs s).2.attempts.toList = s.attempts.toList ++ log ∧
      Fetched a peer (a.fetchAll peer rs s).2.ended s.peer rs (a.fetchAll peer rs s).1 log := by
  induction rs generalizing s with
  | nil => exact ⟨[], by simp [fetchAll], .nil s.peer⟩
  | cons r rest ih =>
    rw [List.forall_mem_cons] at hpath
    obtain ⟨k, hne, hlog, hpeer, hasked⟩ := a.exists_asked peer r s
    obtain ⟨log, hrest, hf⟩ := ih hpath.2 (a.fetch peer r s).2
    rw [hpeer] at hf
    refine ⟨_, ?_, .cons hasked (fun hk => ?_) hf⟩
    · rw [← List.append_assoc, ← hlog]
      exact hrest
    · have hs : s.ended = true := by
        rw [← Bool.not_eq_false]
        exact fun hs => hne hs hpath.1 hk
      rw [a.fetchAll_of_ended peer (r :: rest) hs, hs]

theorem path_of_retrieve (ids : List Identifier) (ignoreUnknown : Bool) {r : Request}
    (hr : r ∈ a.retrieveRequests ids ignoreUnknown) :
    r.path.toList.all (· == '/') = false := by
  obtain ⟨part, -, rfl⟩ := List.mem_map.mp hr
  show "assets/byids".toList.all (· == '/') = false
  decide

/-- Looking up external ids writes nothing. -/
theorem exists_log_existing (ids : List String) (s : Session σ) :
    ∃ log, (a.existing peer ids s).2.attempts.toList = s.attempts.toList ++ log ∧
      ∀ t ∈ log, a.isWrite t.message = false := by
  obtain ⟨log, hlog, hf⟩ :=
    a.exists_fetched peer (fun _ => a.path_of_retrieve (ids.map .externalId) true) s
  refine ⟨log, hlog, fun t ht => ?_⟩
  obtain ⟨r, hr, hm⟩ := hf.exists_request ht
  rw [hm]
  exact isWrite_eq_false_of_isLookup (isLookup_of_retrieve hr)

/-- The attempts of a run: those that look up parents, then those that write. -/
theorem exists_log_createHierarchy (o : Options σ) (nodes : List Node) (s : Session σ) :
    let c := a.createHierarchy peer o.onSession nodes s
    ∃ lookups log, c.state.attempts.toList.drop s.attempts.size = lookups ++ log ∧
      (∀ t ∈ lookups, a.isWrite t.message = false) ∧ Logged a c.calls log := by
  intro c
  obtain ⟨log, hlog, hlogged⟩ :=
    a.exists_logged_of_ran peer (ran_createHierarchy (a.transport peer) o.onSession nodes s)
  split at hlog
  · refine ⟨[], log, ?_, nofun, hlogged⟩
    rw [show c.state.attempts.toList = _ from hlog]
    simp
  · obtain ⟨lookups, hlookups, hread⟩ := a.exists_log_existing peer (outsideParents nodes) s
    refine ⟨lookups, log, ?_, hread, hlogged⟩
    rw [show c.state.attempts.toList = _ from hlog,
      show ((a.transport peer).existing _ s).2.attempts.toList = _ from hlookups]
    simp

end AssetService

end AssetHierarchy
