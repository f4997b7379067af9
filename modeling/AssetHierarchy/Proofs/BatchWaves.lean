import AssetHierarchy.Proofs.BatchSize
import AssetHierarchy.Proofs.NotWritten

/-! How many requests a batch of the default size takes. It holds no more nodes than all workers
send in one go, but those to create and those to update are cut into requests apart. Each of the
two can end in a request that is not full, so there can be one request more than there are
workers, and never two. -/
namespace AssetHierarchy

/-! ### Two lists cut apart -/

section

variable {size workers c u : Nat}

theorem ceilDiv_eq_div_add (h : 0 < size) (c : Nat) :
    c ⌈/⌉ size = c / size + if size ∣ c then 0 else 1 := by
  have hpred : size - 1 < size := by omega
  rw [Nat.ceilDiv_eq_add_pred_div, Nat.add_sub_assoc h, Nat.add_div h, Nat.div_eq_of_lt hpred,
    Nat.mod_eq_of_lt hpred, Nat.add_zero]
  refine congrArg (c / size + ·) ?_
  by_cases hc : size ∣ c
  · have hrem := Nat.mod_eq_zero_of_dvd hc
    rw [if_neg (by omega), if_pos hc]
  · have hrem := Nat.pos_of_ne_zero (mt Nat.dvd_of_mod_eq_zero hc)
    rw [if_pos (by omega), if_neg hc]

/-- A piece that is not full leaves a worker to spare. -/
theorem div_add_div_lt (hle : c + u ≤ size * workers) (hc : ¬size ∣ c) :
    c / size + u / size < workers := by
  have hlt : size * (c / size) < c :=
    (Nat.mul_div_le c size).lt_of_ne fun heq => hc ⟨c / size, heq.symm⟩
  apply Nat.lt_of_mul_lt_mul_left (a := size)
  calc size * (c / size + u / size) = size * (c / size) + size * (u / size) := Nat.mul_add ..
    _ < c + u := Nat.add_lt_add_of_lt_of_le hlt (Nat.mul_div_le u size)
    _ ≤ size * workers := hle

/-- There is at most one piece too many. That is so if both lists end in a piece that is not full,
and the full ones are for all workers but one. -/
theorem ceilDiv_add_ceilDiv_bounds (h : 0 < size) (hle : c + u ≤ size * workers) :
    c ⌈/⌉ size + u ⌈/⌉ size ≤ workers + 1 ∧
      (workers < c ⌈/⌉ size + u ⌈/⌉ size ↔
        ¬size ∣ c ∧ ¬size ∣ u ∧ c / size + u / size + 1 = workers) := by
  rw [ceilDiv_eq_div_add h, ceilDiv_eq_div_add h]
  by_cases hc : size ∣ c
  · have hall : c / size + (u / size + if size ∣ u then 0 else 1) ≤ workers := by
      by_cases hu : size ∣ u
      · rw [if_pos hu]
        exact Nat.div_add_div_le_add_div.trans (Nat.div_le_of_le_mul hle)
      · have hspare := div_add_div_lt ((Nat.add_comm u c).trans_le hle) hu
        rw [if_neg hu]
        omega
    rw [if_pos hc, Nat.add_zero]
    exact ⟨by omega, iff_of_false (by omega) fun hnot => hnot.1 hc⟩
  · have hspare := div_add_div_lt hle hc
    rw [if_neg hc]
    by_cases hu : size ∣ u
    · rw [if_pos hu]
      exact ⟨by omega, iff_of_false (by omega) fun hnot => hnot.2.1 hu⟩
    · rw [if_neg hu]
      simp only [hc, hu, not_false_eq_true, true_and]
      omega

end

/-! ### The requests of a batch -/

theorem Batch.length_creates_add_length_updates {n : Nat} (b : Batch n) :
    b.creates.length + b.updates.length = b.entries.length := by
  have hparts := (List.filter_append_perm Node.isUpdate b.nodes).length_eq
  rw [List.length_append, Nat.add_comm] at hparts
  exact hparts.trans (List.length_map _)

namespace AssetService

variable (a : AssetService)

theorem length_writeChunks {n : Nat} (b : Batch n) :
    (a.writeChunks b).length =
      b.creates.length ⌈/⌉ a.limit + b.updates.length ⌈/⌉ a.limit := by
  rw [writeChunks, List.length_append, List.length_map, List.length_map,
    (cutInto_chunks a.limit_pos _).length_eq, (cutInto_chunks a.limit_pos _).length_eq]

/-- A batch of a run is not empty, and without a size of its own a run puts no more into it than all
workers send in one go. -/
theorem length_entries_of_call {σ : Type} (peer : Peer σ) (o : Options σ) (nodes : List Node)
    (s : Session σ) (ho : o.batchSize = none) (hfits : a.wave < 2 ^ 64) {k : Call nodes.length}
    (hk : k ∈ (a.createHierarchy peer o.onSession nodes s).calls) :
    1 ≤ k.batch.entries.length ∧ k.batch.entries.length ≤ a.wave := by
  rcases refused_or_written (a.transport peer) o.onSession nodes s with ⟨hcalls, -⟩ | ⟨ex, bs, hw⟩
  · rw [show (a.createHierarchy peer o.onSession nodes s).calls = [] from hcalls] at hk
    contradiction
  · rw [hw.calls_eq] at hk
    obtain ⟨hne, -, b, hb, hsub⟩ := hw.invariant.calls_of k hk
    have hsize : o.onSession.batchSize.getD (a.transport peer).preferredBatchSize = a.wave := by
      rw [show o.onSession.batchSize = none from ho]
      exact a.preferredBatchSize_eq_wave_iff.mpr hfits
    have hle := ((Graph.rooted_ofList nodes).writingOrder hw.plan).length_le b hb
    rw [hsize, Nat.max_eq_right a.wave_pos] at hle
    exact ⟨List.length_pos_of_ne_nil hne, hsub.length_le.trans hle⟩

end AssetService

/-- Without a size of its own a run makes for each batch the requests that its nodes to create and
its nodes to update take, and nothing else is written. They are one more than there are workers if
both kinds of nodes leave a request that is not full and the full ones are for all workers but one.
Otherwise all of them go out at once. -/
theorem createHierarchy_default_requests {σ : Type} (a : AssetService) (peer : Peer σ)
    (o : Options σ) (nodes : List Node) (s : Session σ) (ho : o.batchSize = none)
    (hfits : a.wave < 2 ^ 64) :
    let c := a.createHierarchy peer o.onSession nodes s
    let workers := a.config.maxWorkers.toNat
    (∃ d : Config.Draft, d.build = .ok a.config) ∧
    (∃ lookups log, c.state.attempts.toList.drop s.attempts.size = lookups ++ log ∧
      (∀ t ∈ lookups, a.isWrite t.message = false) ∧ Logged a c.calls log) ∧
    ∀ k ∈ c.calls,
      let creates := k.batch.creates.length
      let updates := k.batch.updates.length
      let requests := (a.writeChunks k.batch).length
      1 ≤ creates + updates ∧ creates + updates ≤ a.limit * workers ∧
      requests = creates ⌈/⌉ a.limit + updates ⌈/⌉ a.limit ∧ requests ≤ workers + 1 ∧
      (workers < requests ↔ ¬a.limit ∣ creates ∧ ¬a.limit ∣ updates ∧
        creates / a.limit + updates / a.limit + 1 = workers) := by
  intro c workers
  refine ⟨a.config.exists_draft, a.exists_log_createHierarchy peer o nodes s, fun k hk => ?_⟩
  intro creates updates requests
  have hlength : creates + updates = k.batch.entries.length :=
    k.batch.length_creates_add_length_updates
  obtain ⟨hpos, hle⟩ := a.length_entries_of_call peer o nodes s ho hfits hk
  rw [← hlength] at hpos hle
  have hrequests : requests = creates ⌈/⌉ a.limit + updates ⌈/⌉ a.limit :=
    a.length_writeChunks k.batch
  obtain ⟨hmost, hiff⟩ := ceilDiv_add_ceilDiv_bounds a.limit_pos hle
  exact ⟨hpos, hle, hrequests, hrequests.trans_le hmost, by rwa [hrequests]⟩

/-- Three nodes to create and one to update are what two workers send in one go, and take three
requests. -/
theorem createHierarchy_default_requests_fourRoots :
    let nodes := [.named "a" "A", .named "b" "B", .named "c" "C", (Node.named "d" "D").withId 7]
    let s : Session ServerScript := { peer := { authority := "h", reachable := false } }
    ∃ k, (twoWorkers.createHierarchy ServerScript.peer (Options.onSession {}) nodes s).calls = [k] ∧
      (twoWorkers.writeChunks k.batch).length = 3 := by
  intro nodes s
  obtain ⟨-, -, hcalls⟩ :=
    createHierarchy_default_requests twoWorkers ServerScript.peer {} nodes s rfl (by decide)
  have hparts : (twoWorkers.createHierarchy ServerScript.peer (Options.onSession {}) nodes
      s).calls.map (fun k => (k.batch.creates.length, k.batch.updates.length)) = [(3, 1)] := by
    decide +kernel
  obtain ⟨k, hk, hlengths⟩ := List.map_eq_singleton_iff.mp hparts
  obtain ⟨hcreates, hupdates⟩ := Prod.mk.inj hlengths
  obtain ⟨-, -, -, hmost, hiff⟩ := hcalls k (by rw [hk]; exact List.mem_singleton_self k)
  rw [hcreates, hupdates] at hiff
  exact ⟨k, hk, Nat.le_antisymm hmost (hiff.mpr (by decide))⟩

/-- A pump and a valve are less than one worker sends in one go, and take two requests. The first
fails, and the second is made all the same, although nothing is to follow a batch that failed. -/
theorem two_requests_for_one_worker :
    let c := twoTries.createHierarchy ServerScript.peer
      (Options.onSession { failurePolicy := .stopAfterFailedBatch })
      [.named "pump" "Pump", (Node.named "valve" "Valve").withId 7]
      { peer := { authority := "h", rules := [{ answer := .reply 400 [] "" false }] } }
    (∃ d : Config.Draft, d.build = .ok twoTries.config) ∧
      twoTries.config.maxWorkers = 1 ∧ twoTries.wave = 1000 ∧
      c.calls.map (fun k => (k.batch.externalIds, (twoTries.writeChunks k.batch).length)) =
        [(["pump", "valve"], 2)] ∧
      c.state.attempts.toList.map (fun t => (twoTries.isWrite t.message, t.answer.status?)) =
        [(true, some 400), (true, some 200)] :=
  ⟨twoTries.config.exists_draft, by decide +kernel⟩

end AssetHierarchy
