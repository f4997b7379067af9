import AssetHierarchy.Proofs.Settlement
import AssetHierarchy.Proofs.WritingOrder

/-! Runs over the batches of a plan. What is kept from batch to batch: the positions of the batches
so far are settled and all others are pending; a node that was sent has the disposition of its
answer, any other is as uncertain as its parent; and when a node was sent, its parent had been
created by an earlier call. Whether and why the run stops plays no part in this. -/
namespace AssetHierarchy

variable {n : Nat} {σ : Type} {g : Graph n}

/-- The answer of a call for a node: the first outcome for its external id in the reply. -/
def Call.outcome? (g : Graph n) (k : Call n) (i : Fin n) : Option SubmitOutcome :=
  k.reply.lookup (g.node i).xid

namespace Progress

/-! ### One step -/

theorem table_checkStop (o : Options σ) (p : Progress n σ) : (p.checkStop o).table = p.table := by
  unfold checkStop
  split <;> rfl

theorem calls_checkStop (o : Options σ) (p : Progress n σ) : (p.checkStop o).calls = p.calls := by
  unfold checkStop
  split <;> rfl

theorem step_eq (t : Transport σ) (o : Options σ) (p : Progress n σ) (b : Batch n) :
    p.step t o g b = if (p.checkStop o).stopped then (p.checkStop o).skipBatch g b
      else (p.checkStop o).sendBatch t g b := rfl

theorem sendBatch_eq (t : Transport σ) (p : Progress n σ) {b : Batch n}
    (hout : ∀ i ∈ b.positions, ∀ q, g.parent i = some q → q ∉ b.positions) :
    p.sendBatch t g b =
      let sent := b.ready g p.table
      let table := (b.unready g p.table).foldl (Table.skip g) p.table
      if sent.entries.isEmpty then { p with table }
      else
        let (reply, state) := t.submit sent p.state
        let (table, tally) := sent.applyReply table reply
        { p with
          table, state
          calls := p.calls ++ [⟨sent, reply⟩]
          hadFailures := p.hadFailures || tally.hasFailures } := by
  unfold sendBatch
  rw [Batch.split_eq fun e he => hout e.position (List.mem_map_of_mem he)]
  rfl

/-- A step passes over the whole batch, or sends the part of it that is ready. -/
theorem step_cases (t : Transport σ) (o : Options σ) (p : Progress n σ) {b : Batch n}
    (hout : ∀ i ∈ b.positions, ∀ q, g.parent i = some q → q ∉ b.positions) :
    ((p.step t o g b).calls = p.calls ∧
      (p.step t o g b).table = b.positions.foldl (Table.skip g) p.table) ∨
    ∃ reply, (b.ready g p.table).entries ≠ [] ∧
      (p.step t o g b).calls = p.calls ++ [⟨b.ready g p.table, reply⟩] ∧
      (p.step t o g b).table = ((b.ready g p.table).applyReply
        ((b.unready g p.table).foldl (Table.skip g) p.table) reply).1 := by
  rw [step_eq]
  split
  · left
    simp [skipBatch, table_checkStop, calls_checkStop]
  · rw [sendBatch_eq t _ hout, table_checkStop]
    dsimp only
    split
    · next hnone =>
      -- nothing is ready, so all of the batch is passed over
      left
      refine ⟨calls_checkStop o p, ?_⟩
      have hall : (b.entries.filter fun e => !p.table.isReady g e.position) = b.entries := by
        rw [List.filter_eq_self]
        intro e he
        simpa using List.filter_eq_nil_iff.mp (List.isEmpty_iff.mp hnone) e he
      show (((b.entries.filter fun e => !p.table.isReady g e.position).map _).foldl _ _) = _
      rw [hall]
      rfl
    · next hsome =>
      right
      refine ⟨(t.submit (b.ready g p.table) (p.checkStop o).state).1, ?_, ?_, rfl⟩
      · simpa using hsome
      · show (p.checkStop o).calls ++ _ = _
        rw [calls_checkStop]

/-- What the step over a batch changes: the calls that it adds, and the table. -/
structure Effect (g : Graph n) (b : Batch n) (p : Progress n σ) (cs : List (Call n))
    (p' : Progress n σ) : Prop where
  calls_eq : p'.calls = p.calls ++ cs
  kept : ∀ i, i ∉ b.positions → p'.table.get i = p.table.get i
  sent : ∀ k ∈ cs, ∀ i ∈ k.batch.positions, p.table.isReady g i = true ∧
    p'.table.get i = answered (k.outcome? g i)
  passed : ∀ i ∈ b.positions, (∀ k ∈ cs, i ∉ k.batch.positions) →
    p'.table.get i = .skipped (p.table.isBelowUncertain g i)
  calls_of : ∀ k ∈ cs, k.batch.entries ≠ [] ∧
    k.batch.entries = k.batch.positions.map g.entry ∧ k.batch.entries.Sublist b.entries
  positions_sublist : (cs.flatMap fun k => k.batch.positions).Sublist b.positions
  index_sublist : (cs.map fun k => k.batch.index).Sublist [b.index]

variable {p : Progress n σ} {b : Batch n}

theorem exists_effect (hd : g.DistinctIds) (t : Transport σ) (o : Options σ)
    (he : b.entries = b.positions.map g.entry)
    (hout : ∀ i ∈ b.positions, ∀ q, g.parent i = some q → q ∉ b.positions)
    (hpending : ∀ i ∈ b.positions, p.table.get i = .pending) :
    ∃ cs, Effect g b p cs (p.step t o g b) := by
  rcases step_cases t o p hout with ⟨hcalls, htable⟩ | ⟨reply, hne, hcalls, htable⟩
  · have hget := Table.get_foldl_skip hout p.table
    rw [← htable] at hget
    refine ⟨[], ?_⟩
    constructor
    · rw [hcalls, List.append_nil]
    · intro i hi
      rw [hget, if_neg fun h => hi h.2]
    · simp
    · intro i hi _
      rw [hget, if_pos ⟨hpending i hi, hi⟩]
    · simp
    · exact List.nil_sublist _
    · exact List.nil_sublist _
  · have hget := Batch.get_sent hout p.table reply
    rw [← htable] at hget
    have hsub : (b.ready g p.table).entries.Sublist b.entries := List.filter_sublist
    refine ⟨[⟨b.ready g p.table, reply⟩], ?_⟩
    constructor
    · exact hcalls
    · intro i hi
      rw [hget, if_neg fun h => hi h.2]
    · simp only [List.mem_singleton, forall_eq]
      intro i hi
      obtain ⟨hib, hready⟩ := Batch.mem_positions_ready.mp hi
      refine ⟨hready, ?_⟩
      rw [hget, if_pos ⟨hpending i hib, hib⟩, if_pos hready]
      exact congrArg answered
        (Batch.outcomeFor?_eq_lookup (hd.batch _) (Batch.entries_ready he _) reply hi)
    · simp only [List.mem_singleton, forall_eq]
      intro i hi hnot
      have hready : ¬p.table.isReady g i = true :=
        fun h => hnot (Batch.mem_positions_ready.mpr ⟨hi, h⟩)
      rw [hget, if_pos ⟨hpending i hi, hi⟩, if_neg hready]
    · simp only [List.mem_singleton, forall_eq]
      exact ⟨hne, Batch.entries_ready he _, hsub⟩
    · rw [List.flatMap_singleton]
      exact hsub.map Entry.position
    · exact .refl _

/-! ### What the service sees -/

/-- From the first state of the service to the last, the abort signal was looked at any number of
times, and the calls were made, in this order and with these replies. -/
inductive Ran (t : Transport σ) (o : Options σ) (s : σ) : List (Call n) → σ → Prop
  | start : Ran t o s [] s
  | looked {cs : List (Call n)} {s' : σ} {signal : AbortSignal σ} (h : Ran t o s cs s')
      (hs : o.abort = some signal) : Ran t o s cs (signal.poll s').2
  | called {cs : List (Call n)} {s' : σ} (h : Ran t o s cs s') (b : Batch n) :
      Ran t o s (cs ++ [⟨b, (t.submit b s').1⟩]) (t.submit b s').2

theorem Ran.checkStop {t : Transport σ} {o : Options σ} {s : σ} (h : Ran t o s p.calls p.state) :
    Ran t o s (p.checkStop o).calls (p.checkStop o).state := by
  rw [calls_checkStop]
  unfold Progress.checkStop
  split
  · exact h
  · cases hsignal : o.abort with
    | none => exact h
    | some signal => exact h.looked hsignal

theorem Ran.step {t : Transport σ} {o : Options σ} {s : σ} (h : Ran t o s p.calls p.state)
    (b : Batch n) : Ran t o s (p.step t o g b).calls (p.step t o g b).state := by
  rw [step_eq]
  split
  · exact h.checkStop
  · unfold sendBatch
    dsimp only
    split
    · exact h.checkStop
    · exact h.checkStop.called _

theorem Ran.foldl {t : Transport σ} {o : Options σ} {s : σ} (h : Ran t o s p.calls p.state)
    (bs : List (Batch n)) :
    Ran t o s (bs.foldl (Progress.step t o g) p).calls
      (bs.foldl (Progress.step t o g) p).state := by
  induction bs generalizing p with
  | nil => exact h
  | cons b rest ih => exact ih (h.step b)

/-! ### What is kept -/

/-- The state of a run after some batches. -/
structure Invariant (g : Graph n) (earlier : List (Batch n)) (p : Progress n σ) : Prop where
  pending_iff : ∀ i, p.table.get i = .pending ↔ i ∉ earlier.flatMap Batch.positions
  closed : ∀ i ∈ earlier.flatMap Batch.positions, ∀ q, g.parent i = some q →
    q ∈ earlier.flatMap Batch.positions
  sent : ∀ k ∈ p.calls, ∀ i ∈ k.batch.positions, p.table.get i = answered (k.outcome? g i)
  passed : ∀ i ∈ earlier.flatMap Batch.positions, (∀ k ∈ p.calls, i ∉ k.batch.positions) →
    p.table.get i = .skipped (p.table.isBelowUncertain g i)
  parents : ∀ (m : Nat) (k : Call n), p.calls[m]? = some k → ∀ i ∈ k.batch.positions, ∀ q,
    g.parent i = some q → ∃ l < m, ∃ c : Call n, p.calls[l]? = some c ∧
      q ∈ c.batch.positions ∧ ∃ id, c.outcome? g q = some (.success id)
  calls_of : ∀ k ∈ p.calls, k.batch.entries ≠ [] ∧
    k.batch.entries = k.batch.positions.map g.entry ∧
    ∃ b ∈ earlier, k.batch.entries.Sublist b.entries
  positions_sublist : (p.calls.flatMap fun k => k.batch.positions).Sublist
    (earlier.flatMap Batch.positions)
  index_sublist : (p.calls.map fun k => k.batch.index).Sublist (earlier.map Batch.index)

theorem invariant_start (g : Graph n) (s : σ) : Invariant g [] (start n s) where
  pending_iff i := by simp [start, Table.start, Vector.get]
  closed i hi := by simp at hi
  sent k hk := by simp [start] at hk
  passed i hi := by simp at hi
  parents m k hk := by simp [start] at hk
  calls_of k hk := by simp [start] at hk
  positions_sublist := .refl _
  index_sublist := .refl _

variable {earlier : List (Batch n)}

theorem Invariant.exists_call_of_created (h : Invariant g earlier p) {q : Fin n} {id : UInt64}
    (hq : p.table.get q = .created id) :
    ∃ (l : Nat) (c : Call n), p.calls[l]? = some c ∧ q ∈ c.batch.positions ∧
      c.outcome? g q = some (.success id) := by
  have hmem : q ∈ earlier.flatMap Batch.positions := by
    by_contra hnot
    rw [(h.pending_iff q).mpr hnot] at hq
    contradiction
  by_cases hsent : ∃ c ∈ p.calls, q ∈ c.batch.positions
  · obtain ⟨c, hc, hqc⟩ := hsent
    obtain ⟨l, hl⟩ := List.mem_iff_getElem?.mp hc
    rw [h.sent c hc q hqc] at hq
    exact ⟨l, c, hl, hqc, answered_eq_created_iff.mp hq⟩
  · rw [h.passed q hmem fun c hc hqc => hsent ⟨c, hc, hqc⟩] at hq
    contradiction

/-- The conditions under which a batch continues a run. -/
structure Continues (g : Graph n) (earlier : List (Batch n)) (b : Batch n) : Prop where
  fresh : ∀ i ∈ b.positions, i ∉ earlier.flatMap Batch.positions
  parents : ∀ i ∈ b.positions, ∀ q, g.parent i = some q → q ∈ earlier.flatMap Batch.positions
  entries_eq : b.entries = b.positions.map g.entry

theorem mem_positions_concat {i : Fin n} : i ∈ (earlier ++ [b]).flatMap Batch.positions ↔
    i ∈ earlier.flatMap Batch.positions ∨ i ∈ b.positions := by
  rw [List.flatMap_append, List.flatMap_singleton, List.mem_append]

/-- Parents are in the batches before. -/
theorem Continues.parent_mem (hb : Continues g earlier b)
    (hclosed : ∀ i ∈ earlier.flatMap Batch.positions, ∀ q, g.parent i = some q →
      q ∈ earlier.flatMap Batch.positions)
    {i q : Fin n} (hi : i ∈ (earlier ++ [b]).flatMap Batch.positions) (hq : g.parent i = some q) :
    q ∈ earlier.flatMap Batch.positions := by
  rcases mem_positions_concat.mp hi with hi | hi
  · exact hclosed i hi q hq
  · exact hb.parents i hi q hq

theorem Invariant.mem_of_call (h : Invariant g earlier p) {k : Call n} (hk : k ∈ p.calls)
    {i : Fin n} (hi : i ∈ k.batch.positions) : i ∈ earlier.flatMap Batch.positions :=
  h.positions_sublist.subset (List.mem_flatMap.mpr ⟨k, hk, hi⟩)

/-- One more batch. The tests at a node look at its parent, which is settled before the step and is
left alone by it. -/
theorem Invariant.extend (h : Invariant g earlier p) (hb : Continues g earlier b)
    {cs : List (Call n)} {p' : Progress n σ} (he : Effect g b p cs p') :
    Invariant g (earlier ++ [b]) p' := by
  have hkept : ∀ i ∈ earlier.flatMap Batch.positions, p'.table.get i = p.table.get i :=
    fun i hi => he.kept i fun hib => hb.fresh i hib hi
  have hbelow : ∀ i ∈ (earlier ++ [b]).flatMap Batch.positions,
      p'.table.isBelowUncertain g i = p.table.isBelowUncertain g i :=
    fun i hi => Table.isBelowUncertain_congr fun q hq => hkept q (hb.parent_mem h.closed hi hq)
  constructor
  · intro i
    rw [mem_positions_concat, not_or]
    by_cases hib : i ∈ b.positions
    · have hne : p'.table.get i ≠ .pending := by
        by_cases hsent : ∃ k ∈ cs, i ∈ k.batch.positions
        · obtain ⟨k, hk, hik⟩ := hsent
          rw [(he.sent k hk i hik).2]
          exact answered_ne_pending _
        · rw [he.passed i hib fun k hk hik => hsent ⟨k, hk, hik⟩]
          simp
      simp [hne, hib]
    · rw [he.kept i hib, h.pending_iff]
      simp [hib]
  · exact fun i hi q hq => mem_positions_concat.mpr (.inl (hb.parent_mem h.closed hi hq))
  · intro k hk i hi
    rw [he.calls_eq, List.mem_append] at hk
    rcases hk with hk | hk
    · rw [hkept i (h.mem_of_call hk hi), h.sent k hk i hi]
    · exact (he.sent k hk i hi).2
  · intro i hi hnot
    rw [he.calls_eq] at hnot
    rw [hbelow i hi]
    rcases mem_positions_concat.mp hi with hi | hi
    · rw [hkept i hi, h.passed i hi fun k hk => hnot k (List.mem_append_left _ hk)]
    · exact he.passed i hi fun k hk => hnot k (List.mem_append_right _ hk)
  · intro m k hk i hi q hq
    rw [he.calls_eq] at hk ⊢
    have hearlier : ∀ (l : Nat) (c : Call n), p.calls[l]? = some c →
        (p.calls ++ cs)[l]? = some c := by
      intro l c hl
      rw [List.getElem?_append_left (List.getElem?_eq_some_iff.mp hl).1, hl]
    rw [List.getElem?_append] at hk
    split at hk
    · obtain ⟨l, hlm, c, hl, hc⟩ := h.parents m k hk i hi q hq
      exact ⟨l, hlm, c, hearlier l c hl, hc⟩
    · next hm =>
      have hready := (he.sent k (List.mem_of_getElem? hk) i hi).1
      obtain ⟨id, hid⟩ : ∃ id, p.table.get q = .created id := by
        rw [Table.isReady, hq, Option.all_some] at hready
        exact Disposition.isCreated_iff.mp hready
      obtain ⟨l, c, hl, hqc, hout⟩ := h.exists_call_of_created hid
      have hlt := (List.getElem?_eq_some_iff.mp hl).1
      exact ⟨l, by omega, c, hearlier l c hl, hqc, id, hout⟩
  · intro k hk
    rw [he.calls_eq, List.mem_append] at hk
    rcases hk with hk | hk
    · obtain ⟨hne, hentries, c, hc, hsub⟩ := h.calls_of k hk
      exact ⟨hne, hentries, c, List.mem_append_left _ hc, hsub⟩
    · obtain ⟨hne, hentries, hsub⟩ := he.calls_of k hk
      exact ⟨hne, hentries, b, by simp, hsub⟩
  · rw [he.calls_eq, List.flatMap_append, List.flatMap_append, List.flatMap_singleton]
    exact h.positions_sublist.append he.positions_sublist
  · rw [he.calls_eq, List.map_append, List.map_append]
    exact h.index_sublist.append he.index_sublist

theorem Invariant.step (h : Invariant g earlier p) (hd : g.DistinctIds) (t : Transport σ)
    (o : Options σ) (hb : Continues g earlier b) :
    Invariant g (earlier ++ [b]) (p.step t o g b) := by
  have hout : ∀ i ∈ b.positions, ∀ q, g.parent i = some q → q ∉ b.positions :=
    fun i hi q hq hqb => hb.fresh q hqb (hb.parents i hi q hq)
  have hpending : ∀ i ∈ b.positions, p.table.get i = .pending :=
    fun i hi => (h.pending_iff i).mpr (hb.fresh i hi)
  obtain ⟨cs, hcs⟩ := exists_effect hd t o hb.entries_eq hout hpending
  exact h.extend hb hcs

/-! ### Whole runs -/

/-- By induction over the batches that are left, the parents of each of which come before it. -/
theorem Invariant.foldl (h : Invariant g earlier p) (hd : g.DistinctIds) (t : Transport σ)
    (o : Options σ) {bs : List (Batch n)}
    (hentries : ∀ b ∈ bs, b.entries = b.positions.map g.entry)
    (hnodup : ((earlier ++ bs).flatMap Batch.positions).Nodup)
    (hparents : g.ParentsFirst (earlier.flatMap Batch.positions) bs) :
    Invariant g (earlier ++ bs) (bs.foldl (Progress.step t o g) p) := by
  induction bs generalizing earlier p with
  | nil => simpa using h
  | cons b rest ih =>
    have hsplit : earlier ++ b :: rest = (earlier ++ [b]) ++ rest := by simp
    have hb : Continues g earlier b := by
      refine ⟨fun i hi hmem => ?_, hparents.1, hentries b List.mem_cons_self⟩
      rw [List.flatMap_append, List.flatMap_cons] at hnodup
      exact (List.nodup_append.mp hnodup).2.2 i hmem i (List.mem_append_left _ hi) rfl
    rw [hsplit] at hnodup ⊢
    refine ih (h.step hd t o hb) (fun c hc => hentries c (List.mem_cons_of_mem b hc)) hnodup ?_
    rw [List.flatMap_append, List.flatMap_singleton]
    exact hparents.2

end Progress

theorem Graph.ran_submit (g : Graph n) (t : Transport σ) (o : Options σ) (bs : List (Batch n))
    (s : σ) : Progress.Ran t o s (g.submit t o bs s).calls (g.submit t o bs s).state :=
  Progress.Ran.foldl .start bs

/-- The run over a plan. -/
theorem Graph.WritingOrder.invariant {size : Nat} {bs : List (Batch n)}
    (h : g.WritingOrder size bs) (hd : g.DistinctIds) (t : Transport σ) (o : Options σ) (s : σ) :
    Progress.Invariant g bs (g.submit t o bs s) :=
  (Progress.invariant_start g s).foldl hd t o h.entries_eq h.nodup h.parentsFirst

end AssetHierarchy
