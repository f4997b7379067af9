import AssetHierarchy.Proofs.Run

/-! Runs one batch at a time. A run up to some batch is the run over the batches before it, so what
every batch keeps holds in the end. Before each batch the run looks whether to go on; then it either
sends what is ready, or it has stopped and passes over this batch and all later ones. -/
namespace AssetHierarchy

variable {n : Nat} {σ : Type} {g : Graph n}

/-! ### Prefixes of a plan -/

namespace Graph

variable (t : Transport σ) (o : Options σ) (s : σ)

theorem submit_concat (g : Graph n) (bs : List (Batch n)) (b : Batch n) :
    g.submit t o (bs ++ [b]) s = (g.submit t o bs s).step t o g b := by
  rw [submit, submit, List.foldl_append, List.foldl_cons, List.foldl_nil]

theorem submit_append (g : Graph n) (bs cs : List (Batch n)) :
    g.submit t o (bs ++ cs) s = cs.foldl (Progress.step t o g) (g.submit t o bs s) := by
  rw [submit, submit, List.foldl_append]

theorem ParentsFirst.parent_mem {done : List (Fin n)} {earlier later : List (Batch n)}
    {b : Batch n} (h : g.ParentsFirst done (earlier ++ b :: later)) {i q : Fin n}
    (hi : i ∈ b.positions) (hq : g.parent i = some q) :
    q ∈ done ++ earlier.flatMap Batch.positions := by
  induction earlier generalizing done with
  | nil => exact List.mem_append_left _ (h.1 i hi q hq)
  | cons c rest ih => simpa using ih h.2

/-- Without cycles every node is in some batch. -/
theorem WritingOrder.mem_positions {size : Nat} {bs : List (Batch n)} (h : g.WritingOrder size bs)
    (hacyclic : ∀ i, ¬OnCycle g.parent i) (i : Fin n) : i ∈ bs.flatMap Batch.positions := by
  obtain ⟨d, hd⟩ := exists_atDepth hacyclic i
  exact h.complete i d hd

/-- Each batch of a plan continues the run over the batches before it. -/
theorem WritingOrder.continues {size : Nat} {bs earlier : List (Batch n)} {b : Batch n}
    (h : g.WritingOrder size bs) (hbs : earlier ++ [b] <+: bs) :
    Progress.Continues g earlier b := by
  obtain ⟨later, rfl⟩ := hbs
  rw [List.append_assoc, List.singleton_append] at h
  constructor
  · intro i hi hmem
    have hnodup := h.nodup
    rw [List.flatMap_append, List.flatMap_cons] at hnodup
    exact (List.nodup_append.mp hnodup).2.2 i hmem i (List.mem_append_left _ hi) rfl
  · intro i hi q hq
    simpa using h.parentsFirst.parent_mem hi hq
  · exact h.entries_eq b (by simp)

theorem WritingOrder.invariant_upTo {size : Nat} {bs earlier : List (Batch n)}
    (h : g.WritingOrder size bs) (hd : g.DistinctIds) (hbs : earlier <+: bs) :
    Progress.Invariant g earlier (g.submit t o earlier s) := by
  induction earlier using List.reverseRecOn with
  | nil => exact Progress.invariant_start g s
  | append_singleton earlier b ih =>
    rw [submit_concat]
    exact (ih ((List.prefix_append _ _).trans hbs)).step hd t o (h.continues hbs)

end Graph

theorem Progress.Continues.parent_notMem {earlier : List (Batch n)} {b : Batch n}
    (h : Continues g earlier b) : ∀ i ∈ b.positions, ∀ q, g.parent i = some q → q ∉ b.positions :=
  fun i hi q hq hqb => h.fresh q hqb (h.parents i hi q hq)

namespace Batch

variable {b : Batch n} {t : Table n}
  (hout : ∀ i ∈ b.positions, ∀ q, g.parent i = some q → q ∉ b.positions)

include hout

theorem with_split_eq_ready (t : Table n) :
    { b with entries := (split g t b.entries).1 } = b.ready g t := by
  rw [split_eq fun e he => hout e.position (List.mem_map_of_mem he)]
  rfl

/-- The table between splitting a batch and sending it. -/
theorem get_split {i : Fin n} (hi : i ∈ b.positions) (hpending : t.get i = .pending) :
    (split g t b.entries).2.get i =
      if t.isReady g i then .pending else .skipped (t.isBelowUncertain g i) := by
  have hunready : ∀ j ∈ b.unready g t, ∀ q, g.parent j = some q → q ∉ b.unready g t :=
    fun j hj q hq hmem => hout j (mem_unready.mp hj).1 q hq (mem_unready.mp hmem).1
  rw [split_eq fun e he => hout e.position (List.mem_map_of_mem he)]
  refine (Table.get_foldl_skip hunready t i).trans ?_
  cases hready : t.isReady g i <;> simp [mem_unready, hi, hpending, hready]

end Batch

/-! ### Going on or stopping -/

/-- A look at the abort signal, if there is one. -/
def Options.look (o : Options σ) (s : σ) : Bool × σ :=
  match o.abort with
  | none => (false, s)
  | some signal => signal.poll s

namespace Progress

variable (t : Transport σ) (o : Options σ) (p : Progress n σ) (b : Batch n)

/-- The run starts no other batch: the signal is raised, or a batch had failures and the options
say to stop then. -/
def halts : Bool :=
  (o.look p.state).1 || (p.hadFailures && o.failurePolicy = .stopAfterFailedBatch)

/-- The run after the look at the signal. -/
def looked : Progress n σ := { p with state := (o.look p.state).2, stopped := p.halts o }

theorem step_of_stopped (hp : p.stopped = true) : p.step t o g b = p.skipBatch g b := by
  have hcheck : p.checkStop o = p := if_pos hp
  rw [step_eq, hcheck, if_pos hp]

theorem step_of_not_stopped (hp : p.stopped = false) :
    p.step t o g b = if p.halts o then (p.looked o).skipBatch g b
      else (p.looked o).sendBatch t g b := by
  have hcheck : p.checkStop o = p.looked o := by
    unfold checkStop looked halts Options.look
    cases o.abort <;> simp [hp]
  rw [step_eq, hcheck]
  rfl

theorem halts_eq_false {o : Options σ} (hpolicy : o.failurePolicy = .continueIndependent)
    (hquiet : ∀ s, (o.look s).1 = false) (p : Progress n σ) : p.halts o = false := by
  simp [halts, hpolicy, hquiet]

/-- What sending a batch does: it makes no call, or one with what is ready. -/
theorem sendBatch_cases (t : Transport σ) (g : Graph n) (p : Progress n σ) (b : Batch n) :
    ((Batch.split g p.table b.entries).1 = [] ∧
      p.sendBatch t g b = { p with table := (Batch.split g p.table b.entries).2 }) ∨
    ∃ k : Call n, k.batch = { b with entries := (Batch.split g p.table b.entries).1 } ∧
      k.reply = (t.submit k.batch p.state).1 ∧
      p.sendBatch t g b =
        { p with
          table := (k.batch.applyReply (Batch.split g p.table b.entries).2 k.reply).1
          state := (t.submit k.batch p.state).2
          calls := p.calls ++ [k]
          hadFailures := p.hadFailures ||
            (k.batch.applyReply (Batch.split g p.table b.entries).2 k.reply).2.hasFailures } := by
  unfold sendBatch
  dsimp only
  split
  · next hnone => exact .inl ⟨List.isEmpty_iff.mp hnone, rfl⟩
  · exact .inr ⟨⟨_, _⟩, rfl, rfl, rfl⟩

/-- A step makes no call, or one with the ready part of the batch. -/
theorem calls_step (t : Transport σ) (o : Options σ) (g : Graph n) (p : Progress n σ)
    (b : Batch n) :
    (p.step t o g b).calls = p.calls ∨
    ∃ k, (p.step t o g b).calls = p.calls ++ [k] ∧
      k.batch = { b with entries := (Batch.split g p.table b.entries).1 } := by
  rw [step_eq]
  split
  · exact .inl (calls_checkStop o p)
  · rcases sendBatch_cases t g (p.checkStop o) b with ⟨-, hp⟩ | ⟨k, hk, -, hp⟩
    · rw [hp]
      exact .inl (calls_checkStop o p)
    · rw [table_checkStop] at hk
      rw [hp]
      exact .inr ⟨k, congrArg (· ++ [k]) (calls_checkStop o p), hk⟩

theorem stopped_sendBatch : (p.sendBatch t g b).stopped = p.stopped := by
  rcases sendBatch_cases t g p b with ⟨-, h⟩ | ⟨k, -, -, h⟩ <;> rw [h]

theorem calls_prefix_step : p.calls <+: (p.step t o g b).calls := by
  rcases calls_step t o g p b with h | ⟨k, h, -⟩
  · rw [h]
  · rw [h]
    exact List.prefix_append _ _

theorem length_calls_step_le : (p.step t o g b).calls.length ≤ p.calls.length + 1 := by
  rcases calls_step t o g p b with h | ⟨k, h, -⟩ <;> simp [h]

end Progress

/-! A run that has no reason to stop sends every batch. -/

section

variable {o : Options σ} (hpolicy : o.failurePolicy = .continueIndependent)
  (hquiet : ∀ s, (o.look s).1 = false)

include hpolicy hquiet

theorem Graph.stopped_submit (g : Graph n) (t : Transport σ) (bs : List (Batch n)) (s : σ) :
    (g.submit t o bs s).stopped = false := by
  induction bs using List.reverseRecOn with
  | nil => rfl
  | append_singleton bs b ih =>
    have hgoes := Progress.halts_eq_false hpolicy hquiet (g.submit t o bs s)
    rw [submit_concat, Progress.step_of_not_stopped _ _ _ _ ih, hgoes, if_neg Bool.false_ne_true]
    exact (Progress.stopped_sendBatch _ _ _).trans hgoes

theorem Graph.submit_concat_eq_sendBatch (g : Graph n) (t : Transport σ) (bs : List (Batch n))
    (b : Batch n) (s : σ) :
    g.submit t o (bs ++ [b]) s = ((g.submit t o bs s).looked o).sendBatch t g b := by
  rw [submit_concat, Progress.step_of_not_stopped _ _ _ _ (g.stopped_submit hpolicy hquiet t bs s),
    Progress.halts_eq_false hpolicy hquiet, if_neg Bool.false_ne_true]

end

/-- A run only adds to its calls. -/
theorem Graph.calls_prefix_submit (g : Graph n) (t : Transport σ) (o : Options σ) (s : σ)
    {earlier bs : List (Batch n)} (h : earlier <+: bs) :
    (g.submit t o earlier s).calls <+: (g.submit t o bs s).calls := by
  obtain ⟨later, rfl⟩ := h
  induction later using List.reverseRecOn with
  | nil => rw [List.append_nil]
  | append_singleton later b ih =>
    rw [← List.append_assoc, submit_concat]
    exact ih.trans (Progress.calls_prefix_step t o _ b)

end AssetHierarchy
