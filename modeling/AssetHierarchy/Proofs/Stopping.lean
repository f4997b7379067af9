import AssetHierarchy.Proofs.FinalAccounting
import AssetHierarchy.Proofs.Stepping
import AssetHierarchy.Proofs.Tallies
import AssetHierarchy.Simulation.MemoryTransport

/-! Runs that stop before the last batch. A run that stops goes the way of the run that does not,
call by call, as long as it has not stopped, and makes no other call afterwards. So its calls are
the first ones of the whole run: up to the first with a failure, if the options say to stop then,
and up to the call during which the abort signal was raised. -/
namespace AssetHierarchy

variable {n : Nat} {σ : Type} {g : Graph n}

/-! ### How far a run goes -/

/-- Some node of the call is not recorded as created. -/
def Call.isIncomplete (g : Graph n) (k : Call n) : Bool :=
  k.batch.positions.any fun i => !(answered (k.outcome? g i)).isCreated

/-- The calls that a failure policy lets through: all of them, or those up to the first incomplete
one. -/
def FailurePolicy.due (g : Graph n) (cs : List (Call n)) : FailurePolicy → List (Call n)
  | continueIndependent => cs
  | stopAfterFailedBatch => cs.take (cs.findIdx (Call.isIncomplete g) + 1)

/-- The number of calls that a failure policy lets through. -/
def FailurePolicy.quota (g : Graph n) (cs : List (Call n)) : FailurePolicy → Nat
  | continueIndependent => cs.length
  | stopAfterFailedBatch => cs.findIdx (Call.isIncomplete g) + 1

theorem FailurePolicy.due_eq_take (g : Graph n) (cs : List (Call n)) (policy : FailurePolicy) :
    policy.due g cs = cs.take (policy.quota g cs) := by
  cases policy <;> simp [due, quota]

theorem findIdx_lt_iff {α : Type} {p : α → Bool} {l₁ l : List α} (h : l₁ <+: l) :
    l.findIdx p < l₁.length ↔ l₁.any p = true := by
  obtain ⟨l₂, rfl⟩ := h
  rw [List.findIdx_append, List.any_eq_true]
  split
  · next hlt => exact ⟨fun _ => List.findIdx_lt_length.mp hlt, fun _ => hlt⟩
  · next hnot =>
    rw [← List.findIdx_lt_length]
    omega

/-- The same options without a reason to stop. -/
def Options.unhindered (o : Options σ) : Options σ :=
  { o with failurePolicy := .continueIndependent, abort := none }

/-- The replies depend on the calls that were made, not on the looks at the abort signal. -/
def Transport.Historic (n : Nat) (t : Transport σ) (o : Options σ) (s : σ) : Prop :=
  ∀ (cs : List (Call n)) (s₁ s₂ : σ), Progress.Ran t o s cs s₁ → Progress.Ran t o s cs s₂ →
    ∀ b : Batch n, (t.submit b s₁).1 = (t.submit b s₂).1

/-- The signal is seen raised once the call of the given number, counted from one, has been made.
With zero it is raised from the start. -/
def Options.RaisedIn (t : Transport σ) (o : Options σ) (s : σ) (due : List (Call n)) (k : Nat) :
    Prop :=
  ∀ (cs : List (Call n)) (s' : σ), Progress.Ran t o s cs s' → cs <+: due →
    (o.look s').1 = decide (k ≤ cs.length)

/-! ### Failures -/

namespace Progress

variable {p q : Progress n σ} {b : Batch n} {earlier bs : List (Batch n)}

/-- The failures that a run remembers are those of its calls. -/
theorem hadFailures_sendBatch (t : Transport σ) (hd : g.DistinctIds) (h : Invariant g earlier p)
    (hb : Continues g earlier b) (hp : p.hadFailures = p.calls.any (Call.isIncomplete g)) :
    (p.sendBatch t g b).hadFailures = (p.sendBatch t g b).calls.any (Call.isIncomplete g) := by
  rcases sendBatch_cases t g p b with ⟨-, hsend⟩ | ⟨k, hk, -, hsend⟩
  · rw [hsend]
    exact hp
  · rw [hsend]
    have hready : k.batch = b.ready g p.table :=
      hk.trans (Batch.with_split_eq_ready hb.parent_notMem p.table)
    have hentries := Batch.entries_ready hb.entries_eq p.table
    have hcall : (k.batch.applyReply (Batch.split g p.table b.entries).2 k.reply).2.hasFailures =
        k.isIncomplete g := by
      rw [Bool.eq_iff_iff, Batch.hasFailures_applyReply, Call.isIncomplete, List.any_eq_true]
      refine exists_congr fun i => and_congr_right fun hi => ?_
      rw [hready] at hi
      obtain ⟨hib, hreadyi⟩ := Batch.mem_positions_ready.mp hi
      have hpending := (h.pending_iff i).mpr (hb.fresh i hib)
      have hanswer : k.batch.outcomeFor? k.reply i = k.outcome? g i := by
        rw [hready]
        exact Batch.outcomeFor?_eq_lookup (hd.batch _) hentries k.reply hi
      simp [Batch.get_split hb.parent_notMem hib hpending, hreadyi, hanswer]
    simp [hcall, hp]

/-! ### A run without a reason to stop -/

theorem halts_unhindered (o : Options σ) (p : Progress n σ) : p.halts o.unhindered = false :=
  halts_eq_false rfl (fun _ => rfl) p

theorem looked_unhindered {o : Options σ} (hp : p.stopped = false) :
    p.looked o.unhindered = p := by
  rw [looked, halts_unhindered, ← hp]
  rfl

theorem hadFailures_unhindered {size : Nat} (h : g.WritingOrder size bs) (hd : g.DistinctIds)
    (t : Transport σ) (o : Options σ) (s : σ) (hbs : earlier <+: bs) :
    let p := g.submit t o.unhindered earlier s
    p.hadFailures = p.calls.any (Call.isIncomplete g) := by
  induction earlier using List.reverseRecOn with
  | nil => rfl
  | append_singleton earlier b ih =>
    have hearlier := (List.prefix_append _ _).trans hbs
    have hinv := h.invariant_upTo t o.unhindered s hd hearlier
    rw [g.submit_concat_eq_sendBatch rfl (fun _ => rfl),
      looked_unhindered (g.stopped_submit rfl (fun _ => rfl) t earlier s)]
    exact hadFailures_sendBatch t hd hinv (h.continues hbs) (ih hearlier)

theorem Ran.of_no_abort {t : Transport σ} {o o' : Options σ} {s s' : σ} {cs : List (Call n)}
    (h : Ran t o' s cs s') (ho : o'.abort = none) : Ran t o s cs s' := by
  induction h with
  | start => exact .start
  | looked _ hs _ => simp [ho] at hs
  | called _ b ih => exact ih.called b

theorem Ran.look {t : Transport σ} {o : Options σ} {s s' : σ} {cs : List (Call n)}
    (h : Ran t o s cs s') : Ran t o s cs (o.look s').2 := by
  unfold Options.look
  cases hsignal : o.abort with
  | none => exact h
  | some signal => exact h.looked hsignal

/-! ### Two runs -/

/-- The runs differ in the state of the service at most. -/
structure Agrees (p q : Progress n σ) : Prop where
  table : p.table = q.table
  calls : p.calls = q.calls
  hadFailures : p.hadFailures = q.hadFailures

theorem Agrees.sendBatch {t : Transport σ} (h : Agrees p q)
    (hreply : ∀ b : Batch n, (t.submit b p.state).1 = (t.submit b q.state).1) (b : Batch n) :
    Agrees (p.sendBatch t g b) (q.sendBatch t g b) := by
  unfold Progress.sendBatch
  rw [h.table, h.calls, h.hadFailures]
  dsimp only
  rw [hreply]
  split
  · exact ⟨rfl, rfl, rfl⟩
  · exact ⟨rfl, rfl, rfl⟩

theorem halts_iff {o : Options σ} {k : Nat} {S : List (Call n)} (hS : p.calls <+: S)
    (hfailures : p.hadFailures = p.calls.any (Call.isIncomplete g))
    (hraised : (o.look p.state).1 = decide (k ≤ p.calls.length)) :
    p.halts o = true ↔ k ≤ p.calls.length ∨
      o.failurePolicy = .stopAfterFailedBatch ∧ o.failurePolicy.quota g S ≤ p.calls.length := by
  rw [halts, hraised, hfailures, Bool.or_eq_true, Bool.and_eq_true, ← findIdx_lt_iff hS,
    decide_eq_true_iff, decide_eq_true_iff]
  refine or_congr_right (and_comm.trans (and_congr_right fun hpolicy => ?_))
  rw [hpolicy]
  exact Nat.lt_iff_add_one_le

/-- One batch, before which the run has made the same calls as the one without a reason to stop. -/
theorem agrees_or_stopped_step {t : Transport σ} {o : Options σ} {k : Nat} {S : List (Call n)}
    (h : Agrees p q) (hp : p.stopped = false) (hq : q.stopped = false)
    (hfailures : q.hadFailures = q.calls.any (Call.isIncomplete g))
    (hlength : q.calls.length ≤ min k (o.failurePolicy.quota g S))
    (hS : (q.step t o.unhindered g b).calls <+: S)
    (hraised : (o.look p.state).1 = decide (k ≤ p.calls.length))
    (hreply : ∀ c : Batch n, (t.submit c (o.look p.state).2).1 = (t.submit c q.state).1) :
    let p' := p.step t o g b
    let q' := q.step t o.unhindered g b
    (p'.stopped = false ∧ Agrees p' q' ∧
        q'.calls.length ≤ min k (o.failurePolicy.quota g S)) ∨
      (p'.stopped = true ∧ p'.calls = S.take (min k (o.failurePolicy.quota g S))) := by
  have hqS : q.calls <+: S := (calls_prefix_step t _ q b).trans hS
  have hnext := length_calls_step_le (g := g) t o.unhindered q b
  have hhalts : p.halts o = true ↔ _ :=
    halts_iff (h.calls ▸ hqS) (h.hadFailures.trans (h.calls ▸ hfailures)) hraised
  rw [h.calls] at hhalts
  rw [step_of_not_stopped _ _ _ _ hp]
  cases hh : p.halts o with
  | true =>
    right
    refine ⟨hh, ?_⟩
    have hlast : min k (o.failurePolicy.quota g S) = q.calls.length := by
      rcases hhalts.mp hh with hk | ⟨-, hquota⟩ <;> omega
    rw [hlast]
    exact h.calls.trans (List.prefix_iff_eq_take.mp hqS)
  | false =>
    left
    obtain ⟨hk, hquota⟩ := not_or.mp (mt hhalts.mpr (Bool.eq_false_iff.mp hh))
    have hroom : (q.step t o.unhindered g b).calls.length ≤ o.failurePolicy.quota g S := by
      cases hpolicy : o.failurePolicy with
      | continueIndependent => exact hS.length_le
      | stopAfterFailedBatch =>
        rw [hpolicy] at hquota
        have hlt := Nat.lt_of_not_le fun hle => hquota ⟨rfl, hle⟩
        omega
    have hstep : q.step t o.unhindered g b = q.sendBatch t g b := by
      rw [step_of_not_stopped _ _ _ _ hq, halts_unhindered, looked_unhindered hq]
      rfl
    have hagree : Agrees (p.looked o) q := ⟨h.table, h.calls, h.hadFailures⟩
    refine ⟨(stopped_sendBatch _ _ _).trans hh, ?_, by omega⟩
    rw [hstep]
    exact hagree.sendBatch hreply b

/-- Until it stops, a run makes the calls of the run without a reason to stop, no more of them than
are due; and it stops when these have been made. -/
theorem agrees_or_stopped {size k : Nat} {t : Transport σ} {o : Options σ} {s : σ}
    (h : g.WritingOrder size bs) (hd : g.DistinctIds) (ht : t.Historic n o s)
    (hk : o.RaisedIn t s (o.failurePolicy.due g (g.submit t o.unhindered bs s).calls) k)
    (hbs : earlier <+: bs) :
    let S := (g.submit t o.unhindered bs s).calls
    let p := g.submit t o earlier s
    let q := g.submit t o.unhindered earlier s
    (p.stopped = false ∧ Agrees p q ∧ q.calls.length ≤ min k (o.failurePolicy.quota g S)) ∨
      (p.stopped = true ∧ p.calls = S.take (min k (o.failurePolicy.quota g S))) := by
  intro S p q
  induction earlier using List.reverseRecOn with
  | nil => exact .inl ⟨rfl, ⟨rfl, rfl, rfl⟩, Nat.zero_le _⟩
  | append_singleton earlier b ih =>
    have hearlier := (List.prefix_append _ _).trans hbs
    have hS : q.calls <+: S := g.calls_prefix_submit t _ s hbs
    rw [show q = _ from g.submit_concat t o.unhindered s earlier b] at hS ⊢
    rw [show p = _ from g.submit_concat t o s earlier b]
    rcases ih hearlier with ⟨hrunning, hagree, hlength⟩ | ⟨hstopped, hcalls⟩
    · have hq : (g.submit t o.unhindered earlier s).stopped = false :=
        g.stopped_submit rfl (fun _ => rfl) t earlier s
      have hfailures := hadFailures_unhindered h hd t o s hearlier
      have hran := g.ran_submit t o earlier s
      have hran' := (g.ran_submit t o.unhindered earlier s).of_no_abort (o := o) rfl
      rw [← hagree.calls] at hran'
      have hdue : (g.submit t o earlier s).calls <+: o.failurePolicy.due g S := by
        rw [FailurePolicy.due_eq_take, List.prefix_take_iff, hagree.calls]
        exact ⟨g.calls_prefix_submit t _ s hearlier, by omega⟩
      exact agrees_or_stopped_step hagree hrunning hq hfailures hlength hS (hk _ _ hran hdue)
        (ht _ _ _ hran.look hran')
    · right
      rw [step_of_stopped _ _ _ _ hstopped]
      exact ⟨hstopped, hcalls⟩

/-- The calls of a run with an abort signal. -/
theorem calls_of_raisedIn {size k : Nat} {t : Transport σ} {o : Options σ} {s : σ}
    (h : g.WritingOrder size bs) (hd : g.DistinctIds) (ht : t.Historic n o s)
    (hk : o.RaisedIn t s (o.failurePolicy.due g (g.submit t o.unhindered bs s).calls) k) :
    (g.submit t o bs s).calls =
      (o.failurePolicy.due g (g.submit t o.unhindered bs s).calls).take k := by
  rw [FailurePolicy.due_eq_take, List.take_take]
  rcases agrees_or_stopped h hd ht hk (List.prefix_refl bs) with ⟨-, hagree, hlength⟩ | ⟨-, hcalls⟩
  · rw [hagree.calls, List.take_of_length_le hlength]
  · exact hcalls

/-- The calls of a run without one. -/
theorem calls_of_no_abort {size : Nat} {t : Transport σ} {o : Options σ} {s : σ}
    (h : g.WritingOrder size bs) (hd : g.DistinctIds) (ht : t.Historic n o s)
    (ho : o.abort = none) :
    (g.submit t o bs s).calls = o.failurePolicy.due g (g.submit t o.unhindered bs s).calls := by
  have hnever : o.RaisedIn t s (o.failurePolicy.due g (g.submit t o.unhindered bs s).calls)
      ((o.failurePolicy.due g (g.submit t o.unhindered bs s).calls).length + 1) := by
    intro cs s' _ hcs
    have hle := hcs.length_le
    rw [Options.look, ho, eq_comm, decide_eq_false_iff_not]
    omega
  rw [calls_of_raisedIn h hd ht hnever, List.take_of_length_le (Nat.le_succ _)]

/-! ### What a run that stops leaves behind -/

namespace Invariant

theorem ambiguous_iff (h : Invariant g bs p) (hall : ∀ i, i ∈ bs.flatMap Batch.positions)
    {i : Fin n} : p.table.get i = .ambiguous ↔
      ∃ k, p.Sent k i ∧ (k.outcome? g i).all SubmitOutcome.isAmbiguous = true := by
  constructor
  · intro hi
    have huncertain : (p.table.get i).isUncertain = true := by rw [hi]; rfl
    by_cases hsent : ∃ k, p.Sent k i
    · obtain ⟨k, hk⟩ := hsent
      exact ⟨k, hk, (h.isUncertain_of_sent hk).symm.trans huncertain⟩
    · rw [h.passed i (hall i) fun k hk hik => hsent ⟨k, hk, hik⟩] at hi
      contradiction
  · rintro ⟨k, hk, hopen⟩
    rw [h.sent k hk.1 i hk.2]
    cases hout : k.outcome? g i with
    | none => rfl
    | some o =>
      cases o <;> simp_all [answered, SubmitOutcome.disposition, SubmitOutcome.isAmbiguous]

/-- A node that was not sent is uncertain because of a node above it. -/
theorem isUncertain_unsent_iff (h : Invariant g bs p) (hall : ∀ i, i ∈ bs.flatMap Batch.positions)
    (hacyclic : ∀ i, ¬OnCycle g.parent i) {i : Fin n} (hi : ∀ k, ¬p.Sent k i) :
    (p.table.get i).isUncertain = true ↔
      ∃ a, Relation.TransGen (Up g.parent) i a ∧ p.table.get a = .ambiguous := by
  rw [h.isUncertain_iff hall hacyclic]
  constructor
  · rintro ⟨a, ha, k, hk, hopen⟩
    rcases Relation.reflTransGen_iff_eq_or_transGen.mp ha with rfl | ha
    · exact absurd hk (hi k)
    · exact ⟨a, ha, (h.ambiguous_iff hall).mpr ⟨k, hk, hopen⟩⟩
  · rintro ⟨a, ha, hambiguous⟩
    exact ⟨a, ha.to_reflTransGen, (h.ambiguous_iff hall).mp hambiguous⟩

end Invariant

/-- The run made some of the calls of the other one and has recorded the replies to them. Nodes are
created as they are there, and a node that was not sent is unknown below an ambiguous one. -/
structure CutShort (g : Graph n) (p full : Progress n σ) : Prop where
  created : (p.table.outcomes g).created ⊆ (full.table.outcomes g).created
  recorded : ∀ k ∈ p.calls, ∀ i ∈ k.batch.positions, p.table.get i = answered (k.outcome? g i)
  unsent : ∀ i, (∀ k ∈ p.calls, i ∉ k.batch.positions) →
    (g.node i ∈ (p.table.outcomes g).unknown ↔
      ∃ a, Relation.TransGen (Up g.parent) i a ∧ p.table.get a = .ambiguous) ∧
    (g.node i ∈ (p.table.outcomes g).failed ↔
      ¬∃ a, Relation.TransGen (Up g.parent) i a ∧ p.table.get a = .ambiguous)

theorem cutShort {full : Progress n σ} (h : Invariant g bs p) (hfull : Invariant g bs full)
    (hall : ∀ i, i ∈ bs.flatMap Batch.positions) (hacyclic : ∀ i, ¬OnCycle g.parent i)
    (hd : g.DistinctIds) (hcalls : p.calls <+: full.calls) : CutShort g p full where
  created := by
    rw [Table.outcomes_eq, Table.outcomes_eq]
    refine List.map_subset _ fun ⟨i, id⟩ hi => ?_
    obtain ⟨k, hk, hout⟩ := h.created_iff.mp (Table.mem_createdPositions.mp hi)
    exact Table.mem_createdPositions.mpr
      (hfull.created_iff.mpr ⟨k, ⟨hcalls.subset hk.1, hk.2⟩, hout⟩)
  recorded := h.sent
  unsent i hi := by
    have hnot : ∀ k, ¬p.Sent k i := fun k hk => hi k hk.1 hk.2
    have hinj : ∀ j, g.node j = g.node i ↔ j = i :=
      fun j => ⟨fun hj => hd j i (congrArg Node.xid hj), fun hj => hj ▸ rfl⟩
    have hcreated : (p.table.get i).isCreated = false := by
      rw [h.passed i (hall i) hi]
      rfl
    rw [← h.isUncertain_unsent_iff hall hacyclic hnot, Table.mem_unknown, Table.mem_failed]
    simp [hinj, hcreated]

end Progress

/-! ### The law -/

/-- How a run that stops early compares with the one that does not: it makes the first calls of it,
up to the first with a failure if the options say so, and up to the one in which the abort signal is
raised. -/
theorem submit_stops {ex : String → Bool} {nodes : List Node}
    (hv : ((Graph.ofList nodes).validate ex).isValid = true) (size : Nat) (t : Transport σ)
    (o : Options σ) (s : σ) (ht : t.Historic nodes.length o s) :
    let g := Graph.ofList nodes
    ∃ bs, g.plan size = .ok bs ∧
      let full := g.submit t { o with failurePolicy := .continueIndependent, abort := none } bs s
      let strict := g.submit t { o with failurePolicy := .stopAfterFailedBatch, abort := none } bs s
      let run := g.submit t o bs s
      (strict.calls = full.calls.take (full.calls.findIdx (Call.isIncomplete g) + 1) ∧
        Progress.CutShort g strict full) ∧
      ∀ k, o.RaisedIn t s (o.failurePolicy.due g full.calls) k →
        run.calls = (o.failurePolicy.due g full.calls).take k ∧ Progress.CutShort g run full := by
  intro g
  have hvalid : g.Valid ex := Graph.isValid_validate_iff.mp hv
  obtain ⟨bs, hbs⟩ := Graph.exists_plan hvalid.acyclic size
  have hplan := (Graph.rooted_ofList nodes).writingOrder hbs
  have hcut : ∀ o' : Options σ,
      (g.submit t o' bs s).calls <+: (g.submit t o.unhindered bs s).calls →
      Progress.CutShort g (g.submit t o' bs s) (g.submit t o.unhindered bs s) := fun o' =>
    Progress.cutShort (hplan.invariant hvalid.distinctIds t o' s)
      (hplan.invariant hvalid.distinctIds t o.unhindered s) (hplan.mem_positions hvalid.acyclic)
      hvalid.acyclic hvalid.distinctIds
  refine ⟨bs, hbs, ?_, fun k hk => ?_⟩
  · have hstrict : t.Historic nodes.length
        { o with failurePolicy := .stopAfterFailedBatch, abort := none } s :=
      fun cs s₁ s₂ h₁ h₂ => ht cs s₁ s₂ (h₁.of_no_abort rfl) (h₂.of_no_abort rfl)
    have hcalls := Progress.calls_of_no_abort hplan hvalid.distinctIds hstrict rfl
    exact ⟨hcalls, hcut _ (hcalls ▸ List.take_prefix _ _)⟩
  · have hcalls := Progress.calls_of_raisedIn hplan hvalid.distinctIds ht hk
    refine ⟨hcalls, hcut o ?_⟩
    rw [hcalls, FailurePolicy.due_eq_take, List.take_take]
    exact List.take_prefix _ _

/-! ### Scripts -/

/-- Where a look at the signal changes nothing, the calls decide the state. -/
theorem Progress.Ran.state_eq {t : Transport σ} {o : Options σ} {s s' : σ} {cs : List (Call n)}
    (h : Progress.Ran t o s cs s')
    (ho : ∀ signal, o.abort = some signal → ∀ s, (signal.poll s).2 = s) :
    s' = cs.foldl (fun s k => (t.submit k.batch s).2) s := by
  induction h with
  | start => rfl
  | looked _ hs ih => rw [ho _ hs, ih]
  | called _ b ih => rw [List.foldl_append, List.foldl_cons, List.foldl_nil, ← ih]

theorem Transport.historic_of_passive (n : Nat) (t : Transport σ) {o : Options σ} (s : σ)
    (ho : ∀ signal, o.abort = some signal → ∀ s, (signal.poll s).2 = s) : t.Historic n o s :=
  fun _ _ _ h₁ h₂ _ => by rw [h₁.state_eq ho, h₂.state_eq ho]

namespace TransportScript

variable {script : TransportScript} {o : Options TransportState}

theorem historic (n : Nat) (ho : o.abort = some TransportState.signal) (s : TransportState) :
    script.transport.Historic n o s :=
  script.transport.historic_of_passive n s fun signal hs s => by
    obtain rfl := Option.some.inj (ho.symm.trans hs)
    rfl

theorem state_of_ran {k : Nat} {s' : TransportState} {cs : List (Call n)}
    (hk : script.abortAfter = some k) (ho : o.abort = some TransportState.signal)
    (h : Progress.Ran script.transport o script.start cs s') :
    s'.calls = cs.length ∧ s'.aborted = decide (k ≤ cs.length) := by
  induction h with
  | start => simp [start, hk]
  | looked _ hs ih =>
    obtain rfl := Option.some.inj (ho.symm.trans hs)
    exact ih
  | @called cs s' _ b ih =>
    obtain ⟨hcalls, haborted⟩ := ih
    simp [transport, submit, hcalls, haborted, hk, Nat.le_succ_iff]

/-- The signal of a script is raised in the call that the script says. -/
theorem raisedIn {k : Nat} (hk : script.abortAfter = some k)
    (ho : o.abort = some TransportState.signal) (due : List (Call n)) :
    o.RaisedIn script.transport script.start due k := by
  intro cs s' h _
  rw [Options.look, ho]
  exact (state_of_ran hk ho h).2

end TransportScript

/-- A root, two nodes below it, and a node below the first of these, for which no reply comes in
time. The signal is raised during that call: it is the last one, and the node below is unknown. -/
theorem submit_stops_timeout :
    let g := Graph.ofList [.named "site" "Site", (Node.named "pump" "Pump").withParent "site",
      (Node.named "valve" "Valve").withParent "site",
      (Node.named "motor" "Motor").withParent "pump"]
    let script : TransportScript := { outcomes := [("pump", .timeout)], abortAfter := some 2 }
    let o : Options TransportState := { abort := some TransportState.signal }
    ∃ bs, g.plan 1 = .ok bs ∧
      let full := g.submit script.transport {} bs script.start
      let run := g.submit script.transport o bs script.start
      full.calls.map (fun k => k.batch.externalIds) = [["site"], ["pump"], ["valve"]] ∧
        run.calls = full.calls.take 2 ∧ g.node 3 ∈ (run.table.outcomes g).unknown := by
  intro g script o
  have hvalid : (g.validate fun _ => false).isValid = true := by decide +kernel
  obtain ⟨bs, hbs, -, hlaw⟩ := submit_stops hvalid 1 script.transport o script.start
    (TransportScript.historic _ rfl _)
  obtain ⟨hcalls, hcut⟩ := hlaw 2 (TransportScript.raisedIn rfl rfl _)
  have hplan : bs = (g.plan 1).toOption.getD [] := by rw [hbs]; rfl
  have hunsent : ∀ k ∈ (g.submit script.transport o bs script.start).calls,
      3 ∉ k.batch.positions := by
    rw [hplan]
    decide +kernel
  have hambiguous : (g.submit script.transport o bs script.start).table.get 1 = .ambiguous := by
    rw [hplan]
    decide +kernel
  have hparent : g.parent 3 = some 1 := by decide +kernel
  refine ⟨bs, hbs, ?_, hcalls, (hcut.unsent 3 hunsent).1.mpr ⟨1, .single hparent, hambiguous⟩⟩
  rw [hplan]
  decide +kernel

end AssetHierarchy
