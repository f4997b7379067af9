import AssetHierarchy.Proofs.WriteOnce

/-! What becomes of each node, where the service answers every node on its own. Batches and tables
play no part in it: a node goes the way of its parent unless that is created, and then the answer
for the node decides. A run that does not stop ends in this for every node, because a batch looks at
the parents of its nodes only, and these were settled before. -/
namespace AssetHierarchy

/-! ### The recursion -/

/-- What a node comes to. -/
inductive Fate where
  | created (id : UInt64)
  | unknown
  | failed
deriving DecidableEq

/-- What an answer makes of a node that was sent. -/
def Fate.ofAnswer : Option SubmitOutcome → Fate
  | some (.success id) => created id
  | some (.serverError _ _) | some .timeout | some (.interrupted _) | none => unknown
  | some (.clientError _ _) | some (.notSent _) => failed

/-- The id of a node that is created. -/
def Fate.id? : Fate → Option UInt64
  | created id => some id
  | _ => none

namespace Graph

variable {n : Nat} (g : Graph n)

/-- What becomes of a node, given the answers by external id. -/
def fate (h : ∀ i, ¬OnCycle g.parent i) (f : String → Option SubmitOutcome) (i : Fin n) : Fate :=
  match _ : g.parent i with
  | none => .ofAnswer (f (g.node i).xid)
  | some p =>
    match fate h f p with
    | .created _ => .ofAnswer (f (g.node i).xid)
    | .unknown => .unknown
    | .failed => .failed
termination_by (wellFounded_up h).wrap i
decreasing_by assumption

variable {g} {h : ∀ i, ¬OnCycle g.parent i} {f : String → Option SubmitOutcome}

theorem fate_of_root {i : Fin n} (hi : g.parent i = none) :
    g.fate h f i = .ofAnswer (f (g.node i).xid) := by
  rw [fate]
  split <;> simp_all

theorem fate_of_parent {i p : Fin n} (hi : g.parent i = some p) :
    g.fate h f i =
      match g.fate h f p with
      | .created _ => .ofAnswer (f (g.node i).xid)
      | .unknown => .unknown
      | .failed => .failed := by
  rw [fate]
  split
  · simp_all
  · next q hq =>
    obtain rfl := Option.some.inj (hi.symm.trans hq)
    rfl

/-- The lists of an outcome, by what becomes of each node. -/
def outcomesBy (g : Graph n) (fate : Fin n → Fate) : OutcomeSet where
  created := g.positions.filterMap fun i => (fate i).id?.map fun id => ⟨(g.node i).xid, id⟩
  unknown := g.nodesWhere fun i => fate i = .unknown
  failed := g.nodesWhere fun i => fate i = .failed

end Graph

namespace Disposition

/-- What a disposition counts as in the end. A node that is still pending was not written. -/
def fate (d : Disposition) : Fate :=
  match d with
  | created id => .created id
  | _ => if d.isUncertain then .unknown else .failed

theorem fate_answered (x : Option SubmitOutcome) : (answered x).fate = .ofAnswer x := by
  rcases x with _ | x
  · rfl
  · cases x <;> rfl

/-- A node is sent below one that is created, and otherwise passed over. -/
theorem fate_below (d : Disposition) (x : Option SubmitOutcome) :
    (if d.isCreated then answered x else .skipped d.isUncertain).fate =
      match d.fate with
      | .created _ => .ofAnswer x
      | .unknown => .unknown
      | .failed => .failed := by
  cases d with
  | created => exact fate_answered x
  | skipped below => cases below <;> rfl
  | pending | ambiguous | rejected => rfl

theorem fate_eq_unknown_iff {d : Disposition} : d.fate = .unknown ↔ d.isUncertain = true := by
  rcases d with _ | _ | _ | _ | (_ | _) <;> simp [fate, isUncertain]

theorem fate_eq_failed_iff {d : Disposition} :
    d.fate = .failed ↔ (!d.isCreated && !d.isUncertain) = true := by
  rcases d with _ | _ | _ | _ | (_ | _) <;> simp [fate, isCreated, isUncertain]

end Disposition

theorem Table.outcomes_eq_outcomesBy {n : Nat} (g : Graph n) (t : Table n) :
    t.outcomes g = g.outcomesBy fun i => (t.get i).fate := by
  simp only [outcomes, Graph.outcomesBy, Disposition.fate_eq_unknown_iff,
    Disposition.fate_eq_failed_iff, Bool.decide_eq_true]
  congr 2
  funext i
  rcases t.get i with _ | _ | _ | _ | (_ | _) <;> rfl

/-! ### Services that answer every node on its own -/

variable {n : Nat} {σ : Type} {g : Graph n}

/-- The reply to a batch holds, in any order, the answers to its nodes, where there are any. -/
def Transport.Answers (t : Transport σ) (f : String → Option SubmitOutcome) : Prop :=
  ∀ {n : Nat} (b : Batch n) (s : σ),
    (t.submit b s).1.Perm (b.externalIds.filterMap fun x => (f x).map fun outcome => (x, outcome))

theorem lookup_eq_of_answers {f : String → Option SubmitOutcome} {xs : List String}
    {reply : Reply}
    (h : reply.Perm (xs.filterMap fun x => (f x).map fun outcome => (x, outcome))) {x : String}
    (hx : x ∈ xs) : reply.lookup x = f x := by
  have hmem : ∀ y outcome, (y, outcome) ∈ reply ↔ y ∈ xs ∧ f y = some outcome := by
    intro y outcome
    rw [h.mem_iff, List.mem_filterMap]
    constructor
    · rintro ⟨z, hz, hzy⟩
      obtain ⟨_, hout, heq⟩ := Option.map_eq_some_iff.mp hzy
      obtain ⟨rfl, rfl⟩ := Prod.mk.inj heq
      exact ⟨hz, hout⟩
    · rintro ⟨hy, hout⟩
      exact ⟨y, hy, by rw [hout]; rfl⟩
  cases hlook : reply.lookup x with
  | none =>
    cases hf : f x with
    | none => rfl
    | some outcome =>
      have hne := List.lookup_eq_none_iff.mp hlook _ ((hmem x outcome).mpr ⟨hx, hf⟩)
      simp at hne
  | some outcome =>
    obtain ⟨l₁, l₂, rfl, -⟩ := List.lookup_eq_some_iff.mp hlook
    exact ((hmem x outcome).mp (by simp)).2.symm

namespace Progress

variable {p : Progress n σ} {b : Batch n} {earlier bs : List (Batch n)}
  {f : String → Option SubmitOutcome}

/-- Sending a batch to a service that answers every node on its own. -/
theorem get_sendBatch {t : Transport σ} (ht : t.Answers f) (hd : g.DistinctIds)
    (hb : Continues g earlier b) (hpending : ∀ i ∈ b.positions, p.table.get i = .pending)
    (i : Fin n) :
    (p.sendBatch t g b).table.get i =
      if i ∈ b.positions then
        if p.table.isReady g i then answered (f (g.node i).xid)
        else .skipped (p.table.isBelowUncertain g i)
      else p.table.get i := by
  by_cases hi : i ∈ b.positions
  · rw [if_pos hi]
    have hsplit := Batch.get_split hb.parent_notMem hi (hpending i hi)
    have hbatch := Batch.with_split_eq_ready hb.parent_notMem p.table
    cases hready : p.table.isReady g i with
    | true =>
      have hmem : i ∈ (b.ready g p.table).positions := Batch.mem_positions_ready.mpr ⟨hi, hready⟩
      rcases sendBatch_cases t g p b with ⟨hnone, -⟩ | ⟨k, hk, hreply, hsend⟩
      · rw [← hbatch, hnone] at hmem
        contradiction
      · rw [hready, if_pos rfl] at hsplit
        have hentries := Batch.entries_ready hb.entries_eq p.table
        have hid : (g.node i).xid ∈ (b.ready g p.table).externalIds := by
          rw [Batch.externalIds_eq hentries]
          exact List.mem_map_of_mem hmem
        rw [hsend, Batch.get_applyReply_of_mem _ _ (by rwa [hk, hbatch]) hsplit, hreply, hk, hbatch,
          Batch.outcomeFor?_eq_lookup (hd.batch _) hentries _ hmem,
          lookup_eq_of_answers (ht (b.ready g p.table) p.state) hid, if_pos rfl]
    | false =>
      rw [hready, if_neg Bool.false_ne_true] at hsplit
      rw [if_neg Bool.false_ne_true]
      rcases sendBatch_cases t g p b with ⟨-, hsend⟩ | ⟨k, -, -, hsend⟩
      · rw [hsend]
        exact hsplit
      · rw [hsend]
        exact (Batch.get_applyReply_of_ne_pending _ _ (by simp [hsplit])).trans hsplit
  · rw [if_neg hi]
    exact (settles_sendBatch t g p b).get_eq_of_notMem hi

/-- One batch: what becomes of its nodes follows from what became of their parents. -/
theorem fate_sendBatch {t : Transport σ} (ht : t.Answers f) (hd : g.DistinctIds)
    (hacyclic : ∀ i, ¬OnCycle g.parent i) (hb : Continues g earlier b)
    (hpending : ∀ i ∈ b.positions, p.table.get i = .pending)
    (hfate : ∀ i ∈ earlier.flatMap Batch.positions, (p.table.get i).fate = g.fate hacyclic f i)
    {i : Fin n} (hi : i ∈ (earlier ++ [b]).flatMap Batch.positions) :
    ((p.sendBatch t g b).table.get i).fate = g.fate hacyclic f i := by
  rw [get_sendBatch ht hd hb hpending]
  rcases mem_positions_concat.mp hi with hi | hi
  · rw [if_neg fun hib => hb.fresh i hib hi, hfate i hi]
  · rw [if_pos hi, Table.isReady, Table.isBelowUncertain]
    cases hq : g.parent i with
    | none => exact (Disposition.fate_answered _).trans (Graph.fate_of_root hq).symm
    | some q =>
      rw [Graph.fate_of_parent hq, ← hfate q (hb.parents i hi q hq)]
      exact Disposition.fate_below (p.table.get q) _

end Progress

/-- A service that answers every node on its own, and options that give no reason to stop. -/
structure Steady (t : Transport σ) (o : Options σ) (f : String → Option SubmitOutcome) : Prop where
  answers : t.Answers f
  policy : o.failurePolicy = .continueIndependent
  quiet : ∀ s, (o.look s).1 = false

namespace Graph

variable {t : Transport σ} {o : Options σ} {f : String → Option SubmitOutcome}

/-- By induction over the batches: each looks at the parents of its nodes, which come before. -/
theorem WritingOrder.fate_upTo {size : Nat} {bs earlier : List (Batch n)}
    (h : g.WritingOrder size bs) (hd : g.DistinctIds) (hacyclic : ∀ i, ¬OnCycle g.parent i)
    (hsteady : Steady t o f) (s : σ) (hbs : earlier <+: bs) {i : Fin n}
    (hi : i ∈ earlier.flatMap Batch.positions) :
    ((g.submit t o earlier s).table.get i).fate = g.fate hacyclic f i := by
  induction earlier using List.reverseRecOn generalizing i with
  | nil => simp at hi
  | append_singleton earlier b ih =>
    have hearlier := (List.prefix_append _ _).trans hbs
    have hb := h.continues hbs
    have hpending : ∀ i ∈ b.positions, (g.submit t o earlier s).table.get i = .pending :=
      fun i hi => ((h.invariant_upTo t o s hd hearlier).pending_iff i).mpr (hb.fresh i hi)
    rw [g.submit_concat_eq_sendBatch hsteady.policy hsteady.quiet]
    exact Progress.fate_sendBatch (p := (g.submit t o earlier s).looked o) hsteady.answers hd
      hacyclic hb hpending (fun j hj => ih hearlier hj) hi

/-- Every node ends as the recursion says. -/
theorem WritingOrder.fate_eq {size : Nat} {bs : List (Batch n)} (h : g.WritingOrder size bs)
    (hd : g.DistinctIds) (hacyclic : ∀ i, ¬OnCycle g.parent i) (hsteady : Steady t o f) (s : σ)
    (i : Fin n) : ((g.submit t o bs s).table.get i).fate = g.fate hacyclic f i :=
  h.fate_upTo hd hacyclic hsteady s (List.prefix_refl bs) (h.mem_positions hacyclic i)

end Graph

end AssetHierarchy
