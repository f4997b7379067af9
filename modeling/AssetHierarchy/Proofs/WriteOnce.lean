import AssetHierarchy.Proofs.FinalAccounting
import AssetHierarchy.Proofs.Stepping

/-! Runs over any list of batches, in any order, with repetitions and with gaps. Nothing is known of
where the parents are, so what carries these runs is the table alone: only a pending position is
ever settled, and only by a batch that holds it. -/
namespace AssetHierarchy

variable {n : Nat} {σ : Type} {g : Graph n}

/-! ### Tables -/

namespace Table

variable {is js : List (Fin n)} {t u v : Table n}

/-- The second table differs from the first at pending ones of the given positions only. -/
def Settles (is : List (Fin n)) (t u : Table n) : Prop :=
  ∀ i, u.get i ≠ t.get i → t.get i = .pending ∧ i ∈ is

namespace Settles

theorem refl (is : List (Fin n)) (t : Table n) : Settles is t t := fun _ h => absurd rfl h

theorem trans (h : Settles is t u) (h' : Settles is u v) : Settles is t v := by
  intro i hi
  by_cases hu : u.get i = t.get i
  · rw [← hu] at hi ⊢
    exact h' i hi
  · exact h i hu

theorem mono (h : Settles is t u) (hsub : is ⊆ js) : Settles js t u :=
  fun i hi => ⟨(h i hi).1, hsub (h i hi).2⟩

theorem get_eq (h : Settles is t u) {i : Fin n} (hi : t.get i ≠ .pending) :
    u.get i = t.get i := by
  by_contra hne
  exact hi (h i hne).1

theorem get_eq_of_notMem (h : Settles is t u) {i : Fin n} (hi : i ∉ is) : u.get i = t.get i := by
  by_contra hne
  exact hi (h i hne).2

theorem isReady (h : Settles is t u) {i : Fin n} (hi : t.isReady g i = true) :
    u.isReady g i = true := by
  rw [← hi]
  refine isReady_congr fun p hp => h.get_eq fun hpending => ?_
  simp [Table.isReady, hp, hpending, Disposition.isCreated] at hi

/-- A loop settles what its steps settle. -/
theorem foldl {α β : Type} (table : α → Table n) {f : α → β → α} {l : List β}
    (h : ∀ a, ∀ b ∈ l, Settles is (table a) (table (f a b))) (a : α) :
    Settles is (table a) (table (l.foldl f a)) := by
  induction l generalizing a with
  | nil => exact refl is _
  | cons b rest ih =>
    have hb := h a b List.mem_cons_self
    exact hb.trans (ih (fun a c hc => h a c (List.mem_cons_of_mem b hc)) (f a b))

end Settles

theorem settles_record (t : Table n) (i : Fin n) (d : Disposition) :
    Settles [i] t (t.record i d) := by
  intro j hj
  rw [get_record] at hj
  by_cases hij : i = j ∧ t.get j = .pending
  · exact ⟨hij.2, by simp [hij.1]⟩
  · exact absurd (if_neg hij) hj

theorem settles_skip (g : Graph n) (t : Table n) (i : Fin n) : Settles [i] t (t.skip g i) :=
  t.settles_record i _

end Table

namespace Batch

theorem settles_applyOutcome (b : Batch n) (s : Table n × Tally) (x : String)
    (o : SubmitOutcome) : Table.Settles b.positions s.1 (b.applyOutcome s x o).1 := by
  intro i hi
  rw [fst_applyOutcome] at hi
  by_cases hx : b.position? x = some i ∧ s.1.get i = .pending
  · exact ⟨hx.2, mem_positions_of_position? hx.1⟩
  · exact absurd (if_neg hx) hi

theorem settles_sweepMissing (s : Table n × Tally) (i : Fin n) :
    Table.Settles [i] s.1 (sweepMissing s i).1 := by
  intro j hj
  rw [fst_sweepMissing] at hj
  by_cases hij : i = j ∧ s.1.get j = .pending
  · exact ⟨hij.2, by simp [hij.1]⟩
  · exact absurd (if_neg hij) hj

theorem settles_applyReply (b : Batch n) (t : Table n) (reply : Reply) :
    Table.Settles b.positions t (b.applyReply t reply).1 := by
  intro i hi
  constructor
  · by_contra hne
    exact hi (get_applyReply_of_ne_pending t reply hne)
  · by_contra hnot
    exact hi (get_applyReply_of_notMem t reply hnot)

/-! ### Splitting, one entry after the other -/

theorem settles_split (g : Graph n) (t : Table n) (es : List (Entry n)) :
    Table.Settles (es.map Entry.position) t (split g t es).2 := by
  induction es generalizing t with
  | nil => exact .refl _ t
  | cons e rest ih =>
    have hrest : ∀ u : Table n, Table.Settles ((e :: rest).map Entry.position) u
        (split g u rest).2 := fun u => (ih u).mono (List.subset_cons_self _ _)
    rw [split]
    split
    · exact hrest t
    · exact ((t.settles_skip g e.position).mono (by simp)).trans (hrest _)

theorem fst_split_sublist (g : Graph n) (t : Table n) (es : List (Entry n)) :
    (split g t es).1.Sublist es := by
  induction es generalizing t with
  | nil => exact .slnil
  | cons e rest ih =>
    rw [split]
    split
    · exact (ih t).cons_cons e
    · exact (ih _).cons e

/-- What is found ready is so still when the whole batch has been looked through. -/
theorem isReady_of_mem_split {t : Table n} {es : List (Entry n)} {e : Entry n}
    (he : e ∈ (split g t es).1) : (split g t es).2.isReady g e.position = true := by
  induction es generalizing t with
  | nil => simp [split] at he
  | cons e' rest ih =>
    rw [split] at he ⊢
    split at he
    · next hready =>
      rw [if_pos hready]
      rcases List.mem_cons.mp he with rfl | he
      · exact (settles_split g t rest).isReady hready
      · exact ih he
    · next hready =>
      rw [if_neg hready]
      exact ih he

end Batch

/-! ### Runs -/

namespace Progress

theorem settles_skipBatch (g : Graph n) (p : Progress n σ) (b : Batch n) :
    Table.Settles b.positions p.table (p.skipBatch g b).table :=
  Table.Settles.foldl id (fun t i hi => (t.settles_skip g i).mono (by simpa using hi)) p.table

theorem settles_sendBatch (t : Transport σ) (g : Graph n) (p : Progress n σ) (b : Batch n) :
    Table.Settles b.positions p.table (p.sendBatch t g b).table := by
  have hsplit := Batch.settles_split g p.table b.entries
  rcases sendBatch_cases t g p b with ⟨-, hp⟩ | ⟨k, hk, -, hp⟩
  · rw [hp]
    exact hsplit
  · rw [hp, hk]
    refine hsplit.trans ((Batch.settles_applyReply _ _ _).mono ?_)
    exact ((Batch.fst_split_sublist g p.table b.entries).map Entry.position).subset

theorem settles_step (t : Transport σ) (o : Options σ) (g : Graph n) (p : Progress n σ)
    (b : Batch n) : Table.Settles b.positions p.table (p.step t o g b).table := by
  rw [step_eq, ← table_checkStop o p]
  split
  · exact settles_skipBatch g _ b
  · exact settles_sendBatch t g _ b

theorem settles_foldl (t : Transport σ) (o : Options σ) (g : Graph n) (bs : List (Batch n))
    (p : Progress n σ) :
    Table.Settles (bs.flatMap Batch.positions) p.table (bs.foldl (step t o g) p).table := by
  refine Table.Settles.foldl table (fun p b hb => (settles_step t o g p b).mono fun i hi => ?_) p
  exact List.mem_flatMap.mpr ⟨b, hb, hi⟩

end Progress

namespace Graph

variable (t : Transport σ) (o : Options σ) (s : σ)

/-- Each call was made over one of the batches, after the calls that stand before it. -/
theorem exists_batch_of_call (g : Graph n) {bs : List (Batch n)} {m : Nat} {k : Call n}
    (hk : (g.submit t o bs s).calls[m]? = some k) :
    ∃ earlier b later, bs = earlier ++ b :: later ∧
      (g.submit t o earlier s).calls = (g.submit t o bs s).calls.take m ∧
      k.batch =
        { b with entries := (Batch.split g (g.submit t o earlier s).table b.entries).1 } := by
  induction bs using List.reverseRecOn with
  | nil => simp [submit, Progress.start] at hk
  | append_singleton bs b ih =>
    have hbefore : (g.submit t o bs s).calls[m]? = some k →
        ∀ cs, (g.submit t o (bs ++ [b]) s).calls = (g.submit t o bs s).calls ++ cs →
        ∃ earlier c later, bs ++ [b] = earlier ++ c :: later ∧
          (g.submit t o earlier s).calls = (g.submit t o (bs ++ [b]) s).calls.take m ∧
          k.batch = { c with
            entries := (Batch.split g (g.submit t o earlier s).table c.entries).1 } := by
      intro hm cs hcs
      obtain ⟨earlier, c, later, hbs, hcalls, hbatch⟩ := ih hm
      have hlt := (List.getElem?_eq_some_iff.mp hm).1
      refine ⟨earlier, c, later ++ [b], by simp [hbs], ?_, hbatch⟩
      rw [hcs, List.take_append_of_le_length hlt.le, hcalls]
    rcases Progress.calls_step t o g (g.submit t o bs s) b with hcalls | ⟨k', hcalls, hbatch⟩
    · rw [← submit_concat] at hcalls
      exact hbefore (hcalls ▸ hk) [] (by rw [hcalls, List.append_nil])
    · rw [← submit_concat] at hcalls
      rw [hcalls] at hk
      rcases getElem?_concat hk with hm | ⟨rfl, rfl⟩
      · exact hbefore hm [k'] hcalls
      · exact ⟨bs, b, [], rfl, by rw [hcalls, List.take_left], hbatch⟩

end Graph

theorem Table.isReady_eq_true_iff {t : Table n} {i : Fin n} :
    t.isReady g i = true ↔ ∀ p, g.parent i = some p → ∃ id, t.get p = .created id := by
  unfold isReady
  cases g.parent i <;> simp [Disposition.isCreated_iff]

/-- A node that no batch holds is not written, and counts as failed. -/
theorem Graph.mem_failedPositions_submit (g : Graph n) (t : Transport σ) (o : Options σ)
    {bs : List (Batch n)} (s : σ) {i : Fin n} (hi : i ∉ bs.flatMap Batch.positions) :
    i ∈ (g.submit t o bs s).table.failedPositions := by
  have hget := (Progress.settles_foldl t o g bs (.start n s)).get_eq_of_notMem hi
  have hpending : (g.submit t o bs s).table.get i = .pending :=
    hget.trans (by simp [Progress.start, Table.start, Vector.get])
  simp [Table.failedPositions, hpending, Disposition.isCreated, Disposition.isUncertain]

/-- What holds of a run over any batches, whatever their order and however often they come. -/
theorem submit_any_batches (g : Graph n) (t : Transport σ) (o : Options σ) (bs : List (Batch n))
    (s : σ) :
    let p := g.submit t o bs s
    (∀ (m : Nat) (k : Call n), p.calls[m]? = some k → ∃ earlier b later,
      bs = earlier ++ b :: later ∧ (g.submit t o earlier s).calls = p.calls.take m ∧
      let (ready, table) := Batch.split g (g.submit t o earlier s).table b.entries
      k.batch = { b with entries := ready } ∧
        ∀ i ∈ k.batch.positions, ∀ q, g.parent i = some q → ∃ id, table.get q = .created id) ∧
    (∀ (u : Table n) (i : Fin n), u.get i ≠ .pending →
      (∀ j, (u.skip g j).get i = u.get i) ∧
      (∀ es, (Batch.split g u es).2.get i = u.get i) ∧
      ∀ (b : Batch n) (c : Tally),
        (∀ x outcome, (b.applyOutcome (u, c) x outcome).1.get i = u.get i) ∧
        (∀ j, (Batch.sweepMissing (u, c) j).1.get i = u.get i) ∧
        ∀ reply, (b.applyReply u reply).1.get i = u.get i) ∧
    (∀ earlier later, bs = earlier ++ later → ∀ i,
      (g.submit t o earlier s).table.get i ≠ .pending →
        p.table.get i = (g.submit t o earlier s).table.get i) ∧
    p.table.outcomes g =
      { created := p.table.createdPositions.map fun (i, id) => ⟨(g.node i).xid, id⟩
        unknown := p.table.unknownPositions.map g.node
        failed := p.table.failedPositions.map g.node } ∧
    (p.table.createdPositions.map Prod.fst).Pairwise (· < ·) ∧
    p.table.unknownPositions.Pairwise (· < ·) ∧ p.table.failedPositions.Pairwise (· < ·) ∧
    (p.table.createdPositions.map Prod.fst ++ p.table.unknownPositions ++
      p.table.failedPositions).Perm (List.finRange n) ∧
    ∀ i, i ∉ bs.flatMap Batch.positions → i ∈ p.table.failedPositions := by
  intro p
  have hsorted := (List.sortedLT_finRange n).pairwise
  refine ⟨?_, ?_, ?_, p.table.outcomes_eq g, ?_, hsorted.filter _, hsorted.filter _,
    p.table.perm_positions, fun i hi => g.mem_failedPositions_submit t o s hi⟩
  · intro m k hk
    obtain ⟨earlier, b, later, hbs, hcalls, hbatch⟩ := g.exists_batch_of_call t o s hk
    refine ⟨earlier, b, later, hbs, hcalls, hbatch, ?_⟩
    rw [hbatch]
    intro i hi
    obtain ⟨e, he, rfl⟩ := List.mem_map.mp hi
    exact Table.isReady_eq_true_iff.mp (Batch.isReady_of_mem_split he)
  · intro u i hi
    exact ⟨fun j => (u.settles_skip g j).get_eq hi,
      fun es => (Batch.settles_split g u es).get_eq hi,
      fun b c => ⟨fun x outcome => (b.settles_applyOutcome (u, c) x outcome).get_eq hi,
        fun j => (Batch.settles_sweepMissing (u, c) j).get_eq hi,
        fun reply => (b.settles_applyReply u reply).get_eq hi⟩⟩
  · rintro earlier later hbs i hi
    rw [show p = _ from congrArg (g.submit t o · s) hbs, g.submit_append]
    exact (Progress.settles_foldl t o g later _).get_eq hi
  · rw [Table.map_fst_createdPositions]
    exact hsorted.filter _

end AssetHierarchy
