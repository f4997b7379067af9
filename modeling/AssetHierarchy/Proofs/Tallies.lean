import AssetHierarchy.Proofs.Settlement
import Mathlib.Algebra.BigOperators.Group.Finset.Basic
import Mathlib.Algebra.Order.BigOperators.Group.Finset
import Mathlib.Data.Fintype.BigOperators

/-! How a batch came out. Tallies add up, and that of a reply is the sum of one mark for each node
that the reply settles. So it depends on the first outcome of every node only, and it shows a
failure exactly when some node was not created. -/
namespace AssetHierarchy

namespace Tally

/-! ### Sums -/

instance : Zero Tally := ⟨{}⟩

instance : Add Tally where
  add a b := ⟨a.created + b.created, a.ambiguous + b.ambiguous, a.rejected + b.rejected,
    a.missing + b.missing⟩

theorem zero_def : (0 : Tally) = ⟨0, 0, 0, 0⟩ := rfl

theorem add_def (a b : Tally) : a + b = ⟨a.created + b.created, a.ambiguous + b.ambiguous,
    a.rejected + b.rejected, a.missing + b.missing⟩ := rfl

instance : AddCommMonoid Tally where
  add_assoc a b c := by simp [add_def, Nat.add_assoc]
  zero_add a := by simp [add_def, zero_def]
  add_zero a := by simp [add_def, zero_def]
  add_comm a b := by simp [add_def, Nat.add_comm]
  nsmul := nsmulRec

/-- The nodes that were not created. -/
def failures : Tally →+ Nat where
  toFun t := t.ambiguous + t.rejected + t.missing
  map_zero' := rfl
  map_add' a b := by simp only [add_def]; omega

theorem failures_apply (t : Tally) : t.failures = t.ambiguous + t.rejected + t.missing := rfl

theorem hasFailures_iff (t : Tally) : t.hasFailures = true ↔ t.failures ≠ 0 := by
  rw [hasFailures, decide_eq_true_iff, failures_apply, Nat.pos_iff_ne_zero]

/-- All nodes that are counted. -/
def total : Tally →+ Nat where
  toFun t := t.created + t.ambiguous + t.rejected + t.missing
  map_zero' := rfl
  map_add' a b := by simp only [add_def]; omega

theorem total_apply (t : Tally) :
    t.total = t.created + t.ambiguous + t.rejected + t.missing := rfl

/-- What one node adds to the tally of its batch. -/
def mark : Option SubmitOutcome → Tally
  | some o => count 0 o.disposition
  | none => { missing := 1 }

theorem count_disposition (t : Tally) (o : SubmitOutcome) :
    t.count o.disposition = t + mark (some o) := by
  cases o <;> rfl

theorem total_mark (o : Option SubmitOutcome) : (mark o).total = 1 := by
  rcases o with _ | o
  · rfl
  · cases o <;> rfl

theorem failures_mark (o : Option SubmitOutcome) :
    (mark o).failures = if (answered o).isCreated then 0 else 1 := by
  rcases o with _ | o
  · rfl
  · cases o <;> rfl

end Tally

namespace Batch

variable {n : Nat}

/-! ### Replies -/

/-- What the outcomes of a reply add, the nodes that they leave out not counted. -/
def marked (b : Batch n) (t : Table n) (reply : Reply) (i : Fin n) : Tally :=
  if t.get i = .pending then ((b.outcomeFor? reply i).map fun o => Tally.mark (some o)).getD 0
  else 0

theorem snd_applyOutcome (b : Batch n) (s : Table n × Tally) (r : String × SubmitOutcome)
    (rest : Reply) :
    (b.applyOutcome s r.1 r.2).2 + ∑ i, b.marked (b.applyOutcome s r.1 r.2).1 rest i =
      s.2 + ∑ i, b.marked s.1 (r :: rest) i := by
  unfold applyOutcome
  cases hx : b.position? r.1 with
  | none =>
    -- a foreign entry
    have hsame : ∀ i, b.marked s.1 (r :: rest) i = b.marked s.1 rest i := by
      intro i
      simp [marked, outcomeFor?_cons, hx]
    simp only [hsame]
  | some j =>
    dsimp only
    split
    · next hj =>
      have hsplit : ∀ i, b.marked s.1 (r :: rest) i =
          (if i = j then Tally.mark (some r.2) else 0) +
            b.marked (s.1.record j r.2.disposition) rest i := by
        intro i
        by_cases hij : i = j
        · subst hij
          simp [marked, outcomeFor?_cons, hx, hj, Table.get_record,
            r.2.disposition_ne_pending]
        · simp [marked, outcomeFor?_cons, hx, hij, Ne.symm hij, Table.get_record]
      simp only [hsplit, Finset.sum_add_distrib, Finset.sum_ite_eq', Finset.mem_univ, if_true,
        Tally.count_disposition, add_assoc]
    · next hj =>
      -- a repeated entry
      have hsame : ∀ i, b.marked s.1 (r :: rest) i = b.marked s.1 rest i := by
        intro i
        by_cases hij : i = j
        · simp [marked, hij, hj]
        · simp [marked, outcomeFor?_cons, hx, Ne.symm hij]
      simp only [hsame]

theorem snd_foldl_applyOutcome (b : Batch n) (reply : Reply) (s : Table n × Tally) :
    (reply.foldl (fun s (x, o) => b.applyOutcome s x o) s).2 =
      s.2 + ∑ i, b.marked s.1 reply i := by
  induction reply generalizing s with
  | nil =>
    have hnone : ∀ i, b.marked s.1 [] i = 0 := fun i => by simp [marked, outcomeFor?]
    simp [hnone]
  | cons r rest ih => rw [List.foldl_cons, ih, snd_applyOutcome]

theorem snd_foldl_sweepMissing (is : List (Fin n)) (s : Table n × Tally) :
    (is.foldl sweepMissing s).2 =
      s.2 + ∑ i, if s.1.get i = .pending ∧ i ∈ is then Tally.mark none else 0 := by
  induction is generalizing s with
  | nil => simp
  | cons j rest ih =>
    rw [List.foldl_cons, ih]
    by_cases hj : s.1.get j = .pending
    · have hsplit : ∀ i, (if s.1.get i = .pending ∧ i ∈ j :: rest then Tally.mark none else 0) =
          (if i = j then Tally.mark none else 0) +
            if (sweepMissing s j).1.get i = .pending ∧ i ∈ rest then Tally.mark none else 0 := by
        intro i
        by_cases hij : i = j
        · subst hij
          simp [fst_sweepMissing, hj]
        · simp [fst_sweepMissing, hij, Ne.symm hij]
      have hcount : (sweepMissing s j).2 = s.2 + Tally.mark none := by
        simp [sweepMissing, hj, Tally.mark, Tally.add_def]
      simp only [hsplit, Finset.sum_add_distrib, Finset.sum_ite_eq', Finset.mem_univ, if_true,
        hcount, add_assoc]
    · have hsame : sweepMissing s j = s := if_neg hj
      have hskip : ∀ i, (s.1.get i = .pending ∧ i ∈ j :: rest) ↔
          (s.1.get i = .pending ∧ i ∈ rest) := by
        intro i
        by_cases hij : i = j
        · simp [hij, hj]
        · simp [hij]
      simp only [hsame, hskip]

/-- The tally of a reply: a mark for each node of the batch that was pending. -/
theorem snd_applyReply (b : Batch n) (t : Table n) (reply : Reply) :
    (b.applyReply t reply).2 =
      ∑ i, if t.get i = .pending ∧ i ∈ b.positions then Tally.mark (b.outcomeFor? reply i)
        else 0 := by
  rw [applyReply, snd_foldl_sweepMissing, snd_foldl_applyOutcome, add_assoc,
    ← Finset.sum_add_distrib, show (({} : Tally)) = 0 from rfl, zero_add]
  refine Finset.sum_congr rfl fun i _ => ?_
  rw [get_foldl_applyOutcome, marked]
  by_cases hi : t.get i = .pending
  · cases ho : b.outcomeFor? reply i with
    | none => simp [hi]
    | some o =>
      have hmem : i ∈ b.positions := by
        by_contra hnot
        rw [outcomeFor?_of_notMem reply hnot] at ho
        contradiction
      simp [hi, hmem, o.disposition_ne_pending]
  · simp [hi]

/-- A batch has failures exactly when a node that it settles was not created. -/
theorem hasFailures_applyReply (b : Batch n) (t : Table n) (reply : Reply) :
    (b.applyReply t reply).2.hasFailures = true ↔
      ∃ i ∈ b.positions, t.get i = .pending ∧
        (answered (b.outcomeFor? reply i)).isCreated = false := by
  rw [Tally.hasFailures_iff, snd_applyReply, map_sum, Ne, Finset.sum_eq_zero_iff, not_forall]
  refine exists_congr fun i => ?_
  by_cases hi : t.get i = .pending ∧ i ∈ b.positions
  · simp [hi, Tally.failures_mark]
  · simp only [if_neg hi, map_zero]
    tauto

/-- The first outcomes of its nodes are all that counts of a reply. -/
theorem applyReply_congr {b : Batch n} {t : Table n} {r r' : Reply}
    (h : ∀ i ∈ b.positions, b.outcomeFor? r i = b.outcomeFor? r' i) :
    b.applyReply t r = b.applyReply t r' := by
  refine Prod.ext (Vector.ext fun i hi => ?_) ?_
  · show (b.applyReply t r).1.get ⟨i, hi⟩ = (b.applyReply t r').1.get ⟨i, hi⟩
    by_cases hmem : ⟨i, hi⟩ ∈ b.positions
    · by_cases hpending : t.get ⟨i, hi⟩ = .pending
      · rw [get_applyReply_of_mem t r hmem hpending, get_applyReply_of_mem t r' hmem hpending,
          h _ hmem]
      · rw [get_applyReply_of_ne_pending t r hpending, get_applyReply_of_ne_pending t r' hpending]
    · rw [get_applyReply_of_notMem t r hmem, get_applyReply_of_notMem t r' hmem]
  · rw [snd_applyReply, snd_applyReply]
    refine Finset.sum_congr rfl fun i _ => ?_
    by_cases hi : t.get i = .pending ∧ i ∈ b.positions
    · rw [if_pos hi, if_pos hi, h i hi.2]
    · rw [if_neg hi, if_neg hi]

end Batch

end AssetHierarchy
