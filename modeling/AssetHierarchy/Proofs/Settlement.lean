import AssetHierarchy.Hierarchy.Submission
import Mathlib.Order.Fin.Basic

/-! What one batch does to the table. A position that is settled keeps its disposition. Of the
positions of a batch, those whose parents have been created are sent, and each gets the disposition
of the first entry for it in the reply; the others are passed over. -/
namespace AssetHierarchy

variable {n : Nat} {g : Graph n}

theorem SubmitOutcome.disposition_ne_pending (o : SubmitOutcome) : o.disposition ≠ .pending := by
  cases o <;> simp [disposition]

theorem Disposition.isCreated_iff {d : Disposition} :
    d.isCreated = true ↔ ∃ id, d = .created id := by
  cases d <;> simp [isCreated]

/-- What an answer settles for a node that was sent. No answer leaves it ambiguous. -/
def answered : Option SubmitOutcome → Disposition
  | none => .ambiguous
  | some o => o.disposition

theorem answered_ne_pending (o : Option SubmitOutcome) : answered o ≠ .pending := by
  cases o with
  | none => simp [answered]
  | some o => exact o.disposition_ne_pending

theorem answered_eq_created_iff {o : Option SubmitOutcome} {id : UInt64} :
    answered o = .created id ↔ o = some (.success id) := by
  rcases o with _ | o
  · simp [answered]
  · cases o <;> simp [answered, SubmitOutcome.disposition]

/-- Every node has an external id. -/
def Graph.Named (g : Graph n) : Prop :=
  ∀ i, (g.node i).externalId = some (g.node i).xid

/-- No external id is carried by two nodes. -/
def Graph.DistinctIds (g : Graph n) : Prop :=
  ∀ i j, (g.node i).xid = (g.node j).xid → i = j

/-- No external id is carried by two nodes of the batch. -/
def Batch.DistinctIds (g : Graph n) (b : Batch n) : Prop :=
  ∀ i ∈ b.positions, ∀ j ∈ b.positions, (g.node i).xid = (g.node j).xid → i = j

theorem Graph.DistinctIds.batch (h : g.DistinctIds) (b : Batch n) : b.DistinctIds g :=
  fun i _ j _ => h i j

/-! ### Passing over -/

namespace Table

variable {t : Table n}

/-- The parent of a node, if it has one in the graph, may have been written. -/
def isBelowUncertain (g : Graph n) (t : Table n) (i : Fin n) : Bool :=
  (g.parent i).any fun p => (t.get p).isUncertain

theorem get_skip (g : Graph n) (t : Table n) (i j : Fin n) :
    (t.skip g i).get j =
      if i = j ∧ t.get j = .pending then .skipped (t.isBelowUncertain g i) else t.get j :=
  t.get_record i j _

theorem get_skip_of_ne {i p : Fin n} (hi : i ≠ p) : (t.skip g i).get p = t.get p := by
  rw [get_skip, if_neg fun h => hi h.1]

/-! Both tests look at the table at one place only. -/

theorem isBelowUncertain_congr {t u : Table n} {i : Fin n}
    (h : ∀ p, g.parent i = some p → u.get p = t.get p) :
    u.isBelowUncertain g i = t.isBelowUncertain g i := by
  unfold isBelowUncertain
  cases hp : g.parent i with
  | none => rfl
  | some p => simp [h p hp]

theorem isReady_congr {t u : Table n} {i : Fin n}
    (h : ∀ p, g.parent i = some p → u.get p = t.get p) : u.isReady g i = t.isReady g i := by
  unfold isReady
  cases hp : g.parent i with
  | none => rfl
  | some p => simp [h p hp]

/-- Passing over nodes, none of which is the parent of another. -/
theorem get_foldl_skip {is : List (Fin n)} (hout : ∀ i ∈ is, ∀ p, g.parent i = some p → p ∉ is)
    (t : Table n) (j : Fin n) :
    (is.foldl (skip g) t).get j =
      if t.get j = .pending ∧ j ∈ is then .skipped (t.isBelowUncertain g j) else t.get j := by
  induction is generalizing t with
  | nil => simp
  | cons i rest ih =>
    have hrest : ∀ k ∈ rest, ∀ p, g.parent k = some p → p ∉ rest :=
      fun k hk p hp hmem => hout k (List.mem_cons_of_mem i hk) p hp (List.mem_cons_of_mem i hmem)
    rw [List.foldl_cons, ih hrest, get_skip]
    by_cases hij : i = j
    · subst hij
      by_cases hpending : t.get i = .pending <;> simp [hpending]
    · have hsame : j ∈ rest → (t.skip g i).isBelowUncertain g j = t.isBelowUncertain g j :=
        fun hj => isBelowUncertain_congr fun p hp => get_skip_of_ne fun hip =>
          hout j (List.mem_cons_of_mem i hj) p hp (hip ▸ List.mem_cons_self)
      by_cases hj : j ∈ rest
      · simp [hij, hj, hsame hj]
      · simp [hij, hj, Ne.symm hij]

end Table

namespace Batch

/-! ### Splitting -/

/-- The batch without the nodes whose parents have not been created. -/
def ready (g : Graph n) (t : Table n) (b : Batch n) : Batch n :=
  { b with entries := b.entries.filter fun e => t.isReady g e.position }

/-- The positions that are passed over when the batch is sent. -/
def unready (g : Graph n) (t : Table n) (b : Batch n) : List (Fin n) :=
  (b.entries.filter fun e => !t.isReady g e.position).map Entry.position

theorem split_eq {es : List (Entry n)}
    (hout : ∀ e ∈ es, ∀ p, g.parent e.position = some p → p ∉ es.map Entry.position)
    (t : Table n) :
    split g t es = (es.filter fun e => t.isReady g e.position,
      ((es.filter fun e => !t.isReady g e.position).map Entry.position).foldl
        (Table.skip g) t) := by
  induction es generalizing t with
  | nil => rfl
  | cons e rest ih =>
    have hrest : ∀ k ∈ rest, ∀ p, g.parent k.position = some p → p ∉ rest.map Entry.position :=
      fun k hk p hp hmem =>
        hout k (List.mem_cons_of_mem e hk) p hp (List.mem_cons_of_mem _ hmem)
    rw [split]
    by_cases he : t.isReady g e.position = true
    · simp [he, ih hrest]
    · -- passing over `e` leaves it open which of the others are ready
      have hsame : ∀ k ∈ rest,
          (t.skip g e.position).isReady g k.position = t.isReady g k.position :=
        fun k hk => Table.isReady_congr fun p hp => Table.get_skip_of_ne fun hep =>
          hout k (List.mem_cons_of_mem e hk) p hp (hep ▸ List.mem_cons_self)
      have hready : (rest.filter fun k => (t.skip g e.position).isReady g k.position) =
          rest.filter fun k => t.isReady g k.position := List.filter_congr hsame
      have hunready : (rest.filter fun k => !(t.skip g e.position).isReady g k.position) =
          rest.filter fun k => !t.isReady g k.position :=
        List.filter_congr fun k hk => congrArg Bool.not (hsame k hk)
      rw [if_neg he, ih hrest, hready, hunready]
      simp [he]

variable {b : Batch n} {t : Table n}

theorem mem_positions_ready {i : Fin n} :
    i ∈ (b.ready g t).positions ↔ i ∈ b.positions ∧ t.isReady g i = true := by
  simp only [positions, ready, List.mem_map, List.mem_filter]
  constructor
  · rintro ⟨e, ⟨he, hr⟩, rfl⟩
    exact ⟨⟨e, he, rfl⟩, hr⟩
  · rintro ⟨⟨e, he, rfl⟩, hr⟩
    exact ⟨e, ⟨he, hr⟩, rfl⟩

theorem mem_unready {i : Fin n} :
    i ∈ b.unready g t ↔ i ∈ b.positions ∧ t.isReady g i = false := by
  simp only [positions, unready, List.mem_map, List.mem_filter, Bool.not_eq_true']
  constructor
  · rintro ⟨e, ⟨he, hr⟩, rfl⟩
    exact ⟨⟨e, he, rfl⟩, hr⟩
  · rintro ⟨⟨e, he, rfl⟩, hr⟩
    exact ⟨e, ⟨he, hr⟩, rfl⟩

/-! ### Replies -/

/-- The first outcome in a reply that is meant for a position. -/
def outcomeFor? (b : Batch n) (reply : Reply) (j : Fin n) : Option SubmitOutcome :=
  reply.findSome? fun r => if b.position? r.1 = some j then some r.2 else none

theorem outcomeFor?_cons (b : Batch n) (r : String × SubmitOutcome) (rest : Reply) (j : Fin n) :
    b.outcomeFor? (r :: rest) j =
      if b.position? r.1 = some j then some r.2 else b.outcomeFor? rest j := by
  unfold outcomeFor?
  by_cases hr : b.position? r.1 = some j <;> simp [hr]

theorem fst_applyOutcome (b : Batch n) (s : Table n × Tally) (x : String) (o : SubmitOutcome)
    (j : Fin n) :
    (b.applyOutcome s x o).1.get j =
      if b.position? x = some j ∧ s.1.get j = .pending then o.disposition else s.1.get j := by
  unfold applyOutcome
  cases hx : b.position? x with
  | none => simp
  | some i =>
    by_cases hi : s.1.get i = .pending
    · simp only [if_pos hi, Table.get_record, Option.some.injEq]
    · have hnot : ¬(i = j ∧ s.1.get j = .pending) := fun h => hi (h.1 ▸ h.2)
      simp [hi, hnot]

theorem get_foldl_applyOutcome (b : Batch n) (reply : Reply) (s : Table n × Tally) (j : Fin n) :
    (reply.foldl (fun s (x, o) => b.applyOutcome s x o) s).1.get j =
      if s.1.get j = .pending then
        ((b.outcomeFor? reply j).map SubmitOutcome.disposition).getD .pending
      else s.1.get j := by
  induction reply generalizing s with
  | nil =>
    by_cases hj : s.1.get j = .pending <;> simp [outcomeFor?, hj]
  | cons r rest ih =>
    rw [List.foldl_cons, ih, fst_applyOutcome, outcomeFor?_cons]
    by_cases hj : s.1.get j = .pending
    · by_cases hr : b.position? r.1 = some j
      · simp [hj, hr, r.2.disposition_ne_pending]
      · simp [hj, hr]
    · simp [hj]

theorem fst_sweepMissing (s : Table n × Tally) (i j : Fin n) :
    (sweepMissing s i).1.get j =
      if i = j ∧ s.1.get j = .pending then .ambiguous else s.1.get j := by
  unfold sweepMissing
  by_cases hi : s.1.get i = .pending
  · rw [if_pos hi, Table.get_record]
  · have hnot : ¬(i = j ∧ s.1.get j = .pending) := fun h => hi (h.1 ▸ h.2)
    rw [if_neg hi, if_neg hnot]

theorem get_foldl_sweepMissing (is : List (Fin n)) (s : Table n × Tally) (j : Fin n) :
    (is.foldl sweepMissing s).1.get j =
      if s.1.get j = .pending ∧ j ∈ is then .ambiguous else s.1.get j := by
  induction is generalizing s with
  | nil => simp
  | cons i rest ih =>
    rw [List.foldl_cons, ih, fst_sweepMissing]
    by_cases hj : s.1.get j = .pending
    · by_cases hij : i = j
      · simp [hij, hj]
      · simp [hij, hj, Ne.symm hij]
    · simp [hj]

theorem mem_positions_of_position? {x : String} {j : Fin n} (h : b.position? x = some j) :
    j ∈ b.positions := by
  obtain ⟨e, he, rfl⟩ := Option.map_eq_some_iff.mp h
  exact List.mem_map_of_mem (List.mem_reverse.mp (List.mem_of_find?_eq_some he))

theorem outcomeFor?_of_notMem (reply : Reply) {j : Fin n} (hj : j ∉ b.positions) :
    b.outcomeFor? reply j = none := by
  refine List.findSome?_eq_none_iff.mpr fun r _ => if_neg fun h => hj ?_
  exact mem_positions_of_position? h

/-- A pending position of the batch is settled by the first outcome for it. -/
theorem get_applyReply_of_mem (t : Table n) (reply : Reply) {j : Fin n} (hj : j ∈ b.positions)
    (hpending : t.get j = .pending) :
    (b.applyReply t reply).1.get j = answered (b.outcomeFor? reply j) := by
  rw [applyReply, get_foldl_sweepMissing, get_foldl_applyOutcome, if_pos hpending]
  cases ho : b.outcomeFor? reply j with
  | none => simp [hj, answered]
  | some o => simp [o.disposition_ne_pending, answered]

theorem get_applyReply_of_notMem (t : Table n) (reply : Reply) {j : Fin n}
    (hj : j ∉ b.positions) : (b.applyReply t reply).1.get j = t.get j := by
  rw [applyReply, get_foldl_sweepMissing, get_foldl_applyOutcome, outcomeFor?_of_notMem reply hj,
    if_neg fun h => hj h.2]
  split
  · next h => exact h.symm
  · rfl

theorem get_applyReply_of_ne_pending (t : Table n) (reply : Reply) {j : Fin n}
    (hj : t.get j ≠ .pending) : (b.applyReply t reply).1.get j = t.get j := by
  rw [applyReply, get_foldl_sweepMissing, get_foldl_applyOutcome, if_neg hj, if_neg fun h => hj h.1]

/-! ### Distinct external ids -/

theorem entry_position (he : b.entries = b.positions.map g.entry) {e : Entry n}
    (hmem : e ∈ b.entries) : g.entry e.position = e := by
  rw [he] at hmem
  obtain ⟨i, _, rfl⟩ := List.mem_map.mp hmem
  rfl

theorem nodes_eq (he : b.entries = b.positions.map g.entry) :
    b.nodes = b.positions.map g.node := by
  rw [nodes, he, List.map_map]
  rfl

theorem externalIds_eq (he : b.entries = b.positions.map g.entry) :
    b.externalIds = b.positions.map fun i => (g.node i).xid := by
  rw [externalIds, nodes_eq he, List.map_map]
  rfl

/-- Two entries have one external id exactly if they have one position. -/
def Matched (b : Batch n) : Prop :=
  ∀ e ∈ b.entries, ∀ e' ∈ b.entries, e.node.xid = e'.node.xid ↔ e.position = e'.position

namespace Matched

theorem position?_eq_some_iff (h : b.Matched) {x : String} {j : Fin n} :
    b.position? x = some j ↔ ∃ e ∈ b.entries, e.node.xid = x ∧ e.position = j := by
  constructor
  · intro hj
    obtain ⟨e, hfind, rfl⟩ := Option.map_eq_some_iff.mp hj
    have hx := List.find?_some hfind
    exact ⟨e, List.mem_reverse.mp (List.mem_of_find?_eq_some hfind), beq_iff_eq.mp hx, rfl⟩
  · rintro ⟨e, he, rfl, rfl⟩
    obtain ⟨e', hfind⟩ : ∃ e',
        b.entries.reverse.find? (fun e' => e'.node.xid == e.node.xid) = some e' :=
      Option.isSome_iff_exists.mp
        (List.find?_isSome.mpr ⟨e, List.mem_reverse.mpr he, beq_self_eq_true _⟩)
    have hx := List.find?_some hfind
    have he' := List.mem_reverse.mp (List.mem_of_find?_eq_some hfind)
    exact Option.map_eq_some_iff.mpr ⟨e', hfind, (h e' he' e he).mp (beq_iff_eq.mp hx)⟩

/-- The outcome that counts for a node is the first one that the reply gives for its external id. -/
theorem outcomeFor?_eq_lookup (h : b.Matched) (reply : Reply) {e : Entry n} (he : e ∈ b.entries) :
    b.outcomeFor? reply e.position = reply.lookup e.node.xid := by
  rw [List.lookup_eq_findSome?, outcomeFor?]
  congr 1
  funext r
  have hmeant : b.position? r.1 = some e.position ↔ e.node.xid = r.1 := by
    rw [h.position?_eq_some_iff]
    constructor
    · rintro ⟨e', he', hx, hpos⟩
      rw [← hx, (h e' he' e he).mpr hpos]
    · exact fun hr => ⟨e, he, hr, rfl⟩
  simp only [hmeant, beq_iff_eq]

end Matched

theorem DistinctIds.matched (hd : b.DistinctIds g) (he : b.entries = b.positions.map g.entry) :
    b.Matched := by
  intro e hmem e' hmem'
  have hids := hd _ (List.mem_map_of_mem hmem) _ (List.mem_map_of_mem hmem')
  rw [← entry_position he hmem, ← entry_position he hmem']
  exact ⟨hids, congrArg fun i => (g.node i).xid⟩

/-- With distinct external ids, the outcome that counts for a node is the first one that the reply
gives for its external id. -/
theorem outcomeFor?_eq_lookup (hd : b.DistinctIds g) (he : b.entries = b.positions.map g.entry)
    (reply : Reply) {j : Fin n} (hj : j ∈ b.positions) :
    b.outcomeFor? reply j = reply.lookup (g.node j).xid := by
  obtain ⟨e, hmem, rfl⟩ := List.mem_map.mp hj
  rw [(hd.matched he).outcomeFor?_eq_lookup reply hmem, ← entry_position he hmem]
  rfl

/-! ### A batch that is sent -/

theorem entries_ready (he : b.entries = b.positions.map g.entry) (t : Table n) :
    (b.ready g t).entries = (b.ready g t).positions.map g.entry := by
  simp only [positions, List.map_map]
  refine (List.map_id _).symm.trans (List.map_congr_left fun e hmem => ?_)
  exact (entry_position he (List.mem_filter.mp hmem).1).symm

/-- The table after the ready part of a batch was sent and the rest passed over. -/
theorem get_sent (hout : ∀ i ∈ b.positions, ∀ p, g.parent i = some p → p ∉ b.positions)
    (t : Table n) (reply : Reply) (j : Fin n) :
    ((b.ready g t).applyReply ((b.unready g t).foldl (Table.skip g) t) reply).1.get j =
      if t.get j = .pending ∧ j ∈ b.positions then
        if t.isReady g j = true then answered ((b.ready g t).outcomeFor? reply j)
        else .skipped (t.isBelowUncertain g j)
      else t.get j := by
  have hunready : ∀ i ∈ b.unready g t, ∀ p, g.parent i = some p → p ∉ b.unready g t :=
    fun i hi p hp hmem => hout i (mem_unready.mp hi).1 p hp (mem_unready.mp hmem).1
  have hskip := Table.get_foldl_skip hunready t j
  by_cases hj : t.get j = .pending ∧ j ∈ b.positions
  · rw [if_pos hj]
    cases hr : t.isReady g j with
    | true =>
      have hnot : ¬(t.get j = .pending ∧ j ∈ b.unready g t) := by simp [mem_unready, hr]
      rw [if_neg hnot] at hskip
      rw [get_applyReply_of_mem _ _ (mem_positions_ready.mpr ⟨hj.2, hr⟩) (hskip.trans hj.1),
        if_pos rfl]
    | false =>
      rw [if_pos ⟨hj.1, mem_unready.mpr ⟨hj.2, hr⟩⟩] at hskip
      rw [get_applyReply_of_ne_pending _ _ (by simp [hskip]), hskip, if_neg Bool.false_ne_true]
  · have hnot : ¬(t.get j = .pending ∧ j ∈ b.unready g t) :=
      fun h => hj ⟨h.1, (mem_unready.mp h.2).1⟩
    rw [if_neg hnot] at hskip
    rw [if_neg hj]
    by_cases hpending : t.get j = .pending
    · have hmem : j ∉ (b.ready g t).positions :=
        fun h => hj ⟨hpending, (mem_positions_ready.mp h).1⟩
      rw [get_applyReply_of_notMem _ _ hmem, hskip]
    · rw [get_applyReply_of_ne_pending _ _ (by rwa [hskip]), hskip]

end Batch

end AssetHierarchy
