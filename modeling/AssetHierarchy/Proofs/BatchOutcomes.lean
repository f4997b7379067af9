import AssetHierarchy.Proofs.Tallies

/-! What a reply makes of the batch that it answers, be it for any nodes at any positions. The first
entry for a node settles it and is counted once, a node without one is left open, and nothing else
in the reply or in the table has a part in it. -/
namespace AssetHierarchy

/-- What the first entry for a node says of it, and what it says if there is none. -/
structure SettledBy (first : Option SubmitOutcome) (d : Disposition) : Prop where
  created_iff : ∀ id, d = .created id ↔ first = some (.success id)
  ambiguous_iff : d = .ambiguous ↔ first = none ∨
    (∃ code reason, first = some (.serverError code reason)) ∨ first = some .timeout ∨
    ∃ reason, first = some (.interrupted reason)
  rejected_iff : d = .rejected ↔
    (∃ code reason, first = some (.clientError code reason)) ∨
    ∃ reason, first = some (.notSent reason)

theorem settledBy_answered (first : Option SubmitOutcome) : SettledBy first (answered first) where
  created_iff _ := answered_eq_created_iff
  ambiguous_iff := by
    rcases first with _ | o
    · simp [answered]
    · cases o <;> simp [answered, SubmitOutcome.disposition]
  rejected_iff := by
    rcases first with _ | o
    · simp [answered]
    · cases o <;> simp [answered, SubmitOutcome.disposition]

namespace Batch

variable {n : Nat} {b : Batch n} {t : Table n}

theorem matched_of_nodup (hids : b.externalIds.Nodup) (hpositions : b.positions.Nodup) :
    b.Matched := by
  intro e he e' he'
  rw [externalIds, nodes, List.map_map] at hids
  have hid : e.node.xid = e'.node.xid ↔ e = e' :=
    ⟨fun h => List.inj_on_of_nodup_map hids he he' h, fun h => h ▸ rfl⟩
  have hposition : e.position = e'.position ↔ e = e' :=
    ⟨fun h => List.inj_on_of_nodup_map hpositions he he' h, fun h => h ▸ rfl⟩
  rw [hid, hposition]

theorem Matched.get_applyReply (h : b.Matched) (hpending : ∀ i ∈ b.positions, t.get i = .pending)
    (reply : Reply) {e : Entry n} (he : e ∈ b.entries) :
    (b.applyReply t reply).1.get e.position = answered (reply.lookup e.node.xid) := by
  have hmem : e.position ∈ b.positions := List.mem_map_of_mem he
  rw [get_applyReply_of_mem t reply hmem (hpending _ hmem), h.outcomeFor?_eq_lookup reply he]

/-- The tally has one mark for each node of the batch. -/
theorem Matched.snd_applyReply (h : b.Matched) (hpositions : b.positions.Nodup)
    (hpending : ∀ i ∈ b.positions, t.get i = .pending) (reply : Reply) :
    (b.applyReply t reply).2 =
      (b.entries.map fun e => Tally.mark (reply.lookup e.node.xid)).sum := by
  have hmark : ∀ i, (if t.get i = .pending ∧ i ∈ b.positions then
      Tally.mark (b.outcomeFor? reply i) else 0) =
      if i ∈ b.positions.toFinset then Tally.mark (b.outcomeFor? reply i) else 0 := by
    intro i
    by_cases hi : i ∈ b.positions
    · simp [hi, hpending i hi]
    · simp [hi]
  rw [Batch.snd_applyReply]
  simp only [hmark]
  rw [Finset.sum_ite_mem, Finset.univ_inter, List.sum_toFinset _ hpositions, positions,
    List.map_map]
  exact congrArg List.sum (List.map_congr_left fun e he =>
    congrArg Tally.mark (h.outcomeFor?_eq_lookup reply he))

theorem Matched.applyReply_congr (h : b.Matched) {r r' : Reply}
    (hfirst : ∀ x ∈ b.externalIds, r.lookup x = r'.lookup x) :
    b.applyReply t r = b.applyReply t r' := by
  refine Batch.applyReply_congr fun i hi => ?_
  obtain ⟨e, he, rfl⟩ := List.mem_map.mp hi
  rw [h.outcomeFor?_eq_lookup r he, h.outcomeFor?_eq_lookup r' he]
  exact hfirst _ (List.mem_map_of_mem (List.mem_map_of_mem he))

end Batch

/-- An entry that comes after another with its external id is not found. -/
theorem lookup_append_cons {x y : String} {o : SubmitOutcome} {earlier later : Reply}
    (h : y = x → ∃ o', (x, o') ∈ earlier) :
    (earlier ++ (x, o) :: later).lookup y = (earlier ++ later).lookup y := by
  rw [List.lookup_append, List.lookup_append, List.lookup_cons]
  by_cases hy : y = x
  · obtain ⟨o', ho'⟩ := h hy
    have hfound : (earlier.lookup y).isSome = true :=
      List.lookup_isSome_iff.mpr ⟨(x, o'), ho', beq_iff_eq.mpr hy⟩
    obtain ⟨first, hfirst⟩ := Option.isSome_iff_exists.mp hfound
    rw [hfirst, Option.some_or, Option.some_or]
  · rw [beq_eq_false_iff_ne.mpr hy]

/-- A reply settles each node of its batch by the first entry for it, and leaves all others alone.
Each node of the batch is counted once, and a failure shows exactly when one was not created. What
else stands in the reply has no effect. -/
theorem applyReply_settles_batch {n : Nat} (t : Table n) (b : Batch n) (reply : Reply)
    (hids : b.externalIds.Nodup) (hpositions : b.positions.Nodup)
    (hpending : ∀ i ∈ b.positions, t.get i = .pending) :
    let after := (b.applyReply t reply).1
    let tally := (b.applyReply t reply).2
    (∀ e ∈ b.entries, SettledBy (reply.lookup e.node.xid) (after.get e.position)) ∧
    (∀ i ∉ b.positions, after.get i = t.get i) ∧
    tally = (b.entries.map fun e => Tally.mark (reply.lookup e.node.xid)).sum ∧
    tally.created + tally.ambiguous + tally.rejected + tally.missing = b.entries.length ∧
    (tally.hasFailures = true ↔ ∃ i ∈ b.positions, ∀ id, after.get i ≠ .created id) ∧
    (∀ earlier x o later, reply = earlier ++ (x, o) :: later →
      (x ∉ b.externalIds ∨ ∃ o', (x, o') ∈ earlier) →
        b.applyReply t (earlier ++ later) = (after, tally)) ∧
    ∀ reply' : Reply, (∀ x ∈ b.externalIds, reply'.lookup x = reply.lookup x) →
      b.applyReply t reply' = (after, tally) := by
  intro after tally
  have hmatched := Batch.matched_of_nodup hids hpositions
  have hget := fun e he => hmatched.get_applyReply hpending reply (e := e) he
  have htally := hmatched.snd_applyReply hpositions hpending reply
  refine ⟨fun e he => ?_, fun i hi => Batch.get_applyReply_of_notMem t reply hi, htally, ?_, ?_, ?_,
    fun reply' hfirst => hmatched.applyReply_congr hfirst⟩
  · rw [hget e he]
    exact settledBy_answered _
  · rw [← Tally.total_apply, show tally = _ from htally, map_list_sum, List.map_map]
    simp [Function.comp_def, Tally.total_mark]
  · rw [Batch.hasFailures_applyReply]
    refine exists_congr fun i => and_congr_right fun hi => ?_
    have hafter : after.get i = answered (b.outcomeFor? reply i) :=
      Batch.get_applyReply_of_mem t reply hi (hpending i hi)
    rw [← hafter, and_iff_right (hpending i hi), ← Bool.not_eq_true, Disposition.isCreated_iff,
      not_exists]
  · rintro earlier x o later rfl hno
    refine hmatched.applyReply_congr fun y hy => (lookup_append_cons ?_).symm
    rintro rfl
    exact hno.resolve_left (not_not_intro hy)

/-- The pump is left out of a reply that names a foreign node, and the valve twice. -/
theorem applyReply_settles_batch_twice :
    let b : Batch 3 := ⟨0, 0, [⟨0, .named "pump" "Pump"⟩, ⟨1, .named "valve" "Valve"⟩]⟩
    let reply := [("motor", .success 4), ("valve", .clientError 409 "taken"), ("valve", .success 5)]
    let after := (b.applyReply (.start 3) reply).1
    after.get 0 = .ambiguous ∧ after.get 1 = .rejected ∧ after.get 2 = .pending ∧
      b.applyReply (.start 3) [("valve", .clientError 409 "taken")] =
        b.applyReply (.start 3) reply := by
  intro b reply after
  obtain ⟨hsettled, hothers, -, -, -, -, hfirst⟩ :=
    applyReply_settles_batch (.start 3) b reply (by decide) (by decide) (by decide)
  have hpump := hsettled ⟨0, .named "pump" "Pump"⟩ (by simp [b])
  have hvalve := hsettled ⟨1, .named "valve" "Valve"⟩ (by simp [b])
  have hshort := hfirst [("valve", .clientError 409 "taken")] (by decide)
  exact ⟨hpump.ambiguous_iff.mpr (.inl (by decide)),
    hvalve.rejected_iff.mpr (.inl ⟨409, "taken", by decide⟩),
    (hothers 2 (by decide)).trans (by decide), hshort⟩

end AssetHierarchy
