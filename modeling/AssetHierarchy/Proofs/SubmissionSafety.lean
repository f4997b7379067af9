import AssetHierarchy.Proofs.Gatekeeping

/-! What may be sent, whatever the service answers and whenever the run is told to stop. No node is
sent twice, none before its parent has been created, and none below a parent outside of the input
that has not been found. -/
namespace AssetHierarchy

variable {σ : Type} {t : Transport σ} {o : Options σ} {nodes : List Node} {s : σ}
  {ex : String → Bool} {bs : List (Batch nodes.length)}

/-- A parent outside of the input is taken to exist by assumption, or because it was found. -/
theorem Written.outsideParent_known (h : Written t o nodes s ex bs) {i : Fin nodes.length}
    {p : String} (hp : (nodes.get i).outsideParent? nodes = some p) :
    o.assumeParentsExist = true ∨ ∃ found, lookupsFor o nodes = [outsideParents nodes] ∧
      (t.existing (outsideParents nodes) s).1 = .ok found ∧ p ∈ found := by
  have hmem : p ∈ outsideParents nodes :=
    List.mem_eraseDups.mpr (List.mem_filterMap.mpr ⟨_, List.get_mem nodes i, hp⟩)
  have hne : outsideParents nodes ≠ [] := List.ne_nil_of_mem hmem
  have hex : ex p = true := h.valid.parents i p (by rw [Graph.unresolvedParent_ofList, hp])
  have hknown := h.known
  unfold knownParents at hknown
  cases hassume : o.assumeParentsExist with
  | true => exact .inl rfl
  | false =>
    rw [hassume, if_neg Bool.false_ne_true, if_neg hne] at hknown
    cases hfound : (t.existing (outsideParents nodes) s).1 with
    | error e => simp [hfound, Except.map] at hknown
    | ok found =>
      refine .inr ⟨found, by simp [lookupsFor, hassume, hne], rfl, ?_⟩
      rw [hfound] at hknown
      rw [← Except.ok.inj hknown] at hex
      simpa using hex

/-- The calls that write, for every input, service and choice of options. -/
theorem createHierarchy_sends_safely (t : Transport σ) (o : Options σ) (nodes : List Node) (s : σ) :
    let g := Graph.ofList nodes
    let c := createHierarchy t o nodes s
    Progress.Ran t o (if c.lookups = [] then s else (t.existing (outsideParents nodes) s).2)
      c.calls c.state ∧
    (c.calls.flatMap fun k => k.batch.positions).Nodup ∧
    (∀ (m : Nat) (k : Call nodes.length), c.calls[m]? = some k → ∀ i ∈ k.batch.positions, ∀ p,
      g.parent i = some p → ∃ l < m, ∃ k', c.calls[l]? = some k' ∧ p ∈ k'.batch.positions ∧
        ∃ id, k'.outcome? g p = some (.success id)) ∧
    (∀ k ∈ c.calls, ∀ i ∈ k.batch.positions, ∀ p, (nodes.get i).parentExternalId = some p →
      p ≠ "" → (∀ m ∈ nodes, m.externalId ≠ some p) →
        o.assumeParentsExist = true ∨ ∃ ids found, c.lookups = [ids] ∧
          (t.existing ids s).1 = .ok found ∧ p ∈ found) ∧
    (∀ k ∈ c.calls, k.batch.entries = k.batch.positions.map g.entry ∧ k.batch.entries ≠ [] ∧
      k.batch.entries.length ≤ max 1 (o.batchSize.getD t.preferredBatchSize)) ∧
    (c.calls.map fun k => k.batch.index).Pairwise (· < ·) := by
  intro g c
  refine ⟨ran_createHierarchy t o nodes s, ?_⟩
  rcases refused_or_written t o nodes s with ⟨hnone, -⟩ | ⟨ex, bs, hw⟩
  · rw [show c.calls = [] from hnone]
    simp
  · have horder := (Graph.rooted_ofList nodes).writingOrder hw.plan
    have hinv := hw.invariant
    rw [show c = _ from hw.eq]
    refine ⟨horder.nodup.sublist hinv.positions_sublist, hinv.parents, ?_, ?_, ?_⟩
    · intro k _ i _ p hp hne hout
      have hp := Node.outsideParent?_eq_some_iff.mpr ⟨hp, hne, hout⟩
      exact (hw.outsideParent_known hp).imp_right fun ⟨found, h⟩ => ⟨_, found, h⟩
    · intro k hk
      obtain ⟨hne, hentries, b, hb, hsub⟩ := hinv.calls_of k hk
      exact ⟨hentries, hne, hsub.length_le.trans (horder.length_le b hb)⟩
    · exact (List.pairwise_map.mpr horder.index_lt).sublist hinv.index_sublist

end AssetHierarchy
