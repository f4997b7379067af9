import AssetHierarchy.Hierarchy.Creation
import AssetHierarchy.Proofs.Run
import AssetHierarchy.Proofs.Validity

/-! What stands between a list of nodes and the first call that writes. A cycle is refused before
anything is asked of the service; then the parents outside of the input are looked up, once and
only if there is a need; then the whole graph is checked. What passes the check has a plan. -/
namespace AssetHierarchy

variable {σ : Type}

/-- The calls that look up parents. -/
def lookupsFor (o : Options σ) (nodes : List Node) : List (List String) :=
  if o.assumeParentsExist = false ∧ outsideParents nodes ≠ [] then [outsideParents nodes] else []

/-- Which parents outside of the input exist: by assumption all of them, else those found. -/
def knownParents (t : Transport σ) (o : Options σ) (nodes : List Node) (s : σ) :
    Except HttpError (String → Bool) :=
  if o.assumeParentsExist then .ok fun _ => true
  else if outsideParents nodes = [] then .ok fun _ => false
  else (t.existing (outsideParents nodes) s).1.map List.contains

def afterLookup (t : Transport σ) (o : Options σ) (nodes : List Node) (s : σ) : σ :=
  if lookupsFor o nodes = [] then s else (t.existing (outsideParents nodes) s).2

variable {t : Transport σ} {o : Options σ} {nodes : List Node} {s : σ}

/-! ### The three refusals -/

theorem createHierarchy_of_onCycle {i : Fin nodes.length}
    (hi : OnCycle (Graph.ofList nodes).parent i) :
    createHierarchy t o nodes s =
      { result := .error (.invalidStructure ((Graph.ofList nodes).validate fun _ => false))
        state := s } := by
  have hmembers : ¬(Graph.ofList nodes).cycleMembers.isEmpty = true :=
    fun h => (Graph.ofList nodes).isEmpty_cycleMembers_iff.mp h i hi
  unfold createHierarchy Graph.create
  rw [if_pos (by simpa using hmembers)]

theorem createHierarchy_of_acyclic (h : ∀ i, ¬OnCycle (Graph.ofList nodes).parent i) :
    createHierarchy t o nodes s =
      match knownParents t o nodes s with
      | .error e =>
        { result := .error (.existenceCheck e), state := afterLookup t o nodes s
          lookups := lookupsFor o nodes }
      | .ok ex =>
        (Graph.ofList nodes).checkAndWrite t o ex (lookupsFor o nodes)
          (afterLookup t o nodes s) := by
  have hmembers := (Graph.ofList nodes).isEmpty_cycleMembers_iff.mpr h
  unfold createHierarchy Graph.create Graph.lookUpParents knownParents afterLookup lookupsFor
  rw [if_neg (by simpa using hmembers), Graph.unresolvedParents_ofList]
  cases hassume : o.assumeParentsExist with
  | true => simp
  | false =>
    by_cases hnone : outsideParents nodes = []
    · have hnil : ([] : List String).contains = fun _ => false := rfl
      simp [hnone, hnil]
    · cases hfound : (t.existing (outsideParents nodes) s).1 <;> simp [hnone, hfound, Except.map]

namespace Graph

variable {n : Nat} {g : Graph n} {ex : String → Bool} {lookups : List (List String)}

theorem valid_iff_nodes_eq_nil : g.Valid ex ↔ ∀ issue, (g.validate ex).nodes issue = [] := by
  rw [← isValid_validate_iff, Report.isValid]
  constructor
  · intro h issue
    have hissue : issue ∈ Issue.all := by cases issue <;> simp [Issue.all]
    exact List.isEmpty_iff.mp (List.all_eq_true.mp h issue hissue)
  · intro h
    exact List.all_eq_true.mpr fun issue _ => List.isEmpty_iff.mpr (h issue)

theorem checkAndWrite_of_not_valid (h : ¬g.Valid ex) :
    g.checkAndWrite t o ex lookups s =
      { result := .error (.invalidStructure (g.validate ex)), state := s, lookups } := by
  unfold checkAndWrite
  rw [if_neg (isValid_validate_iff.not.mpr h)]

theorem checkAndWrite_of_valid (t : Transport σ) (o : Options σ) (lookups : List (List String))
    (s : σ) (h : g.Valid ex) :
    ∃ bs, g.plan (o.batchSize.getD t.preferredBatchSize) = .ok bs ∧
      g.checkAndWrite t o ex lookups s =
        { result := ((g.submit t o bs s).table.outcomes g).result
          state := (g.submit t o bs s).state, lookups, calls := (g.submit t o bs s).calls } := by
  obtain ⟨bs, hbs⟩ := exists_plan h.acyclic (o.batchSize.getD t.preferredBatchSize)
  refine ⟨bs, hbs, ?_⟩
  unfold checkAndWrite write
  rw [if_pos (isValid_validate_iff.mpr h), hbs]

theorem lookups_checkAndWrite (t : Transport σ) (o : Options σ) (s : σ) :
    (g.checkAndWrite t o ex lookups s).lookups = lookups := by
  by_cases hv : g.Valid ex
  · obtain ⟨bs, -, hwrite⟩ := checkAndWrite_of_valid t o lookups s hv
    rw [hwrite]
  · rw [checkAndWrite_of_not_valid hv]

end Graph

theorem OutcomeSet.result_eq (outcome : OutcomeSet) : outcome.result =
    if outcome.unknown = [] ∧ outcome.failed = [] then .ok outcome.created
    else .error (.partialSubmission outcome) := by
  simp [result, isComplete]

/-! ### What is written -/

/-- The run over some batches, after the parents have been looked up. -/
def runOver (t : Transport σ) (o : Options σ) (nodes : List Node) (s : σ)
    (bs : List (Batch nodes.length)) : Progress nodes.length σ :=
  (Graph.ofList nodes).submit t o bs (afterLookup t o nodes s)

/-- The nodes have passed every check, and what follows is the run over a plan for them. -/
structure Written (t : Transport σ) (o : Options σ) (nodes : List Node) (s : σ)
    (ex : String → Bool) (bs : List (Batch nodes.length)) : Prop where
  known : knownParents t o nodes s = .ok ex
  valid : (Graph.ofList nodes).Valid ex
  plan : (Graph.ofList nodes).plan (o.batchSize.getD t.preferredBatchSize) = .ok bs
  eq : createHierarchy t o nodes s =
    { result := ((runOver t o nodes s bs).table.outcomes (Graph.ofList nodes)).result
      state := (runOver t o nodes s bs).state
      lookups := lookupsFor o nodes
      calls := (runOver t o nodes s bs).calls }

theorem Written.result_cases {ex : String → Bool} {bs : List (Batch nodes.length)}
    (h : Written t o nodes s ex bs) :
    (∃ created, (createHierarchy t o nodes s).result = .ok created) ∨
      ∃ outcome, (createHierarchy t o nodes s).result = .error (.partialSubmission outcome) := by
  rw [h.eq]
  dsimp only
  rw [OutcomeSet.result_eq]
  split
  · exact .inl ⟨_, rfl⟩
  · exact .inr ⟨_, rfl⟩

theorem exists_written {ex : String → Bool} (hk : knownParents t o nodes s = .ok ex)
    (hv : (Graph.ofList nodes).Valid ex) : ∃ bs, Written t o nodes s ex bs := by
  obtain ⟨bs, hbs, hwrite⟩ :=
    Graph.checkAndWrite_of_valid t o (lookupsFor o nodes) (afterLookup t o nodes s) hv
  refine ⟨bs, hk, hv, hbs, ?_⟩
  rw [createHierarchy_of_acyclic hv.acyclic, hk]
  exact hwrite

theorem createHierarchy_of_not_valid (h : ∀ i, ¬OnCycle (Graph.ofList nodes).parent i)
    {ex : String → Bool} (hk : knownParents t o nodes s = .ok ex)
    (hv : ¬(Graph.ofList nodes).Valid ex) :
    createHierarchy t o nodes s =
      { result := .error (.invalidStructure ((Graph.ofList nodes).validate ex))
        state := afterLookup t o nodes s, lookups := lookupsFor o nodes } := by
  rw [createHierarchy_of_acyclic h, hk]
  exact Graph.checkAndWrite_of_not_valid hv

theorem createHierarchy_of_lookup_error (h : ∀ i, ¬OnCycle (Graph.ofList nodes).parent i)
    {e : HttpError} (hk : knownParents t o nodes s = .error e) :
    createHierarchy t o nodes s =
      { result := .error (.existenceCheck e), state := afterLookup t o nodes s
        lookups := lookupsFor o nodes } := by
  rw [createHierarchy_of_acyclic h, hk]

/-- The four ways in which it can go. -/
theorem createHierarchy_cases (t : Transport σ) (o : Options σ) (nodes : List Node) (s : σ) :
    createHierarchy t o nodes s =
      { result := .error (.invalidStructure ((Graph.ofList nodes).validate fun _ => false))
        state := s } ∨
    (∃ e, createHierarchy t o nodes s =
      { result := .error (.existenceCheck e), state := afterLookup t o nodes s
        lookups := lookupsFor o nodes }) ∨
    (∃ report, createHierarchy t o nodes s =
      { result := .error (.invalidStructure report), state := afterLookup t o nodes s
        lookups := lookupsFor o nodes }) ∨
    ∃ ex bs, Written t o nodes s ex bs := by
  by_cases hcycle : ∃ i, OnCycle (Graph.ofList nodes).parent i
  · obtain ⟨i, hi⟩ := hcycle
    exact .inl (createHierarchy_of_onCycle hi)
  · rw [not_exists] at hcycle
    right
    cases hk : knownParents t o nodes s with
    | error e => exact .inl ⟨e, createHierarchy_of_lookup_error hcycle hk⟩
    | ok ex =>
      right
      by_cases hv : (Graph.ofList nodes).Valid ex
      · exact .inr ⟨ex, exists_written hk hv⟩
      · exact .inl ⟨_, createHierarchy_of_not_valid hcycle hk hv⟩

/-- Nothing is written but by the run over a plan. -/
theorem refused_or_written (t : Transport σ) (o : Options σ) (nodes : List Node) (s : σ) :
    ((createHierarchy t o nodes s).calls = [] ∧
      ∀ outcome, (createHierarchy t o nodes s).result ≠ .error (.partialSubmission outcome)) ∨
    ∃ ex bs, Written t o nodes s ex bs := by
  rcases createHierarchy_cases t o nodes s with h | ⟨e, h⟩ | ⟨report, h⟩ | h
  · exact .inl (by rw [h]; exact ⟨rfl, nofun⟩)
  · exact .inl (by rw [h]; exact ⟨rfl, nofun⟩)
  · exact .inl (by rw [h]; exact ⟨rfl, nofun⟩)
  · exact .inr h

theorem Written.invariant {ex : String → Bool} {bs : List (Batch nodes.length)}
    (h : Written t o nodes s ex bs) :
    Progress.Invariant (Graph.ofList nodes) bs (runOver t o nodes s bs) :=
  ((Graph.rooted_ofList nodes).writingOrder h.plan).invariant h.valid.distinctIds t o _

/-- Apart from the calls that the creation lists, the service is asked for nothing. -/
theorem ran_createHierarchy (t : Transport σ) (o : Options σ) (nodes : List Node) (s : σ) :
    let c := createHierarchy t o nodes s
    Progress.Ran t o (if c.lookups = [] then s else (t.existing (outsideParents nodes) s).2)
      c.calls c.state := by
  intro c
  rcases createHierarchy_cases t o nodes s with h | ⟨e, h⟩ | ⟨report, h⟩ | ⟨ex, bs, hw⟩
  · rw [show c = _ from h]
    exact .start
  · rw [show c = _ from h]
    exact .start
  · rw [show c = _ from h]
    exact .start
  · rw [show c = _ from hw.eq]
    exact (Graph.ofList nodes).ran_submit t o bs _

/-! ### What acyclic input leads to -/

theorem lookups_of_acyclic (h : ∀ i, ¬OnCycle (Graph.ofList nodes).parent i) :
    (createHierarchy t o nodes s).lookups = lookupsFor o nodes := by
  rw [createHierarchy_of_acyclic h]
  cases knownParents t o nodes s with
  | error e => rfl
  | ok ex => exact Graph.lookups_checkAndWrite ..

/-- Once it is known which parents exist, no look-up is reported to have failed, and a report is the
one for them. -/
theorem result_of_known (h : ∀ i, ¬OnCycle (Graph.ofList nodes).parent i) {ex : String → Bool}
    (hk : knownParents t o nodes s = .ok ex) :
    (∀ e, (createHierarchy t o nodes s).result ≠ .error (.existenceCheck e)) ∧
      ∀ report, (createHierarchy t o nodes s).result = .error (.invalidStructure report) →
        report = (Graph.ofList nodes).validate ex := by
  by_cases hv : (Graph.ofList nodes).Valid ex
  · obtain ⟨bs, hw⟩ := exists_written hk hv
    rcases hw.result_cases with ⟨created, hok⟩ | ⟨outcome, hpartial⟩
    · rw [hok]
      exact ⟨fun _ => nofun, fun _ => nofun⟩
    · rw [hpartial]
      exact ⟨fun _ => nofun, fun _ => nofun⟩
  · rw [createHierarchy_of_not_valid h hk hv]
    refine ⟨fun _ => nofun, fun report hreport => ?_⟩
    injection hreport with hreport
    injection hreport with hreport
    exact hreport.symm

/-! ### The order of the checks -/

/-- A cycle comes first, then a look-up that fails, then any other problem; what is left is written
by some plan. -/
theorem createHierarchy_checks (t : Transport σ) (o : Options σ) (nodes : List Node) (s : σ) :
    let g := Graph.ofList nodes
    let c := createHierarchy t o nodes s
    ((∃ i, OnCycle g.parent i) →
      c.result = .error (.invalidStructure (g.validate fun _ => false)) ∧
        c.lookups = [] ∧ c.calls = [] ∧ c.state = s) ∧
    ((∀ i, ¬OnCycle g.parent i) →
      (c.lookups =
        if o.assumeParentsExist = false ∧ outsideParents nodes ≠ [] then [outsideParents nodes]
        else []) ∧
      (∀ e, knownParents t o nodes s = .error e →
        c.result = .error (.existenceCheck e) ∧ c.calls = [] ∧
          c.state = afterLookup t o nodes s) ∧
      (∀ ex, knownParents t o nodes s = .ok ex →
        ((∃ issue, (g.validate ex).nodes issue ≠ []) →
          c.result = .error (.invalidStructure (g.validate ex)) ∧ c.calls = [] ∧
            c.state = afterLookup t o nodes s) ∧
        ((∀ issue, (g.validate ex).nodes issue = []) →
          (∀ size, ∃ bs, g.plan size = .ok bs) ∧
            ((∃ created, c.result = .ok created) ∨
              ∃ outcome, c.result = .error (.partialSubmission outcome))))) ∧
    (c.calls ≠ [] →
      (∀ report, c.result ≠ .error (.invalidStructure report)) ∧
        ∀ e, c.result ≠ .error (.existenceCheck e)) := by
  intro g c
  refine ⟨?_, fun hacyclic => ⟨?_, ?_, fun ex hk => ⟨?_, ?_⟩⟩, ?_⟩
  · rintro ⟨i, hi⟩
    rw [show c = _ from createHierarchy_of_onCycle hi]
    exact ⟨rfl, rfl, rfl, rfl⟩
  · show c.lookups = lookupsFor o nodes
    rw [show c = _ from createHierarchy_of_acyclic hacyclic]
    cases knownParents t o nodes s with
    | error e => rfl
    | ok ex => exact Graph.lookups_checkAndWrite ..
  · intro e hk
    rw [show c = _ from createHierarchy_of_lookup_error hacyclic hk]
    exact ⟨rfl, rfl, rfl⟩
  · rintro ⟨issue, hissue⟩
    have hv : ¬g.Valid ex := fun h => hissue (Graph.valid_iff_nodes_eq_nil.mp h issue)
    rw [show c = _ from createHierarchy_of_not_valid hacyclic hk hv]
    exact ⟨rfl, rfl, rfl⟩
  · intro hissues
    obtain ⟨bs, hw⟩ := exists_written hk (Graph.valid_iff_nodes_eq_nil.mpr hissues)
    exact ⟨Graph.exists_plan hacyclic, hw.result_cases⟩
  · intro hcalls
    obtain ⟨ex, bs, hw⟩ :=
      (refused_or_written t o nodes s).resolve_left fun h => hcalls h.1
    rcases hw.result_cases with ⟨created, h⟩ | ⟨outcome, h⟩
    · rw [show c.result = _ from h]
      exact ⟨fun _ => nofun, fun _ => nofun⟩
    · rw [show c.result = _ from h]
      exact ⟨fun _ => nofun, fun _ => nofun⟩

end AssetHierarchy
