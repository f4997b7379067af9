import AssetHierarchy.Proofs.Gatekeeping
import AssetHierarchy.Simulation.MemoryTransport

/-! Parents outside of the input that are taken to exist. Nothing is looked up then, and a report
lists no orphans, with one exception: an input with a cycle is refused before anything is known of
the parents outside, and all of them count as missing in its report. -/
namespace AssetHierarchy

variable {σ : Type}

theorem Report.without_orphans {r : Report} (h : r.orphans = []) :
    { r with orphans := [] } = r := by
  rw [← h]

namespace Graph

variable {n : Nat} (g : Graph n)

theorem orphans_of_all_exist : (g.validate fun _ => true).orphans = [] := by
  simp only [validate, nodesWhere_eq_nil_iff]
  intro i
  unfold isOrphan
  cases g.unresolvedParent i <;> simp

/-- Which parents exist matters for the orphans only. -/
theorem validate_apart_from_orphans (exists? : String → Bool) :
    { g.validate exists? with orphans := [] } = g.validate fun _ => true :=
  calc { g.validate exists? with orphans := [] }
    _ = { (g.validate fun _ => true) with orphans := [] } := rfl
    _ = g.validate fun _ => true := Report.without_orphans g.orphans_of_all_exist

end Graph

variable {t : Transport σ} {o : Options σ} {nodes : List Node} {s : σ}

theorem lookupsFor_of_assumed (h : o.assumeParentsExist = true) (nodes : List Node) :
    lookupsFor o nodes = [] := by
  simp [lookupsFor, h]

theorem knownParents_of_assumed (h : o.assumeParentsExist = true) (t : Transport σ)
    (nodes : List Node) (s : σ) : knownParents t o nodes s = .ok fun _ => true :=
  if_pos h

/-- The report of a refusal is the one for an input all of whose parents outside exist, but for the
orphans of an input with a cycle. Such an input is refused before anything is sent, and its orphans
are the nodes on no cycle that name a parent outside. -/
theorem createHierarchy_of_assumed (t : Transport σ) (o : Options σ) (nodes : List Node) (s : σ)
    (h : o.assumeParentsExist = true) :
    let g := Graph.ofList nodes
    let c := createHierarchy t o nodes s
    c.lookups = [] ∧
    ((∃ j, OnCycle g.parent j) → c.calls = [] ∧ c.state = s ∧
      ∃ report, c.result = .error (.invalidStructure report)) ∧
    ∀ report, c.result = .error (.invalidStructure report) →
      { report with orphans := [] } = g.validate (fun _ => true) ∧
      ∃ orphans : List (Fin nodes.length), orphans.Pairwise (· < ·) ∧
        (∀ i, i ∈ orphans ↔ (∃ j, OnCycle g.parent j) ∧ ¬OnCycle g.parent i ∧
          ∃ p, (nodes.get i).outsideParent? nodes = some p) ∧
        report.orphans = orphans.map nodes.get := by
  intro g c
  by_cases hcycle : ∃ j, OnCycle g.parent j
  · obtain ⟨j, hj⟩ := hcycle
    rw [show c = _ from createHierarchy_of_onCycle hj]
    refine ⟨rfl, fun _ => ⟨rfl, rfl, _, rfl⟩, fun report hreport => ?_⟩
    injection hreport with hreport
    injection hreport with hreport
    subst hreport
    refine ⟨g.validate_apart_from_orphans _, (List.finRange nodes.length).filter fun i =>
      !g.cycleFlags.get i && g.isOrphan (fun _ => false) i,
      (List.pairwise_lt_finRange _).filter _, fun i => ?_, Graph.nodesWhere_ofList nodes _⟩
    have hflag := g.get_cycleFlags_eq_false_iff i
    have horphan : g.isOrphan (fun _ => false) i = true ↔
        ∃ p, (nodes.get i).outsideParent? nodes = some p := by
      rw [Graph.isOrphan_ofList]
      cases (nodes.get i).outsideParent? nodes <;> simp
    rw [List.mem_filter, Bool.and_eq_true, Bool.not_eq_true', hflag, horphan]
    exact ⟨fun hi => ⟨⟨j, hj⟩, hi.2⟩, fun hi => ⟨List.mem_finRange i, hi.2⟩⟩
  · have hacyclic : ∀ i, ¬OnCycle g.parent i := not_exists.mp hcycle
    refine ⟨?_, fun h => absurd h hcycle, fun report hreport => ?_⟩
    · exact (lookups_of_acyclic hacyclic).trans (lookupsFor_of_assumed h nodes)
    · have hknown := knownParents_of_assumed h t nodes s
      obtain rfl := (result_of_known hacyclic hknown).2 report hreport
      refine ⟨g.validate_apart_from_orphans _, [], .nil, fun i => ?_, g.orphans_of_all_exist⟩
      exact iff_of_false List.not_mem_nil fun hi => hcycle hi.1

/-! ### An orphan whose parent was taken to exist -/

/-- Two nodes that are each other's parent, and one below an asset outside of the input. -/
def besideCycle : List Node :=
  [(Node.named "a" "A").withParent "b", (Node.named "b" "B").withParent "a",
    (Node.named "c" "C").withParent "site"]

theorem onCycle_besideCycle : OnCycle (Graph.ofList besideCycle).parent ⟨0, by decide⟩ :=
  (Graph.mem_cycleMembers _).mp (by decide +kernel)

/-- The parent is assumed to exist, and yet its child is listed as an orphan. -/
theorem orphan_despite_assumption :
    ∃ report, (createHierarchy (TransportScript.transport {}) { assumeParentsExist := true }
        besideCycle {}).result = .error (.invalidStructure report) ∧
      report ≠ (Graph.ofList besideCycle).validate (fun _ => true) ∧
      report.orphans = [(Node.named "c" "C").withParent "site"] :=
  ⟨_, congrArg Creation.result (createHierarchy_of_onCycle onCycle_besideCycle),
    by decide +kernel, by decide +kernel⟩

theorem createHierarchy_of_assumed_besideCycle :
    let c := createHierarchy (TransportScript.transport {}) { assumeParentsExist := true }
      besideCycle {}
    c.lookups = [] ∧ c.calls = [] ∧ ∃ report, c.result = .error (.invalidStructure report) ∧
      { report with orphans := [] } = (Graph.ofList besideCycle).validate fun _ => true := by
  intro c
  obtain ⟨hlookups, hcyclic, hreports⟩ := createHierarchy_of_assumed
    (TransportScript.transport {}) { assumeParentsExist := true } besideCycle {} rfl
  obtain ⟨hcalls, -, report, hresult⟩ := hcyclic ⟨_, onCycle_besideCycle⟩
  exact ⟨hlookups, hcalls, report, hresult, (hreports report hresult).1⟩

end AssetHierarchy
