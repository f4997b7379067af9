import AssetHierarchy.Proofs.Attempts

/-! What it means over a connection that a node counts as failed. Its last answer, if it was sent at
all, had no effect; the answers before asked for another try. The client goes by the last answer
alone, so that a node counts as failed also when an earlier answer was a server error and the node
may have been written then. -/
namespace AssetHierarchy

namespace Answer

theorem mayHaveActed_eq_false_iff {x : Answer} : x.mayHaveActed = false ↔
    x.isSuccess = false ∧ x.isServerError = false ∧ x.isLost = false := by
  simp [mayHaveActed, and_assoc]

end Answer

/-- The answers to the attempts that carried a node which was not written by the last of them. -/
structure Refused (answers : List Answer) : Prop where
  asked_again : ∀ x ∈ answers.dropLast, x.asksAgain = true
  last_refused : ∀ x ∈ answers.getLast?, x.mayHaveActed = false

namespace Refused

variable {answers : List Answer}

theorem nil : Refused [] := ⟨nofun, nofun⟩

theorem isSuccess_eq_false (h : Refused answers) {x : Answer} (hx : x ∈ answers) :
    x.isSuccess = false ∧ x.isLost = false := by
  rcases mem_dropLast_or_getLast? hx with hx | hx
  · have hagain := h.asked_again x hx
    exact ⟨Answer.isSuccess_of_asksAgain hagain, Answer.isLost_of_asksAgain hagain⟩
  · obtain ⟨hsuccess, -, hlost⟩ := Answer.mayHaveActed_eq_false_iff.mp (h.last_refused x hx)
    exact ⟨hsuccess, hlost⟩

/-- Nothing was written at all unless the client tried again after a server error. -/
theorem mayHaveActed_iff (h : Refused answers) :
    (∀ x ∈ answers, x.mayHaveActed = false) ↔
      ∀ x ∈ answers.dropLast, x.isServerError = false := by
  constructor
  · intro hall x hx
    exact (Answer.mayHaveActed_eq_false_iff.mp (hall x (List.mem_of_mem_dropLast hx))).2.1
  · intro hdrop x hx
    obtain ⟨hsuccess, hlost⟩ := h.isSuccess_eq_false hx
    refine Answer.mayHaveActed_eq_false_iff.mpr ⟨hsuccess, ?_, hlost⟩
    rcases mem_dropLast_or_getLast? hx with hx | hx
    · exact hdrop x hx
    · exact (Answer.mayHaveActed_eq_false_iff.mp (h.last_refused x hx)).2.1

end Refused

/-- An answer that may have had an effect does not lead to a node that counts as failed. -/
theorem Reflects.refused {answers : List Answer} {outcome : Option SubmitOutcome}
    (h : Reflects answers outcome) (hcreated : (answered outcome).isCreated = false)
    (huncertain : (answered outcome).isUncertain = false) : Refused answers := by
  refine ⟨h.asked_again, fun x hx => Bool.eq_false_iff.mpr fun hacted => ?_⟩
  have hopen := h.left_open x hx hacted
  rcases answered_refused_iff.mp ⟨hcreated, huncertain⟩ with ⟨code, reason, rfl⟩ | ⟨reason, rfl⟩
  · simp [SubmitOutcome.isSuccess, SubmitOutcome.isAmbiguous] at hopen
  · simp [SubmitOutcome.isSuccess, SubmitOutcome.isAmbiguous] at hopen

/-! ### Nodes and their answers -/

section

variable {σ : Type} {a : AssetService} {peer : Peer σ} {o : Options σ} {nodes : List Node}
  {s : Session σ} {ex : String → Bool} {bs : List (Batch nodes.length)}

/-- The attempts that creating the nodes added to the record of the session. -/
def AssetService.newAttempts (a : AssetService) (peer : Peer σ) (o : Options σ) (nodes : List Node)
    (s : Session σ) : List Attempt :=
  (a.createHierarchy peer o.onSession nodes s).state.attempts.toList.drop s.attempts.size

theorem Written.calls_eq (hw : Written (a.transport peer) o.onSession nodes s ex bs) :
    (a.createHierarchy peer o.onSession nodes s).calls =
      (runOver (a.transport peer) o.onSession nodes s bs).calls :=
  congrArg Creation.calls hw.eq

theorem Written.refused (hw : Written (a.transport peer) o.onSession nodes s ex bs)
    {i : Fin nodes.length}
    (hcreated : ((runOver (a.transport peer) o.onSession nodes s bs).table.get i).isCreated = false)
    (huncertain :
      ((runOver (a.transport peer) o.onSession nodes s bs).table.get i).isUncertain = false) :
    Refused (a.answersTo ((Graph.ofList nodes).node i).xid (a.newAttempts peer o nodes s)) := by
  have hinv := hw.invariant
  have horder := (Graph.rooted_ofList nodes).writingOrder hw.plan
  obtain ⟨lookups, log, hnew, hread, hlogged⟩ := a.exists_log_createHierarchy peer o nodes s
  rw [hw.calls_eq] at hlogged
  rw [AssetService.newAttempts, hnew, AssetService.answersTo_append,
    AssetService.answersTo_of_read hread, List.nil_append]
  have hentries := fun k hk => (hinv.calls_of k hk).2.1
  by_cases hsent : ∃ k, (runOver (a.transport peer) o.onSession nodes s bs).Sent k i
  · obtain ⟨k, hk, hik⟩ := hsent
    have hreflects := hlogged.reflects hw.valid.distinctIds hw.valid.named hentries
      (horder.nodup.sublist hinv.positions_sublist) hk hik
    rw [hinv.sent k hk i hik] at hcreated huncertain
    exact hreflects.refused hcreated huncertain
  · have hnot := hlogged.answersTo_of_notMem hw.valid.distinctIds hw.valid.named hentries
      fun k hk hik => hsent ⟨k, hk, hik⟩
    rw [hnot]
    exact .nil

theorem Written.refused_of_failed (hw : Written (a.transport peer) o.onSession nodes s ex bs)
    {node : Node} (h : node ∈ ((runOver (a.transport peer) o.onSession nodes s bs).table.outcomes
      (Graph.ofList nodes)).failed) :
    Refused (a.answersTo node.xid (a.newAttempts peer o nodes s)) := by
  obtain ⟨i, hcreated, huncertain, rfl⟩ := Table.mem_failed.mp h
  exact hw.refused hcreated huncertain

/-- A last answer that may have had an effect leaves the node unknown, unless it was created. -/
theorem Written.mem_unknown (hw : Written (a.transport peer) o.onSession nodes s ex bs)
    {node : Node} (hnode : node ∈ nodes)
    (hnot : node.xid ∉ ((runOver (a.transport peer) o.onSession nodes s bs).table.outcomes
      (Graph.ofList nodes)).createdIds)
    {x : Answer} (hx : x ∈ (a.answersTo node.xid (a.newAttempts peer o nodes s)).getLast?)
    (hacted : x.mayHaveActed = true) :
    node ∈ ((runOver (a.transport peer) o.onSession nodes s bs).table.outcomes
      (Graph.ofList nodes)).unknown := by
  obtain ⟨i, rfl⟩ := List.mem_iff_get.mp hnode
  rw [← Graph.node_ofList] at hnot hx ⊢
  by_contra hunknown
  have hcreated := Bool.eq_false_iff.mpr fun hi => hnot (Table.xid_mem_createdIds hi)
  have huncertain := Bool.eq_false_iff.mpr fun hi => hunknown (Table.mem_unknown.mpr ⟨i, hi, rfl⟩)
  rw [(hw.refused hcreated huncertain).last_refused x hx] at hacted
  contradiction

theorem Written.exists_answer (hw : Written (a.transport peer) o.onSession nodes s ex bs)
    {t : Attempt} (ht : t ∈ a.newAttempts peer o nodes s) (hwrite : a.isWrite t.message = true) :
    ∃ i, t.answer ∈ a.answersTo ((Graph.ofList nodes).node i).xid
      (a.newAttempts peer o nodes s) := by
  obtain ⟨lookups, log, hnew, hread, hlogged⟩ := a.exists_log_createHierarchy peer o nodes s
  rw [hw.calls_eq] at hlogged
  have hentries := fun k hk => (hw.invariant.calls_of k hk).2.1
  have hmem := ht
  rw [AssetService.newAttempts, hnew] at hmem
  rcases List.mem_append.mp hmem with hmem | hmem
  · rw [hread t hmem] at hwrite
    contradiction
  · obtain ⟨k, -, i, -, -, hcarries⟩ :=
      hlogged.exists_carried hw.valid.named hentries hmem
    exact ⟨i, AssetService.mem_answersTo.mpr ⟨t, ht, hwrite, hcarries, rfl⟩⟩

end

theorem OutcomeSet.eq_of_result {o out : OutcomeSet}
    (h : o.result = .error (.partialSubmission out)) : o = out := by
  rw [OutcomeSet.result_eq] at h
  split at h
  · contradiction
  · injection h with h
    injection h

/-- A node counts as failed when the last answer refuses it. That nothing was written of it is
certain exactly when the client never tried again after a server error. -/
theorem partialSubmission_answers {σ : Type} (a : AssetService) (peer : Peer σ) (o : Options σ)
    (nodes : List Node) (s : Session σ) {out : OutcomeSet}
    (h : (a.createHierarchy peer o.onSession nodes s).result =
      .error (.partialSubmission out)) :
    let log := a.newAttempts peer o nodes s
    let answers := fun node : Node => a.answersTo node.xid log
    (∀ node ∈ out.failed,
      (∀ x ∈ (answers node).dropLast, x.asksAgain = true) ∧
      (∀ x ∈ (answers node).getLast?, x.mayHaveActed = false) ∧
      ((∀ x ∈ answers node, x.mayHaveActed = false) ↔
        ∀ x ∈ (answers node).dropLast, x.isServerError = false)) ∧
    (∀ node ∈ nodes, node.xid ∉ out.createdIds →
      (∃ x ∈ (answers node).getLast?, x.mayHaveActed = true) → node ∈ out.unknown) ∧
    ((HierarchyError.partialSubmission out).mayHaveWritten = false →
      (∀ t ∈ log, a.isWrite t.message = true →
        t.answer.isSuccess = false ∧ t.answer.isLost = false) ∧
      ((∀ t ∈ log, a.isWrite t.message = true → t.answer.mayHaveActed = false) ↔
        ∀ node ∈ out.failed, ∀ x ∈ (answers node).dropLast, x.isServerError = false)) := by
  intro log answers
  obtain ⟨ex, bs, hw⟩ := (refused_or_written (a.transport peer) o.onSession nodes s).resolve_left
    fun hrefused => hrefused.2 out h
  have hout : (runOver (a.transport peer) o.onSession nodes s bs).table.outcomes
      (Graph.ofList nodes) = out := by
    have hresult := congrArg Creation.result hw.eq
    exact OutcomeSet.eq_of_result (hresult.symm.trans h)
  subst hout
  refine ⟨?_, ?_, ?_⟩
  · intro node hnode
    have hrefused := hw.refused_of_failed hnode
    exact ⟨hrefused.asked_again, hrefused.last_refused, hrefused.mayHaveActed_iff⟩
  · rintro node hnode hnot ⟨x, hx, hacted⟩
    exact hw.mem_unknown hnode hnot hx hacted
  · intro hnone
    rw [Table.mayHaveWritten_eq_false_iff] at hnone
    have hcarried : ∀ t ∈ log, a.isWrite t.message = true →
        ∃ node ∈ (Table.outcomes (Graph.ofList nodes)
          (runOver (a.transport peer) o.onSession nodes s bs).table).failed,
          t.answer ∈ answers node := by
      intro t ht hwrite
      obtain ⟨i, hi⟩ := hw.exists_answer ht hwrite
      exact ⟨_, Table.mem_failed.mpr ⟨i, (hnone i).1, (hnone i).2, rfl⟩, hi⟩
    refine ⟨?_, ?_, ?_⟩
    · intro t ht hwrite
      obtain ⟨node, hnode, hx⟩ := hcarried t ht hwrite
      exact (hw.refused_of_failed hnode).isSuccess_eq_false hx
    · intro hall node hnode
      refine (hw.refused_of_failed hnode).mayHaveActed_iff.mp fun x hx => ?_
      obtain ⟨t, ht, hwrite, -, rfl⟩ := AssetService.mem_answersTo.mp hx
      exact hall t ht hwrite
    · intro hcalm t ht hwrite
      obtain ⟨node, hnode, hx⟩ := hcarried t ht hwrite
      exact (hw.refused_of_failed hnode).mayHaveActed_iff.mpr (hcalm node hnode) t.answer hx

/-! ### A server error that is forgotten -/

/-- A client that makes a request twice if it is asked to. -/
def twoTries : AssetService where
  config :=
    { project := ⟨"p", by decide +kernel⟩
      token := ⟨"t", by decide⟩
      clientName := ⟨"c", by decide +kernel⟩
      baseUrl := ⟨"http://h"⟩
      apiVersion := .v1
      maxWorkers := 1
      timeout := 30000
      maxTries := 2
      createLimit := 1000
      one_le_maxWorkers := by decide
      one_le_maxTries := by decide
      one_le_createLimit := by decide
      createLimit_le := by decide }

/-- A server that fails at the first attempt and refuses the second, as one does that has written
the asset at the first. -/
def failsThenRefuses : ServerScript where
  authority := "h"
  rules :=
    [{ path := some "assets", answer := .reply 503 [] "" false },
     { path := some "assets", answer := .reply 409 [] "" false }]

theorem result_eq_of_outcome? {r : Except HierarchyError (List CreatedAsset)} {out : OutcomeSet}
    (h : (match r with | .ok _ => none | .error e => e.outcome?) = some out) :
    r = .error (.partialSubmission out) := by
  cases r with
  | ok created => contradiction
  | error e =>
    cases e with
    | partialSubmission outcome => rw [Option.some.inj h]
    | invalidStructure report => contradiction
    | existenceCheck cause => contradiction

theorem result_twoTries :
    (twoTries.createHierarchy ServerScript.peer (Options.onSession {}) [.named "pump" "Pump"]
      { peer := failsThenRefuses }).result =
      .error (.partialSubmission { failed := [.named "pump" "Pump"] }) :=
  result_eq_of_outcome? (by decide +kernel)

/-- The node counts as failed and nothing as written, but the first answer was a server error. -/
theorem failed_after_serverError :
    (∃ out, (twoTries.createHierarchy ServerScript.peer (Options.onSession {})
        [.named "pump" "Pump"] { peer := failsThenRefuses }).result =
          .error (.partialSubmission out) ∧
        .named "pump" "Pump" ∈ out.failed ∧
        (HierarchyError.partialSubmission out).mayHaveWritten = false) ∧
      (twoTries.answersTo "pump" (twoTries.newAttempts ServerScript.peer {}
        [.named "pump" "Pump"] { peer := failsThenRefuses })).map Answer.status? =
          [some 503, some 409] :=
  ⟨⟨_, result_twoTries, by decide, rfl⟩, by decide +kernel⟩

theorem partialSubmission_answers_twoTries :
    let answers := twoTries.answersTo "pump" (twoTries.newAttempts ServerScript.peer {}
      [.named "pump" "Pump"] { peer := failsThenRefuses })
    (∀ x ∈ answers.dropLast, x.asksAgain = true) ∧ ¬∀ x ∈ answers, x.mayHaveActed = false := by
  intro answers
  obtain ⟨hfailed, -, -⟩ := partialSubmission_answers twoTries ServerScript.peer {}
    [.named "pump" "Pump"] { peer := failsThenRefuses } result_twoTries
  obtain ⟨hagain, -, hiff⟩ := hfailed (.named "pump" "Pump") (by decide)
  refine ⟨hagain, fun hall => absurd (hiff.mp hall) ?_⟩
  decide +kernel

end AssetHierarchy
