import AssetHierarchy.Proofs.NotWritten

/-! How the answers to the look-ups decide what becomes of parents outside of the input. Each parent
is carried by one look-up, and the last answer to that is what counts. If one of them is no success,
or lists assets that cannot be decoded, the look-up fails. A success that is empty, breaks off or is
no JSON does not count as a failure: it is read as a list without assets, and the children of the
parents that it should have told of are reported as orphans. -/
namespace AssetHierarchy

variable {σ : Type}

/-! ### Joined results -/

section

variable {ε α : Type} {results : List (Except ε (List α))}

theorem concatResults_cons_ok (as : List α) (results : List (Except ε (List α))) :
    concatResults (.ok as :: results) = (concatResults results).map (as ++ ·) := by
  show (do let bs ← concatResults results; Except.ok (as ++ bs)) = _
  cases concatResults results <;> rfl

theorem concatResults_eq_ok_iff {as : List α} : concatResults results = .ok as ↔
    ∃ lists : List (List α), results = lists.map .ok ∧ as = lists.flatten := by
  constructor
  · intro h
    induction results generalizing as with
    | nil => exact ⟨[], rfl, (Except.ok.inj h).symm⟩
    | cons r rest ih =>
      cases r with
      | error e => contradiction
      | ok bs =>
        rw [concatResults_cons_ok] at h
        cases hrest : concatResults rest with
        | error e =>
          rw [hrest] at h
          contradiction
        | ok cs =>
          obtain ⟨lists, rfl, rfl⟩ := ih hrest
          rw [hrest] at h
          exact ⟨bs :: lists, rfl, (Except.ok.inj h).symm⟩
  · rintro ⟨lists, rfl, rfl⟩
    induction lists with
    | nil => rfl
    | cons bs lists ih =>
      rw [List.map_cons, concatResults_cons_ok, ih]
      rfl

/-- The first error is what the results come to. -/
theorem concatResults_eq_error_iff {e : ε} : concatResults results = .error e ↔
    ∃ (before : List (List α)) (after : List (Except ε (List α))),
      results = before.map .ok ++ .error e :: after := by
  constructor
  · intro h
    induction results with
    | nil => contradiction
    | cons r rest ih =>
      cases r with
      | error e' => exact ⟨[], rest, by rw [Except.error.inj h]; rfl⟩
      | ok bs =>
        rw [concatResults_cons_ok] at h
        cases hrest : concatResults rest with
        | ok cs =>
          rw [hrest] at h
          contradiction
        | error e' =>
          rw [hrest] at h
          obtain rfl : e' = e := Except.error.inj h
          obtain ⟨before, after, rfl⟩ := ih hrest
          exact ⟨bs :: before, after, rfl⟩
  · rintro ⟨before, after, rfl⟩
    induction before with
    | nil => rfl
    | cons bs before ih =>
      rw [List.map_cons, List.cons_append, concatResults_cons_ok, ih]
      rfl

end

/-! ### Requests that look up external ids -/

/-- Asks which of some external ids there are. -/
def lookupRequest (ids : List String) : Request :=
  (Request.postItems "assets/byids" (ids.map fun x => (Identifier.externalId x).toJson)).withField
    "ignoreUnknownIds" (.bool true)

namespace AssetService

variable (a : AssetService)

/-- The answers to the attempts that asked for an external id, in order. -/
def answersAbout (x : String) (log : List Attempt) : List Answer :=
  answersWhere (fun m => a.isLookup m && m.carries x) log

/-- What is read of the answers about an external id: the list of assets in the last of them.
Nothing is read if that is no success or cannot be decoded. -/
def readAbout (x : String) (log : List Attempt) : Option (List Asset) :=
  (a.answersAbout x log).getLast?.bind Answer.assets?

variable {a}

theorem retrieveRequests_externalIds (ids : List String) :
    a.retrieveRequests (ids.map .externalId) true = (chunks a.limit ids).map lookupRequest := by
  rw [retrieveRequests, chunks_map, List.map_map]
  refine List.map_congr_left fun part _ => ?_
  simp [lookupRequest, Function.comp_def]

theorem isLookup_request (ids : List String) :
    a.isLookup (a.client.message (lookupRequest ids)) = true :=
  beq_self_eq_true _

theorem carries_lookupRequest {ids : List String} {x : String} :
    (a.client.message (lookupRequest ids)).carries x = true ↔ x ∈ ids := by
  have hitems : ServerScript.itemsOf (a.client.message (lookupRequest ids)).body =
      ids.map fun x => (Identifier.externalId x).toJson := by
    have hne : "items" ≠ "ignoreUnknownIds" := by decide
    simp [ServerScript.itemsOf, Client.message, lookupRequest, Request.postItems, Request.post,
      Request.withField, Json.get?, Json.lookup_insert_of_ne hne, Json.asArray?]
  have hid : ∀ y : String, ServerScript.externalIdOf? (Identifier.externalId y).toJson = some y :=
    fun y => rfl
  simp [Message.carries, hitems, hid]

theorem answersAbout_append (x : String) (log₁ log₂ : List Attempt) :
    a.answersAbout x (log₁ ++ log₂) = a.answersAbout x log₁ ++ a.answersAbout x log₂ :=
  answersWhere_append log₁ log₂

theorem readAbout_congr {x : String} {log₁ log₂ : List Attempt}
    (h : a.answersAbout x log₁ = a.answersAbout x log₂) :
    a.readAbout x log₁ = a.readAbout x log₂ := by
  rw [readAbout, h, readAbout]

theorem answersAbout_request (x : String) (ids : List String) (answers : List Answer) :
    a.answersAbout x (answers.map (⟨a.client.message (lookupRequest ids), ·⟩)) =
      if x ∈ ids then answers else [] := by
  rw [answersAbout, answersWhere_map, isLookup_request, Bool.true_and]
  simp only [carries_lookupRequest]

theorem answersAbout_of_write {log : List Attempt} (h : ∀ t ∈ log, a.isWrite t.message = true)
    (x : String) : a.answersAbout x log = [] := by
  refine answersWhere_eq_nil fun t ht => Bool.eq_false_iff.mpr fun hlookup => ?_
  have hread := isWrite_eq_false_of_isLookup (Bool.and_eq_true_iff.mp hlookup).1
  rw [h t ht] at hread
  contradiction

end AssetService

/-! ### What is read of each external id -/

/-- The record tells of each external id what one of the requests came to, and no request is without
an external id. -/
structure ReadAs (a : AssetService) (ended : Bool) (ids : List String)
    (results : List (Except HttpError (List Asset))) (log : List Attempt) : Prop where
  exists_result : ∀ x ∈ ids, ∃ r ∈ results, a.readAbout x log = r.toOption
  exists_id : ∀ r ∈ results, ∃ x ∈ ids, a.readAbout x log = r.toOption
  ended_of_unanswered : ∀ x ∈ ids, a.answersAbout x log = [] → ended = true

section

variable {a : AssetService} {peer : Peer σ} {ended : Bool} {state : σ}
  {parts : List (List String)} {ids : List String}
  {results : List (Except HttpError (List Asset))} {log writes : List Attempt}

theorem Fetched.answersAbout_of_notMem
    (h : Fetched a peer ended state (parts.map lookupRequest) results log) {x : String}
    (hx : x ∉ parts.flatten) : a.answersAbout x log = [] := by
  generalize hrs : parts.map lookupRequest = rs at h
  induction h generalizing parts with
  | nil => rfl
  | cons _ _ _ ih =>
    obtain ⟨part, rest, rfl, rfl, hrest⟩ := List.map_eq_cons_iff.mp hrs
    rw [List.flatten_cons, List.mem_append, not_or] at hx
    rw [AssetService.answersAbout_append, AssetService.answersAbout_request, if_neg hx.1,
      ih hx.2 hrest]
    rfl

theorem Fetched.readAs (h : Fetched a peer ended state (parts.map lookupRequest) results log)
    (hne : ∀ part ∈ parts, part ≠ []) (hnodup : parts.flatten.Nodup) :
    ReadAs a ended parts.flatten results log := by
  generalize hrs : parts.map lookupRequest = rs at h
  induction h generalizing parts with
  | nil =>
    obtain rfl := List.map_eq_nil_iff.mp hrs
    exact ⟨nofun, nofun, nofun⟩
  | @cons state r rs k result results log hr hanswered hf ih =>
    obtain ⟨part, rest, rfl, rfl, rfl⟩ := List.map_eq_cons_iff.mp hrs
    have hread := hr.read
    rw [← Peer.firstAnswers_eq_nil_iff] at hanswered
    generalize peer.firstAnswers (a.client.message (lookupRequest part)) state k = answers at *
    rw [List.forall_mem_cons] at hne
    rw [List.flatten_cons, List.nodup_append] at hnodup
    obtain ⟨-, hnodup, hdisjoint⟩ := hnodup
    have hlater := ih hne.2 hnodup rfl
    -- an external id is in the first request or in a later one, never in both
    have hfirst : ∀ x ∈ part, a.answersAbout x (answers.map
        (⟨a.client.message (lookupRequest part), ·⟩) ++ log) = answers := by
      intro x hx
      have hnot : x ∉ rest.flatten := fun hmem => hdisjoint x hx x hmem rfl
      rw [AssetService.answersAbout_append, AssetService.answersAbout_request, if_pos hx,
        hf.answersAbout_of_notMem hnot, List.append_nil]
    have hrest : ∀ x ∈ rest.flatten, a.answersAbout x (answers.map
        (⟨a.client.message (lookupRequest part), ·⟩) ++ log) = a.answersAbout x log := by
      intro x hx
      have hnot : x ∉ part := fun hmem => hdisjoint x hmem x hx rfl
      rw [AssetService.answersAbout_append, AssetService.answersAbout_request, if_neg hnot,
        List.nil_append]
    constructor
    · intro x hx
      rcases List.mem_append.mp hx with hx | hx
      · refine ⟨result, List.mem_cons_self, ?_⟩
        rw [AssetService.readAbout, hfirst x hx, hread]
      · obtain ⟨r, hr, hread⟩ := hlater.exists_result x hx
        refine ⟨r, List.mem_cons_of_mem _ hr, ?_⟩
        rw [AssetService.readAbout_congr (hrest x hx), hread]
    · intro r hr
      rcases List.mem_cons.mp hr with rfl | hr
      · obtain ⟨x, hx⟩ := List.exists_mem_of_ne_nil _ hne.1
        refine ⟨x, List.mem_append_left _ hx, ?_⟩
        rw [AssetService.readAbout, hfirst x hx, hread]
      · obtain ⟨x, hx, hread⟩ := hlater.exists_id r hr
        refine ⟨x, List.mem_append_right _ hx, ?_⟩
        rw [AssetService.readAbout_congr (hrest x hx), hread]
    · intro x hx hnil
      rcases List.mem_append.mp hx with hx | hx
      · exact hanswered ((hfirst x hx).symm.trans hnil)
      · exact hlater.ended_of_unanswered x hx ((hrest x hx).symm.trans hnil)

namespace ReadAs

theorem append_writes (h : ReadAs a ended ids results log)
    (hwrites : ∀ t ∈ writes, a.isWrite t.message = true) :
    ReadAs a ended ids results (log ++ writes) := by
  have hanswers : ∀ x, a.answersAbout x (log ++ writes) = a.answersAbout x log := by
    intro x
    rw [AssetService.answersAbout_append, AssetService.answersAbout_of_write hwrites,
      List.append_nil]
  constructor
  · intro x hx
    rw [AssetService.readAbout_congr (hanswers x)]
    exact h.exists_result x hx
  · intro r hr
    obtain ⟨x, hx, hread⟩ := h.exists_id r hr
    exact ⟨x, hx, (AssetService.readAbout_congr (hanswers x)).trans hread⟩
  · intro x hx hnil
    exact h.ended_of_unanswered x hx ((hanswers x).symm.trans hnil)

theorem exists_unread (h : ReadAs a ended ids results log) {e : HttpError}
    (he : concatResults results = .error e) : ∃ x ∈ ids, a.readAbout x log = none := by
  obtain ⟨before, after, rfl⟩ := concatResults_eq_error_iff.mp he
  exact h.exists_id (.error e) (by simp)

/-- All external ids are read if the look-up comes to a list, and that holds what is read of any of
them. -/
theorem mem_iff (h : ReadAs a ended ids results log) {assets : List Asset}
    (hassets : concatResults results = .ok assets) :
    (∀ x ∈ ids, (a.readAbout x log).isSome = true) ∧
      ∀ asset, asset ∈ assets ↔
        ∃ x ∈ ids, ∃ read, a.readAbout x log = some read ∧ asset ∈ read := by
  obtain ⟨lists, rfl, rfl⟩ := concatResults_eq_ok_iff.mp hassets
  have hresult : ∀ x ∈ ids, ∃ read ∈ lists, a.readAbout x log = some read := by
    intro x hx
    obtain ⟨r, hr, hread⟩ := h.exists_result x hx
    obtain ⟨read, hmem, rfl⟩ := List.mem_map.mp hr
    exact ⟨read, hmem, hread⟩
  refine ⟨fun x hx => ?_, fun asset => ⟨fun hmem => ?_, ?_⟩⟩
  · obtain ⟨read, -, hread⟩ := hresult x hx
    rw [hread]
    rfl
  · obtain ⟨read, hlist, hasset⟩ := List.mem_flatten.mp hmem
    obtain ⟨x, hx, hread⟩ := h.exists_id _ (List.mem_map_of_mem hlist)
    exact ⟨x, hx, read, hread, hasset⟩
  · rintro ⟨x, hx, read, hread, hasset⟩
    obtain ⟨read', hlist, hread'⟩ := hresult x hx
    obtain rfl : read = read' := Option.some.inj (hread.symm.trans hread')
    exact List.mem_flatten.mpr ⟨read, hlist, hasset⟩

end ReadAs

end

/-! ### The look-up of a run -/

section

variable {a : AssetService} {peer : Peer σ} {o : Options σ} {nodes : List Node} {s : Session σ}

theorem AssetService.exists_readAs (a : AssetService) (peer : Peer σ) {ids : List String}
    (hnodup : ids.Nodup) (s : Session σ) :
    ∃ results log,
      (a.existing peer ids s).1 =
        (concatResults results).map (·.filterMap Asset.externalId) ∧
      (a.existing peer ids s).2.attempts.toList = s.attempts.toList ++ log ∧
      ReadAs a (a.existing peer ids s).2.ended ids results log := by
  obtain ⟨log, hlog, hf⟩ :=
    a.exists_fetched peer (fun _ => a.path_of_retrieve (ids.map .externalId) true) s
  refine ⟨_, log, rfl, hlog, ?_⟩
  rw [retrieveRequests_externalIds] at hf
  have hflat := flatten_chunks a.limit_pos ids
  have hread := hf.readAs (fun _ => ne_nil_of_mem_chunks a.limit_pos) (hflat.symm ▸ hnodup)
  rwa [hflat, ← retrieveRequests_externalIds] at hread

/-- The parents that are known to exist are those that the answers list. -/
theorem exists_readAs_of_acyclic (a : AssetService) (peer : Peer σ) (s : Session σ)
    (ho : o.assumeParentsExist = false)
    (h : ∀ i, ¬OnCycle (Graph.ofList nodes).parent i) :
    ∃ results, ReadAs a (afterLookup (a.transport peer) o.onSession nodes s).ended
        (outsideParents nodes) results (a.newAttempts peer o nodes s) ∧
      knownParents (a.transport peer) o.onSession nodes s =
        (concatResults results).map fun assets => (assets.filterMap Asset.externalId).contains := by
  have ho' : o.onSession.assumeParentsExist = false := ho
  obtain ⟨writes, hlog, hlogged⟩ :=
    a.exists_logged_of_ran peer (ran_createHierarchy (a.transport peer) o.onSession nodes s)
  rw [lookups_of_acyclic h, lookupsFor] at hlog
  unfold knownParents
  rw [if_neg (by simp [ho'])]
  by_cases hnone : outsideParents nodes = []
  · rw [hnone, if_pos rfl]
    exact ⟨[], ⟨nofun, nofun, nofun⟩, rfl⟩
  · have hnodup : (outsideParents nodes).Nodup := nodup_eraseDups _
    obtain ⟨results, lookups, hresult, hlookups, hread⟩ := a.exists_readAs peer hnodup s
    have hnew : a.newAttempts peer o nodes s = lookups ++ writes := by
      rw [if_neg (by simp [ho', hnone]),
        show ((a.transport peer).existing _ s).2.attempts.toList = _ from hlookups] at hlog
      unfold AssetService.newAttempts AssetService.createHierarchy
      rw [hlog]
      simp
    have hfound : ((a.transport peer).existing (outsideParents nodes) s).1 =
        (concatResults results).map (·.filterMap Asset.externalId) := hresult
    have hafter : afterLookup (a.transport peer) o.onSession nodes s =
        (a.existing peer (outsideParents nodes) s).2 := if_neg (by simp [lookupsFor, ho', hnone])
    rw [hnew, hafter, if_neg hnone, hfound]
    refine ⟨results, hread.append_writes hlogged.isWrite, ?_⟩
    cases concatResults results <;> rfl

/-- Each of the look-ups is read, and none lists an asset with the external id. -/
def AssetService.isUnlisted (a : AssetService) (ids : List String) (log : List Attempt)
    (p : String) : Bool :=
  ids.all fun x => (a.readAbout x log).any fun assets =>
    assets.all fun asset => asset.externalId ≠ some p

theorem ReadAs.isUnlisted_eq {ended : Bool} {ids : List String}
    {results : List (Except HttpError (List Asset))} {log : List Attempt}
    (h : ReadAs a ended ids results log) {assets : List Asset}
    (hassets : concatResults results = .ok assets) (p : String) :
    a.isUnlisted ids log p = !(assets.filterMap Asset.externalId).contains p := by
  obtain ⟨hsome, hmem⟩ := h.mem_iff hassets
  have hleft : a.isUnlisted ids log p = true ↔ ∀ x ∈ ids, ∃ read,
      a.readAbout x log = some read ∧ ∀ asset ∈ read, asset.externalId ≠ some p := by
    simp [AssetService.isUnlisted, Option.any_eq_true]
  have hright : (!(assets.filterMap Asset.externalId).contains p) = true ↔
      ∀ asset ∈ assets, asset.externalId ≠ some p := by
    simp
  rw [Bool.eq_iff_iff, hleft, hright]
  constructor
  · intro hall asset hasset
    obtain ⟨x, hx, read, hread, hasset⟩ := (hmem asset).mp hasset
    obtain ⟨read', hread', hnone⟩ := hall x hx
    obtain rfl : read = read' := Option.some.inj (hread.symm.trans hread')
    exact hnone asset hasset
  · intro hall x hx
    obtain ⟨read, hread⟩ := Option.isSome_iff_exists.mp (hsome x hx)
    refine ⟨read, hread, fun asset hasset => hall asset ?_⟩
    exact (hmem asset).mpr ⟨x, hx, read, hread, hasset⟩

/-- Every parent outside is asked about while the session lasts, and the last answer decides. A
parent counts as missing when the answers do not list it, and an answer that cannot be read lists
nothing. -/
theorem createHierarchy_as_looked_up (a : AssetService) (peer : Peer σ) (o : Options σ)
    (nodes : List Node) (s : Session σ) (ho : o.assumeParentsExist = false)
    (hacyclic : ∀ i, ¬OnCycle (Graph.ofList nodes).parent i) :
    let c := a.createHierarchy peer o.onSession nodes s
    let log := a.newAttempts peer o nodes s
    (∀ p ∈ outsideParents nodes, a.answersAbout p log = [] → c.state.ended = true) ∧
    ((∃ e, c.result = .error (.existenceCheck e)) ↔
      ∃ p ∈ outsideParents nodes, a.readAbout p log = none) ∧
    (∀ p, ∀ x ∈ (a.answersAbout p log).getLast?, x.isSuccess = true → x.isUnreadable = true →
      a.readAbout p log = some []) ∧
    ∀ report, c.result = .error (.invalidStructure report) →
      (∀ p ∈ outsideParents nodes, ∃ x ∈ (a.answersAbout p log).getLast?, x.isSuccess = true) ∧
      report.orphans = nodes.filter fun node =>
        (node.outsideParent? nodes).any (a.isUnlisted (outsideParents nodes) log) := by
  intro c log
  obtain ⟨results, hread, hknown⟩ := exists_readAs_of_acyclic a peer s ho hacyclic
  have hlists : ∀ p, ∀ x ∈ (a.answersAbout p log).getLast?, x.isSuccess = true →
      x.isUnreadable = true → a.readAbout p log = some [] := by
    intro p x hx hsuccess hunreadable
    rw [AssetService.readAbout, Option.mem_def.mp hx]
    exact Answer.assets?_of_isUnreadable hsuccess hunreadable
  cases hresults : concatResults results with
  | error e =>
    rw [hresults] at hknown
    have hc : c = _ := createHierarchy_of_lookup_error hacyclic hknown
    refine ⟨?_, iff_of_true ⟨e, by rw [hc]⟩ (hread.exists_unread hresults), hlists,
      fun report h => ?_⟩
    · rw [hc]
      exact hread.ended_of_unanswered
    · rw [hc] at h
      injection h with h
      contradiction
  | ok assets =>
    obtain ⟨hsome, -⟩ := hread.mem_iff hresults
    have hunlisted : a.isUnlisted (outsideParents nodes) log =
        fun p => !(assets.filterMap Asset.externalId).contains p :=
      funext (hread.isUnlisted_eq hresults)
    rw [hresults] at hknown
    obtain ⟨hnoCheck, hreport⟩ := result_of_known hacyclic hknown
    refine ⟨fun p hp hnil => ?_, iff_of_false (fun ⟨e, he⟩ => hnoCheck e he) ?_, hlists,
      fun report h => ⟨?_, ?_⟩⟩
    · have hread := hsome p hp
      rw [AssetService.readAbout, hnil] at hread
      contradiction
    · rintro ⟨p, hp, hnone⟩
      exact Option.isSome_iff_ne_none.mp (hsome p hp) hnone
    · intro p hp
      obtain ⟨read, hp⟩ := Option.isSome_iff_exists.mp (hsome p hp)
      obtain ⟨x, hx, hassets⟩ := Option.bind_eq_some_iff.mp hp
      exact ⟨x, hx, Answer.isSuccess_of_assets? hassets⟩
    · rw [hreport report h, Graph.orphans_of_acyclic nodes _ hacyclic, hunlisted]

end

/-! ### An orphan whose parent exists -/

/-- A node below an asset outside of the input. -/
def pumpInPlant : List Node := [(Node.named "pump" "Pump").withParent "plant"]

/-- A server that answers the first look-up with a page in place of a list. -/
def signedOut : ServerScript where
  authority := "h"
  rules :=
    [{ path := some "assets/byids", answer := .reply 200 [] "<html>Signed out</html>" false }]
  existing := [.string "plant"]

theorem acyclic_pumpInPlant : ∀ i, ¬OnCycle (Graph.ofList pumpInPlant).parent i :=
  (Graph.ofList pumpInPlant).isEmpty_cycleMembers_iff.mp (by decide +kernel)

theorem result_eq_of_report? {r : Except HierarchyError (List CreatedAsset)} {report : Report}
    (h : (match r with | .ok _ => none | .error e => e.report?) = some report) :
    r = .error (.invalidStructure report) := by
  cases r with
  | ok created => contradiction
  | error e =>
    cases e with
    | invalidStructure report' => rw [Option.some.inj h]
    | partialSubmission outcome => contradiction
    | existenceCheck cause => contradiction

theorem result_signedOut :
    (twoTries.createHierarchy ServerScript.peer (Options.onSession {}) pumpInPlant
      { peer := signedOut }).result =
      .error (.invalidStructure { orphans := pumpInPlant }) :=
  result_eq_of_report? (by decide +kernel)

theorem answersAbout_signedOut :
    (twoTries.answersAbout "plant" (twoTries.newAttempts ServerScript.peer {} pumpInPlant
      { peer := signedOut })).map (fun x => (x.isSuccess, x.isUnreadable)) = [(true, true)] := by
  decide +kernel

/-- The only answer is a success that cannot be read, and the node counts as an orphan. -/
theorem orphan_of_unreadable_lookup :
    (∃ report, (twoTries.createHierarchy ServerScript.peer (Options.onSession {}) pumpInPlant
        { peer := signedOut }).result = .error (.invalidStructure report) ∧
        report.orphans = pumpInPlant) ∧
      (twoTries.answersAbout "plant" (twoTries.newAttempts ServerScript.peer {} pumpInPlant
        { peer := signedOut })).map (fun x => (x.isSuccess, x.isUnreadable)) = [(true, true)] :=
  ⟨⟨_, result_signedOut, rfl⟩, answersAbout_signedOut⟩

theorem createHierarchy_as_looked_up_signedOut :
    let log := twoTries.newAttempts ServerScript.peer {} pumpInPlant { peer := signedOut }
    (∀ e, (twoTries.createHierarchy ServerScript.peer (Options.onSession {}) pumpInPlant
      { peer := signedOut }).result ≠ .error (.existenceCheck e)) ∧
    twoTries.readAbout "plant" log = some [] ∧
    pumpInPlant = pumpInPlant.filter fun node =>
      (node.outsideParent? pumpInPlant).any
        (twoTries.isUnlisted (outsideParents pumpInPlant) log) := by
  intro log
  obtain ⟨-, hfailed, hread, hreports⟩ := createHierarchy_as_looked_up twoTries ServerScript.peer {}
    pumpInPlant { peer := signedOut } rfl acyclic_pumpInPlant
  obtain ⟨hanswered, horphans⟩ := hreports _ result_signedOut
  refine ⟨fun e he => ?_, ?_, horphans⟩
  · rw [result_signedOut] at he
    injection he with he
    contradiction
  · obtain ⟨x, hx, hsuccess⟩ := hanswered "plant" (by decide)
    have hmem : (x.isSuccess, x.isUnreadable) ∈ [(true, true)] :=
      answersAbout_signedOut ▸ List.mem_map_of_mem (List.mem_of_getLast? hx)
    exact hread "plant" x hx hsuccess (Prod.mk.inj (List.mem_singleton.mp hmem)).2

end AssetHierarchy
