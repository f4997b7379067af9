import AssetHierarchy.Proofs.ParentLookup

/-! Calls that create, update or retrieve many assets. The list is cut into requests, of which
several are under way at once. All of them are made, and their results are joined in the order of
the list: to all assets that were read, or to the first error, in whatever order they finish. -/
namespace AssetHierarchy

/-! ### Orders of delivery -/

/-- Of the elements that wait, the first is started whenever there is room in the window. Any of
those in the window may be the next to finish, which is marked, and the first of them is handed on
once it has finished. The elements that finish and those handed on are listed in order. -/
inductive Delivers {α : Type} (workers : Nat) : List α → List (α × Bool) → List α → List α → Prop
  | done : Delivers workers [] [] [] []
  | start {x : α} {waiting finished delivered : List α} {window : List (α × Bool)}
      (hroom : window.length < workers)
      (h : Delivers workers waiting (window ++ [(x, false)]) finished delivered) :
      Delivers workers (x :: waiting) window finished delivered
  | finish {x : α} {waiting finished delivered : List α} {before after : List (α × Bool)}
      (h : Delivers workers waiting (before ++ (x, true) :: after) finished delivered) :
      Delivers workers waiting (before ++ (x, false) :: after) (x :: finished) delivered
  | deliver {x : α} {waiting finished delivered : List α} {window : List (α × Bool)}
      (h : Delivers workers waiting window finished delivered) :
      Delivers workers waiting ((x, true) :: window) finished (x :: delivered)

namespace Delivers

variable {α : Type} {workers : Nat} {waiting finished delivered : List α}
  {window : List (α × Bool)}

/-- The elements are handed on in the order in which they were started. -/
theorem delivered_eq (h : Delivers workers waiting window finished delivered) :
    delivered = window.map Prod.fst ++ waiting := by
  induction h with
  | done => rfl
  | start _ _ ih => simpa using ih
  | finish _ ih => simpa using ih
  | deliver _ ih => simpa using ih

/-- Everything that has not finished yet does so once. -/
theorem finished_perm (h : Delivers workers waiting window finished delivered) :
    finished.Perm ((window.filter fun p => !p.2).map Prod.fst ++ waiting) := by
  induction h with
  | done => exact .nil
  | start _ _ ih => simpa using ih
  | @finish x waiting finished delivered before after _ ih =>
    have hmiddle : ((before ++ (x, false) :: after).filter fun p => !p.2).map Prod.fst =
        (before.filter fun p => !p.2).map Prod.fst ++
          x :: (after.filter fun p => !p.2).map Prod.fst := by simp
    have hrest : ((before ++ (x, true) :: after).filter fun p => !p.2).map Prod.fst =
        (before.filter fun p => !p.2).map Prod.fst ++
          (after.filter fun p => !p.2).map Prod.fst := by simp
    rw [hrest, List.append_assoc] at ih
    rw [hmiddle, List.append_assoc]
    exact (ih.cons x).trans List.perm_middle.symm
  | deliver _ ih => simpa using ih

/-- One after the other is one of the orders. -/
theorem inOrder (h : 0 < workers) (l : List α) : Delivers workers l [] l l := by
  induction l with
  | nil => exact .done
  | cons x rest ih => exact .start h (@finish α workers x rest rest (x :: rest) [] [] ih.deliver)

end Delivers

/-! ### Requests and their results -/

/-- A request, and what came of it in the end. -/
structure FinishedRequest where
  request : Request
  result : Except HttpError Response

namespace FinishedRequest

/-- The assets that the reply lists, or why there are none to be read. -/
def assets (d : FinishedRequest) : Except HttpError (List Asset) :=
  d.result.bind fun r => r.assets.mapError .decode

/-- What some requests come to together. -/
def joined (ds : List FinishedRequest) : Except HttpError (List Asset) :=
  concatResults (ds.map assets)

theorem joined_eq_ok_iff {ds : List FinishedRequest} {all : List Asset} : joined ds = .ok all ↔
    ∃ lists : List (List Asset), ds.map assets = lists.map .ok ∧ all = lists.flatten :=
  concatResults_eq_ok_iff

theorem exists_lists {ds : List FinishedRequest} (h : ∀ d ∈ ds, ∃ read, d.assets = .ok read) :
    ∃ lists : List (List Asset), ds.map assets = lists.map .ok := by
  induction ds with
  | nil => exact ⟨[], rfl⟩
  | cons d rest ih =>
    rw [List.forall_mem_cons] at h
    obtain ⟨read, hread⟩ := h.1
    obtain ⟨lists, hlists⟩ := ih h.2
    exact ⟨read :: lists, by rw [List.map_cons, hread, hlists, List.map_cons]⟩

theorem joined_eq_error_iff {ds : List FinishedRequest} {e : HttpError} : joined ds = .error e ↔
    ∃ before d after, ds = before ++ d :: after ∧ d.assets = .error e ∧
      ∀ d' ∈ before, ∃ read, d'.assets = .ok read := by
  rw [joined, concatResults_eq_error_iff]
  constructor
  · rintro ⟨lists, later, h⟩
    obtain ⟨before, rest, rfl, hbefore, hrest⟩ := List.map_eq_append_iff.mp h
    obtain ⟨d, after, rfl, hd, -⟩ := List.map_eq_cons_iff.mp hrest
    refine ⟨before, d, after, rfl, hd, fun d' hd' => ?_⟩
    have hmem : d'.assets ∈ lists.map Except.ok := hbefore ▸ List.mem_map_of_mem hd'
    obtain ⟨read, -, hread⟩ := List.mem_map.mp hmem
    exact ⟨read, hread.symm⟩
  · rintro ⟨before, d, after, rfl, hd, hbefore⟩
    obtain ⟨lists, hlists⟩ := exists_lists hbefore
    exact ⟨lists, after.map assets, by rw [List.map_append, hlists, List.map_cons, hd]⟩

end FinishedRequest

namespace AssetService

variable {σ : Type} (a : AssetService) (peer : Peer σ)

/-- Makes some requests one after the other, whatever comes of them. -/
def finishAll : List Request → Session σ → List FinishedRequest × Session σ
  | [], s => ([], s)
  | r :: rest, s =>
    let (result, s) := a.client.request peer (r.withTries a.config.maxTries.toNat) s
    let (ds, s) := finishAll rest s
    (⟨r, result⟩ :: ds, s)

theorem map_request_finishAll (rs : List Request) (s : Session σ) :
    (a.finishAll peer rs s).1.map FinishedRequest.request = rs := by
  induction rs generalizing s with
  | nil => rfl
  | cons r rest ih => exact congrArg (r :: ·) (ih _)

theorem fetch_eq (r : Request) (s : Session σ) :
    a.fetch peer r s =
      let (result, s) := a.client.request peer (r.withTries a.config.maxTries.toNat) s
      (FinishedRequest.assets ⟨r, result⟩, s) := by
  unfold fetch
  split
  · next e s' h => rw [h]; rfl
  · next response s' h => rw [h]; rfl

theorem fetchAll_eq (rs : List Request) (s : Session σ) :
    a.fetchAll peer rs s = ((a.finishAll peer rs s).1.map FinishedRequest.assets,
      (a.finishAll peer rs s).2) := by
  induction rs generalizing s with
  | nil => rfl
  | cons r rest ih =>
    unfold fetchAll finishAll
    rw [fetch_eq]
    dsimp only
    rw [ih]
    rfl

theorem fetchJoined_eq (rs : List Request) (s : Session σ) :
    a.fetchJoined peer rs s =
      (FinishedRequest.joined (a.finishAll peer rs s).1, (a.finishAll peer rs s).2) := by
  unfold fetchJoined
  rw [fetchAll_eq]
  rfl

end AssetService

/-! ### Calls -/

inductive BulkCall where
  | create (nodes : List Node)
  | update (nodes : List Node)
  | retrieve (ids : List Identifier) (ignoreUnknown : Bool)

namespace BulkCall

/-- What the whole call asks for. Nodes without an id are not updated. -/
def items : BulkCall → List Json
  | create nodes => nodes.map Node.toJson
  | update nodes => nodes.filterMap fun node => node.id.map node.updateItem
  | retrieve ids _ => ids.map Identifier.toJson

/-- The request for some of the items. -/
def request : BulkCall → List Json → Request
  | create _, items => .postItems "assets" items
  | update _, items => .postItems "assets/update" items
  | retrieve _ ignoreUnknown, items =>
    (Request.postItems "assets/byids" items).withField "ignoreUnknownIds" (.bool ignoreUnknown)

variable (a : AssetService)

def requests : BulkCall → List Request
  | create nodes => a.createRequests nodes
  | update nodes => a.updateRequests nodes
  | retrieve ids ignoreUnknown => a.retrieveRequests ids ignoreUnknown

def run {σ : Type} (peer : Peer σ) :
    BulkCall → Session σ → Except HttpError (List Asset) × Session σ
  | create nodes => a.create peer nodes
  | update nodes => a.update peer nodes
  | retrieve ids ignoreUnknown => a.retrieve peer ids ignoreUnknown

variable (call : BulkCall)

theorem requests_eq : call.requests a = (chunks a.limit call.items).map call.request := by
  cases call with
  | create nodes => rfl
  | update nodes => rfl
  | retrieve ids ignoreUnknown =>
    rw [items, chunks_map, List.map_map]
    rfl

theorem run_eq {σ : Type} (peer : Peer σ) (s : Session σ) :
    call.run a peer s = a.fetchJoined peer (call.requests a) s := by
  cases call <;> rfl

theorem items_body_request (items : List Json) :
    (call.request items).body.get? "items" = some (.array items) := by
  have hne : "items" ≠ "ignoreUnknownIds" := by decide
  cases call with
  | create nodes => rfl
  | update nodes => rfl
  | retrieve ids ignoreUnknown => exact Json.lookup_insert_of_ne hne (Json.bool ignoreUnknown) _

theorem path_request (items : List Json) :
    (call.request items).path.toList.all (· == '/') = false := by
  cases call with
  | create nodes => show "assets".toList.all (· == '/') = false; decide
  | update nodes => show "assets/update".toList.all (· == '/') = false; decide
  | retrieve ids ignoreUnknown => show "assets/byids".toList.all (· == '/') = false; decide

end BulkCall

/-- A call on a long list comes to the same as if it were one request. Its requests hold the items
piece by piece. All of them are made, each comes to what the other side answers, and however they
finish the result is that of the pieces in order. Which external ids exist is read off such a
call. -/
theorem bulkCall_joins_pieces (a : AssetService) :
    (∀ call : BulkCall,
      (∃ pieces, CutInto a.limit call.items pieces ∧
        call.requests a = pieces.map call.request) ∧
      (∀ items, (call.request items).body.get? "items" = some (.array items)) ∧
      (∀ (σ : Type) (peer : Peer σ) (s : Session σ),
        let run := a.finishAll peer (call.requests a) s
        run.1.map FinishedRequest.request = call.requests a ∧
        Delivers a.config.maxWorkers.toNat run.1 [] run.1 run.1 ∧
        call.run a peer s = (FinishedRequest.joined run.1, run.2) ∧
        ∃ log, run.2.attempts.toList = s.attempts.toList ++ log ∧
          Fetched a peer run.2.ended s.peer (call.requests a)
            (run.1.map FinishedRequest.assets) log) ∧
      ∀ ds finished delivered, ds.map FinishedRequest.request = call.requests a →
        Delivers a.config.maxWorkers.toNat ds [] finished delivered →
        finished.Perm ds ∧
        (∀ all, FinishedRequest.joined delivered = .ok all ↔
          ∃ lists : List (List Asset), ds.map FinishedRequest.assets = lists.map .ok ∧
            all = lists.flatten) ∧
        ∀ e, FinishedRequest.joined delivered = .error e ↔
          ∃ before d after, ds = before ++ d :: after ∧ d.assets = .error e ∧
            ∀ d' ∈ before, ∃ read, d'.assets = .ok read) ∧
    ∀ (σ : Type) (peer : Peer σ) (ids : List String) (s : Session σ),
      let call := BulkCall.retrieve (ids.map .externalId) true
      (a.existing peer ids s).2 = (call.run a peer s).2 ∧
      (∀ e, (a.existing peer ids s).1 = .error e ↔ (call.run a peer s).1 = .error e) ∧
      ∀ all, (call.run a peer s).1 = .ok all → ∃ found, (a.existing peer ids s).1 = .ok found ∧
        ∀ x, x ∈ found ↔ ∃ asset ∈ all, asset.externalId = some x := by
  refine ⟨fun call => ⟨?_, call.items_body_request, fun σ peer s => ?_, ?_⟩, ?_⟩
  · exact ⟨_, cutInto_chunks a.limit_pos call.items, call.requests_eq a⟩
  · have hpath : ∀ r ∈ call.requests a, r.path.toList.all (· == '/') = false := by
      intro r hr
      rw [call.requests_eq a] at hr
      obtain ⟨piece, -, rfl⟩ := List.mem_map.mp hr
      exact call.path_request piece
    obtain ⟨log, hlog, hfetched⟩ := a.exists_fetched peer hpath s
    rw [a.fetchAll_eq] at hlog hfetched
    refine ⟨a.map_request_finishAll peer _ s, ?_, ?_, log, hlog, hfetched⟩
    · exact .inOrder a.workers_pos _
    · rw [call.run_eq a, a.fetchJoined_eq]
  · intro ds finished delivered _ h
    obtain rfl : delivered = ds := by simpa using h.delivered_eq
    exact ⟨by simpa using h.finished_perm, fun _ => FinishedRequest.joined_eq_ok_iff,
      fun _ => FinishedRequest.joined_eq_error_iff⟩
  · intro σ peer ids s call
    have hexisting : a.existing peer ids s =
        ((call.run a peer s).1.map (·.filterMap Asset.externalId), (call.run a peer s).2) := rfl
    rw [hexisting]
    refine ⟨rfl, fun e => ?_, fun all hall => ⟨_, by rw [hall]; rfl, fun x => ?_⟩⟩
    · cases (call.run a peer s).1 <;> simp [Except.map]
    · exact List.mem_filterMap

end AssetHierarchy
