import AssetHierarchy.Hierarchy.Creation
import AssetHierarchy.Http.Client

/-! The assets of one project. Long lists are cut into requests of at most `createLimit` items; all
of them are made, also when one fails, and their results are joined in the order of the input. -/
namespace AssetHierarchy

/-- The two ways to write an asset. -/
inductive WriteKind where
  | create
  | update
deriving DecidableEq

namespace WriteKind

def path : WriteKind → String
  | create => "assets"
  | update => "assets/update"

/-- The item for a node: a node with an id is updated, any other is written as it is. -/
def item (k : WriteKind) (node : Node) : Json :=
  match k, node.id with
  | update, some id => node.updateItem id
  | _, _ => node.toJson

end WriteKind

/-- The nodes of one write request. -/
structure WriteChunk where
  kind : WriteKind
  nodes : List Node
deriving DecidableEq

namespace WriteChunk

def request (c : WriteChunk) : Request :=
  .postItems c.kind.path (c.nodes.map c.kind.item)

/-- The outcomes that the result of the request gives: one for each returned asset with an external
id, or the same for every node of a request that failed. -/
def reply (c : WriteChunk) : Except HttpError (List Asset) → Reply
  | .ok assets => assets.filterMap fun a => a.externalId.map fun x => (x, .success a.id)
  | .error e => c.nodes.map fun node => (node.xid, e.outcome)

end WriteChunk

/-- All lists in order if there are only lists, else the first error. -/
def concatResults {ε α : Type} : List (Except ε (List α)) → Except ε (List α)
  | [] => .ok []
  | r :: rest => do
    let as ← r
    let bs ← concatResults rest
    .ok (as ++ bs)

structure AssetService where
  config : Config

namespace AssetService

variable (a : AssetService)

def client : Client := .ofConfig a.config

/-- The most items in one request. -/
def limit : Nat := a.config.createLimit.toNat

variable {σ : Type} (peer : Peer σ)

/-- Makes a request and reads the assets from the reply. -/
def fetch (r : Request) (s : Session σ) : Except HttpError (List Asset) × Session σ :=
  match a.client.request peer (r.withTries a.config.maxTries.toNat) s with
  | (.error e, s) => (.error e, s)
  | (.ok response, s) => (response.assets.mapError .decode, s)

/-- Makes all requests, whatever comes of them. -/
def fetchAll : List Request → Session σ → List (Except HttpError (List Asset)) × Session σ
  | [], s => ([], s)
  | r :: rest, s =>
    let (result, s) := a.fetch peer r s
    let (results, s) := fetchAll rest s
    (result :: results, s)

def fetchJoined (rs : List Request) (s : Session σ) :
    Except HttpError (List Asset) × Session σ :=
  let (results, s) := a.fetchAll peer rs s
  (concatResults results, s)

/-! ### Lists of assets -/

def createRequests (nodes : List Node) : List Request :=
  (chunks a.limit (nodes.map Node.toJson)).map (.postItems WriteKind.create.path)

/-- Nodes without an id are left out. -/
def updateRequests (nodes : List Node) : List Request :=
  (chunks a.limit (nodes.filterMap fun node => node.id.map node.updateItem)).map
    (.postItems WriteKind.update.path)

def retrieveRequests (ids : List Identifier) (ignoreUnknown : Bool) : List Request :=
  (chunks a.limit ids).map fun ids =>
    (Request.postItems "assets/byids" (ids.map Identifier.toJson)).withField
      "ignoreUnknownIds" (.bool ignoreUnknown)

def create (nodes : List Node) : Session σ → Except HttpError (List Asset) × Session σ :=
  a.fetchJoined peer (a.createRequests nodes)

def update (nodes : List Node) : Session σ → Except HttpError (List Asset) × Session σ :=
  a.fetchJoined peer (a.updateRequests nodes)

def retrieve (ids : List Identifier) (ignoreUnknown : Bool) :
    Session σ → Except HttpError (List Asset) × Session σ :=
  a.fetchJoined peer (a.retrieveRequests ids ignoreUnknown)

/-! ### Hierarchies -/

/-- The requests for a batch: first those that create, then those that update. -/
def writeChunks {n : Nat} (b : Batch n) : List WriteChunk :=
  (chunks a.limit b.creates).map (⟨.create, ·⟩) ++ (chunks a.limit b.updates).map (⟨.update, ·⟩)

def submitChunks : List WriteChunk → Session σ → Reply × Session σ
  | [], s => ([], s)
  | c :: rest, s =>
    let (result, s) := a.fetch peer c.request s
    let (reply, s) := submitChunks rest s
    (c.reply result ++ reply, s)

def submit {n : Nat} (b : Batch n) : Session σ → Reply × Session σ :=
  a.submitChunks peer (a.writeChunks b)

/-- The external ids among those of existing assets. -/
def existing (ids : List String) (s : Session σ) :
    Except HttpError (List String) × Session σ :=
  let (result, s) := a.retrieve peer (ids.map .externalId) true s
  (result.map (·.filterMap Asset.externalId), s)

/-- The items that all workers send in one go, as a number of 64 bits. -/
def preferredBatchSize : Nat := (a.config.createLimit * a.config.maxWorkers).toNat

def transport : Transport (Session σ) where
  submit := a.submit peer
  existing := a.existing peer
  preferredBatchSize := a.preferredBatchSize

def createHierarchy (o : Options (Session σ)) (nodes : List Node) (s : Session σ) :
    Creation nodes.length (Session σ) :=
  AssetHierarchy.createHierarchy (a.transport peer) o nodes s

end AssetService

end AssetHierarchy
