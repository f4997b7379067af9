import AssetHierarchy.Hierarchy.Submission

/-! Creating a hierarchy: the input is checked, parents outside of it are looked up, and the nodes
are written with every parent before its children. -/
namespace AssetHierarchy

inductive HierarchyError where
  /-- The input has structural problems. Nothing was sent. -/
  | invalidStructure (report : Report)
  /-- Some nodes were not created. -/
  | partialSubmission (outcome : OutcomeSet)
  /-- The look-up of parents failed. Nothing was written. -/
  | existenceCheck (cause : HttpError)

namespace HierarchyError

def message : HierarchyError → String
  | invalidStructure report => "Invalid asset hierarchy (" ++ report.summary ++ ")"
  | partialSubmission outcome =>
    "Asset hierarchy was only partially created (" ++ outcome.summary ++ ")"
  | existenceCheck cause => "Failed to check for existing parent assets: " ++ cause.message

def mayHaveWritten : HierarchyError → Bool
  | partialSubmission outcome => !outcome.created.isEmpty || !outcome.unknown.isEmpty
  | _ => false

def report? : HierarchyError → Option Report
  | invalidStructure report => some report
  | _ => none

def outcome? : HierarchyError → Option OutcomeSet
  | partialSubmission outcome => some outcome
  | _ => none

end HierarchyError

/-- Success if every node was created. -/
def OutcomeSet.result (o : OutcomeSet) : Except HierarchyError (List CreatedAsset) :=
  if o.isComplete then .ok o.created else .error (.partialSubmission o)

/-- What creating a hierarchy came to, and the calls that were made to the service for it. -/
structure Creation (n : Nat) (σ : Type) where
  result : Except HierarchyError (List CreatedAsset)
  state : σ
  lookups : List (List String) := []
  calls : List (Call n) := []

namespace Graph

variable {n : Nat} {σ : Type} (g : Graph n) (t : Transport σ) (o : Options σ)

/-- Writes a graph that has passed the check. -/
def write (lookups : List (List String)) (state : σ) : Creation n σ :=
  match g.plan (o.batchSize.getD t.preferredBatchSize) with
  | .error report => { result := .error (.invalidStructure report), state, lookups }
  | .ok batches =>
    let p := g.submit t o batches state
    { result := (p.table.outcomes g).result, state := p.state, lookups, calls := p.calls }

/-- Writes the graph unless it has a problem, given which parents outside of it exist. -/
def checkAndWrite (exists? : String → Bool) (lookups : List (List String)) (state : σ) :
    Creation n σ :=
  let report := g.validate exists?
  if report.isValid then g.write t o lookups state
  else { result := .error (.invalidStructure report), state, lookups }

/-- Looks up the parents outside of the graph, if there are any. -/
def lookUpParents (state : σ) : Except HttpError (List String) × σ × List (List String) :=
  let parents := g.unresolvedParents
  if parents.isEmpty then (.ok [], state, [])
  else
    let (found, state) := t.existing parents state
    (found, state, [parents])

/-- A graph with a cycle is refused before the service is asked for anything. -/
def create (state : σ) : Creation n σ :=
  if !g.cycleMembers.isEmpty then
    { result := .error (.invalidStructure (g.validate fun _ => false)), state }
  else if o.assumeParentsExist then g.checkAndWrite t o (fun _ => true) [] state
  else
    match g.lookUpParents t state with
    | (.error e, state, lookups) => { result := .error (.existenceCheck e), state, lookups }
    | (.ok found, state, lookups) => g.checkAndWrite t o found.contains lookups state

end Graph

/-- Checks and writes a list of nodes. -/
def createHierarchy {σ : Type} (t : Transport σ) (o : Options σ) (nodes : List Node) (state : σ) :
    Creation nodes.length σ :=
  (Graph.ofList nodes).create t o state

end AssetHierarchy
