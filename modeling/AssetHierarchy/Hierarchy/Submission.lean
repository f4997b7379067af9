import AssetHierarchy.Hierarchy.Disposition
import AssetHierarchy.Http.Error

/-! Writing the batches of a plan, one after the other. A node is sent only when its parent is known
to be created. The service is a state machine of any kind; the run records every call to it. -/
namespace AssetHierarchy

def defaultBatchSize : Nat := 1000

/-- The write side of a service. -/
structure Transport (σ : Type) where
  /-- Writes the nodes of a batch. -/
  submit : {n : Nat} → Batch n → σ → Reply × σ
  /-- Those of the external ids that exist. -/
  existing : List String → σ → Except HttpError (List String) × σ
  preferredBatchSize : Nat := defaultBatchSize

/-- What to do with later batches when a batch had failures. -/
inductive FailurePolicy where
  /-- Pass over the descendants of failed nodes only. -/
  | continueIndependent
  /-- Start no other batch. -/
  | stopAfterFailedBatch
deriving DecidableEq

/-- A request to stop, looked at before each batch. Time may pass with a look. -/
structure AbortSignal (σ : Type) where
  poll : σ → Bool × σ

structure Options (σ : Type) where
  /-- The most nodes in a batch; by default what the service prefers. -/
  batchSize : Option Nat := none
  /-- Take every parent outside of the input to exist, without asking. -/
  assumeParentsExist : Bool := false
  failurePolicy : FailurePolicy := .continueIndependent
  abort : Option (AbortSignal σ) := none

/-- A batch that was sent, and the reply to it. -/
structure Call (n : Nat) where
  batch : Batch n
  reply : Reply

/-- A run between two batches. -/
structure Progress (n : Nat) (σ : Type) where
  table : Table n
  state : σ
  /-- Latest last. -/
  calls : List (Call n) := []
  stopped : Bool := false
  hadFailures : Bool := false

namespace Progress

variable {n : Nat} {σ : Type}

def start (n : Nat) (state : σ) : Progress n σ := { table := .start n, state }

/-- Decides whether the run stops before its next batch. The signal is looked at first. -/
def checkStop (o : Options σ) (p : Progress n σ) : Progress n σ :=
  if p.stopped then p
  else
    let (aborted, state) :=
      match o.abort with
      | none => (false, p.state)
      | some signal => signal.poll p.state
    let failed := p.hadFailures && o.failurePolicy = .stopAfterFailedBatch
    { p with state, stopped := aborted || failed }

/-- Passes over a whole batch. -/
def skipBatch (g : Graph n) (p : Progress n σ) (b : Batch n) : Progress n σ :=
  { p with table := b.positions.foldl (Table.skip g) p.table }

/-- Sends the part of a batch whose parents have been created, and passes over the rest. -/
def sendBatch (t : Transport σ) (g : Graph n) (p : Progress n σ) (b : Batch n) : Progress n σ :=
  let (ready, table) := Batch.split g p.table b.entries
  if ready.isEmpty then { p with table }
  else
    let sent := { b with entries := ready }
    let (reply, state) := t.submit sent p.state
    let (table, tally) := sent.applyReply table reply
    { p with
      table, state
      calls := p.calls ++ [⟨sent, reply⟩]
      hadFailures := p.hadFailures || tally.hasFailures }

def step (t : Transport σ) (o : Options σ) (g : Graph n) (p : Progress n σ) (b : Batch n) :
    Progress n σ :=
  let p := p.checkStop o
  if p.stopped then p.skipBatch g b else p.sendBatch t g b

end Progress

/-- Writes the batches in order. A node in no batch counts as failed in the end. -/
def Graph.submit {n : Nat} {σ : Type} (g : Graph n) (t : Transport σ) (o : Options σ)
    (batches : List (Batch n)) (state : σ) : Progress n σ :=
  batches.foldl (Progress.step t o g) (.start n state)

end AssetHierarchy
