import AssetHierarchy.Hierarchy.Outcome
import AssetHierarchy.Hierarchy.Plan

/-! What is known about each node while batches are written. A node's disposition is settled once:
the first reply for it counts, later ones change nothing. -/
namespace AssetHierarchy

inductive Disposition where
  | pending
  | created (id : UInt64)
  | ambiguous
  | rejected
  /-- Not sent, because a parent was not created or the run had stopped. -/
  | skipped (belowAmbiguous : Bool)
deriving DecidableEq

namespace Disposition

/-- The node may exist, or a node above it may. -/
def isUncertain : Disposition → Bool
  | ambiguous => true
  | skipped below => below
  | _ => false

def isCreated : Disposition → Bool
  | created _ => true
  | _ => false

end Disposition

def SubmitOutcome.disposition : SubmitOutcome → Disposition
  | success id => .created id
  | serverError _ _ | timeout | interrupted _ => .ambiguous
  | clientError _ _ | notSent _ => .rejected

/-- The outcomes that a batch is answered with, by external id. -/
abbrev Reply := List (String × SubmitOutcome)

abbrev Table (n : Nat) := Vector Disposition n

/-- How many nodes of a batch came out how. -/
structure Tally where
  created : Nat := 0
  ambiguous : Nat := 0
  rejected : Nat := 0
  missing : Nat := 0
deriving DecidableEq

namespace Tally

def hasFailures (t : Tally) : Bool := 0 < t.ambiguous + t.rejected + t.missing

def count (t : Tally) : Disposition → Tally
  | .created _ => { t with created := t.created + 1 }
  | .ambiguous => { t with ambiguous := t.ambiguous + 1 }
  | _ => { t with rejected := t.rejected + 1 }

end Tally

namespace Table

variable {n : Nat}

def start (n : Nat) : Table n := Vector.replicate n .pending

/-- Settles a position that is pending. -/
def record (t : Table n) (i : Fin n) (d : Disposition) : Table n :=
  if t.get i = .pending then t.set i d i.isLt else t

theorem get_record (t : Table n) (i j : Fin n) (d : Disposition) :
    (t.record i d).get j = if i = j ∧ t.get j = .pending then d else t.get j := by
  unfold record
  by_cases hp : t.get i = .pending
  · rw [if_pos hp, get_set]
    by_cases hij : i = j
    · rw [if_pos hij, if_pos ⟨hij, hij ▸ hp⟩]
    · rw [if_neg hij, if_neg fun h => hij h.1]
  · have hn : ¬(i = j ∧ t.get j = .pending) := fun ⟨hij, hj⟩ => hp (hij ▸ hj)
    rw [if_neg hp, if_neg hn]

/-- Passes over a node, which is then as uncertain as its parent. -/
def skip (g : Graph n) (t : Table n) (i : Fin n) : Table n :=
  t.record i (.skipped ((g.parent i).any fun p => (t.get p).isUncertain))

/-- The parent of a node, if it has one in the graph, has been created. -/
def isReady (g : Graph n) (t : Table n) (i : Fin n) : Bool :=
  (g.parent i).all fun p => (t.get p).isCreated

end Table

namespace Batch

variable {n : Nat} (b : Batch n)

/-- The position that an external id means in a reply: the last that carries it. -/
def position? (x : String) : Option (Fin n) :=
  (b.entries.reverse.find? fun e => e.node.xid == x).map Entry.position

/-- One entry of a reply. Foreign external ids and repeated ones have no effect. -/
def applyOutcome (s : Table n × Tally) (x : String) (outcome : SubmitOutcome) : Table n × Tally :=
  match b.position? x with
  | none => s
  | some i =>
    if s.1.get i = .pending then (s.1.record i outcome.disposition, s.2.count outcome.disposition)
    else s

/-- A node without an entry in the reply may have been written. -/
def sweepMissing (s : Table n × Tally) (i : Fin n) : Table n × Tally :=
  if s.1.get i = .pending then
    (s.1.record i .ambiguous, { s.2 with missing := s.2.missing + 1 })
  else s

/-- The table after a reply to the batch, and how the batch came out. -/
def applyReply (t : Table n) (reply : Reply) : Table n × Tally :=
  b.positions.foldl sweepMissing
    (reply.foldl (fun s (x, outcome) => b.applyOutcome s x outcome) (t, {}))

/-- The part of the batch that can be sent, and the table with the rest passed over. -/
def split (g : Graph n) (t : Table n) : List (Entry n) → List (Entry n) × Table n
  | [] => ([], t)
  | e :: rest =>
    if t.isReady g e.position then
      let (ready, t) := split g t rest
      (e :: ready, t)
    else split g (t.skip g e.position) rest

end Batch

/-- The final state of every node. -/
def Table.outcomes {n : Nat} (g : Graph n) (t : Table n) : OutcomeSet where
  created := g.positions.filterMap fun i =>
    match t.get i with
    | .created id => some ⟨(g.node i).xid, id⟩
    | _ => none
  unknown := g.nodesWhere fun i => (t.get i).isUncertain
  failed := g.nodesWhere fun i => !(t.get i).isCreated && !(t.get i).isUncertain

end AssetHierarchy
