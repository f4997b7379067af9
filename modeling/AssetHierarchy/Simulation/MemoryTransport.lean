import AssetHierarchy.Hierarchy.Submission

/-! A transport without a service behind it. It gives out ids from 1000 on, except where a script
leaves out an item or prescribes an outcome. -/
namespace AssetHierarchy

/-- An entry put into the reply to one call. -/
structure ExtraReply where
  /-- The number of the call, from zero on. -/
  call : Nat
  externalId : String
  outcome : SubmitOutcome
  atFront : Bool

structure TransportScript where
  omitted : List String := []
  outcomes : List (String × SubmitOutcome) := []
  existing : List String := []
  lookupError : Option HttpError := none
  /-- The signal is raised during the call of this number, counted from one; zero is before all. -/
  abortAfter : Option Nat := none
  reversed : Bool := false
  extras : List ExtraReply := []
  preferredBatchSize : Nat := defaultBatchSize

/-- How far a script has been run. -/
structure TransportState where
  calls : Nat := 0
  nextId : UInt64 := 1000
  aborted : Bool := false

/-- The signal that a script raises. -/
def TransportState.signal : AbortSignal TransportState where
  poll t := (t.aborted, t)

namespace TransportScript

variable (s : TransportScript)

def start : TransportState := { aborted := s.abortAfter = some 0 }

/-- The entries for the external ids of a batch, and the next free id. -/
def answers : List String → UInt64 → Reply × UInt64
  | [], next => ([], next)
  | x :: rest, next =>
    if s.omitted.contains x then answers rest next
    else
      match s.outcomes.lookup x with
      | some outcome =>
        let (reply, next) := answers rest next
        ((x, outcome) :: reply, next)
      | none =>
        let (reply, last) := answers rest (next + 1)
        ((x, .success next) :: reply, last)

def withExtra (call : Nat) (reply : Reply) (e : ExtraReply) : Reply :=
  if e.call ≠ call then reply
  else if e.atFront then (e.externalId, e.outcome) :: reply
  else reply ++ [(e.externalId, e.outcome)]

def submit {n : Nat} (b : Batch n) (t : TransportState) : Reply × TransportState :=
  let (reply, nextId) := s.answers b.externalIds t.nextId
  let reply := if s.reversed then reply.reverse else reply
  (s.extras.foldl (withExtra t.calls) reply,
   { calls := t.calls + 1, nextId, aborted := t.aborted || s.abortAfter = some (t.calls + 1) })

def lookUp (ids : List String) (t : TransportState) :
    Except HttpError (List String) × TransportState :=
  match s.lookupError with
  | some e => (.error e, t)
  | none => (.ok (ids.filter s.existing.contains), t)

def transport : Transport TransportState where
  submit := s.submit
  existing := s.lookUp
  preferredBatchSize := s.preferredBatchSize

end TransportScript

end AssetHierarchy
