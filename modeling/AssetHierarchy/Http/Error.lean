import AssetHierarchy.Hierarchy.Outcome
import AssetHierarchy.Json.Decode

/-! Why a request has no usable reply. -/
namespace AssetHierarchy

/-- What the service says about a request it refuses. -/
structure ResponseError where
  code : Nat
  reason : String
  /-- The service's own name for the request. -/
  requestId : Option String
  /-- Identifiers that it could not find. -/
  missing : List Json
  /-- Identifiers that exist already. -/
  duplicated : List Json

namespace ResponseError

/-- The message of an error body: the one it gives, or failing that the error object or the whole
body as text. -/
def reasonOf (body : Json) : String :=
  match body.get? "error" with
  | some (.object members) =>
    ((Json.get? "message" (.object members)).bind Json.asString?).getD
      (Json.object members).compact
  | some (.string s) => s
  | _ => ((body.get? "raw_body").bind Json.asString?).getD body.compact

/-- A list that stands in the error object under a key; empty where there is none. -/
def listOf (body : Json) (key : String) : List Json :=
  (((body.get? "error").bind (Json.get? key)).bind Json.asArray?).getD []

def ofBody (code : Nat) (body : Json) (requestId : Option String) : ResponseError where
  code
  reason := reasonOf body
  requestId
  missing := listOf body "missing"
  duplicated := listOf body "duplicated"

def listed (label : String) : List Json → String
  | [] => ""
  | items => " | " ++ label ++ ": " ++ (Json.array items).compact

def message (e : ResponseError) : String :=
  e.reason ++ " | code: " ++ toString e.code
    ++ (match e.requestId with
        | none => ""
        | some id => " | X-Request-ID: " ++ id)
    ++ listed "missing" e.missing ++ listed "duplicated" e.duplicated

end ResponseError

/-- Why no reply arrived. -/
inductive NetworkFault where
  /-- The address or a header has no written form. -/
  | unbuildable
  | unreachable
  | timedOut
  /-- The connection ended before a reply. -/
  | lost
deriving DecidableEq

inductive HttpError where
  | response (e : ResponseError)
  /-- Every try was answered with a request to try again. -/
  | maxRetries (tries : Nat) (last : ResponseError)
  | emptyPath
  | network (fault : NetworkFault)
  | decode (e : DecodeError)

namespace HttpError

def emptyPathMessage : String := "Request path cannot be empty."

/-- The reason given for every fault of the network. -/
def networkReason : String := "network"

def message : HttpError → String
  | response e => e.message
  | maxRetries tries last =>
    "Exceeded maximum retry count of " ++ toString tries ++ ". Last error: " ++ last.message
  | emptyPath => emptyPathMessage
  | network _ => "Network error: " ++ networkReason
  | decode e => "Failed to decode response body: " ++ e.message

/-- The status of the reply, if there was one. -/
def status? : HttpError → Option Nat
  | response e => some e.code
  | maxRetries _ last => some last.code
  | _ => none

def requestId? : HttpError → Option String
  | response e => e.requestId
  | maxRetries _ last => last.requestId
  | _ => none

/-- From 500 on it is not known whether the request took effect. -/
def outcomeOfStatus (code : Nat) (reason : String) : SubmitOutcome :=
  if 500 ≤ code then .serverError code reason else .clientError code reason

/-- What a failed request means for every item it carried. -/
def outcome : HttpError → SubmitOutcome
  | response e => outcomeOfStatus e.code e.reason
  | maxRetries _ last => outcomeOfStatus last.code last.reason
  | emptyPath => .notSent emptyPathMessage
  | network .timedOut => .timeout
  | network .unbuildable => .notSent networkReason
  | network .unreachable => .notSent networkReason
  | network .lost => .interrupted networkReason
  | decode e => .interrupted e.message

end HttpError

end AssetHierarchy
