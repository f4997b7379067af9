import AssetHierarchy.Asset
import AssetHierarchy.Http.Delay
import AssetHierarchy.Http.Error
import AssetHierarchy.Json.Parser
import AssetHierarchy.Number.Reading

/-! Replies. Header names are in lower case, and one name can have several values. -/
namespace AssetHierarchy

structure Response where
  code : Nat
  headers : List (String × List String)
  body : Json

namespace Response

/-- The first value of a header. -/
def header? (r : Response) (name : String) : Option String :=
  (r.headers.lookup name).bind List.head?

def requestId? (r : Response) : Option String := r.header? "x-request-id"

/-- The seconds after which the service wants to be asked again. -/
def retryAfter? (r : Response) : Option Double :=
  (r.header? "retry-after").bind Double.read?

def isOk (r : Response) : Bool := 200 ≤ r.code && r.code ≤ 299

/-- The service asks to try again. -/
def isRetryable (r : Response) : Bool := [429, 502, 503, 504].contains r.code

def error (r : Response) : ResponseError := .ofBody r.code r.body r.requestId?

/-- The assets that the body lists. A body without a list of items has none. -/
def assets (r : Response) : Except DecodeError (List Asset) :=
  match r.body.get? "items" with
  | none => .ok []
  | some items => Decoder.list Asset.decode items

/-- The body of a reply by its text: an empty object for no text, and text that is no JSON is kept
as it is. -/
def bodyOfText (text : String) : Json :=
  if text = "" then .object []
  else (Json.parse? text).getD (.object [("raw_body", .string text)])

/-- Collects the values of each name, in the order in which the names first appear. -/
def groupHeaders (headers : List (String × String)) : List (String × List String) :=
  headers.foldl (fun acc (name, value) =>
    if (acc.map (·.1)).contains name then
      acc.map fun (k, vs) => if k = name then (k, vs ++ [value]) else (k, vs)
    else acc ++ [(name, [value])]) []

end Response

end AssetHierarchy
