import AssetHierarchy.Http.Error

/-! Requests. Every request posts a JSON body to a path below that of the project. -/
namespace AssetHierarchy

structure Request where
  path : String
  body : Json
  /-- Set on top of those that every request has. -/
  headers : List (String × String) := []
  /-- How often the request is made while the service asks to try again. -/
  tries : Nat := 1

namespace Request

def post (path : String) (body : Json) : Request := { path, body }

def postItems (path : String) (items : List Json) : Request :=
  post path (.object [("items", .array items)])

variable (r : Request)

/-- Sets a member of the body, if that is an object. -/
def withField (key : String) (value : Json) : Request :=
  match r.body with
  | .object members => { r with body := .object (Json.insert key value members) }
  | _ => r

def withHeader (key value : String) : Request :=
  { r with headers := r.headers ++ [(key, value)] }

/-- No tries count as one. -/
def withTries (tries : Nat) : Request := { r with tries := max 1 tries }

/-- A path of slashes only names nothing. -/
def verify : Except HttpError Request :=
  if r.path.toList.all (· == '/') then .error .emptyPath else .ok r

end Request

end AssetHierarchy
