import AssetHierarchy.Config.Error
import AssetHierarchy.Text.Blank

/-! The version of the service that request paths name. -/
namespace AssetHierarchy

inductive ApiVersion where
  | v1
  | playground
deriving DecidableEq

namespace ApiVersion

/-- The path segment of a version. -/
def text : ApiVersion → String
  | v1 => "v1"
  | playground => "playground"

/-- Case counts only beyond ASCII, white space around the name does not. -/
def parse (s : String) : Except ConfigError ApiVersion :=
  let name := (Text.trim s.toList).map Char.toLower
  if name = v1.text.toList then .ok v1
  else if name = playground.text.toList then .ok playground
  else .error (.invalidApiVersion s)

theorem text_injective {a b : ApiVersion} (h : a.text = b.text) : a = b := by
  cases a <;> cases b <;> first | rfl | exact absurd h (by decide)

end ApiVersion

end AssetHierarchy
