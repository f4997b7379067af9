import AssetHierarchy.Config.Error
import AssetHierarchy.Text.Blank

/-! The names a client presents itself with: the project it works in, the token that authorises it
and the application on whose behalf it calls. They are kept as given; only empty ones are refused,
and blank ones except for the token. -/
namespace AssetHierarchy

structure ProjectName where
  text : String
  not_blank : Text.allBlank text = false
deriving DecidableEq

def ProjectName.parse (s : String) : Except ConfigError ProjectName :=
  if h : Text.allBlank s = false then .ok ⟨s, h⟩ else .error .emptyProject

structure ApiToken where
  text : String
  not_empty : text ≠ ""
deriving DecidableEq

namespace ApiToken

def parse (s : String) : Except ConfigError ApiToken :=
  if h : s = "" then .error .emptyToken else .ok ⟨s, h⟩

/-- What is shown in place of the secret. -/
def masked (_ : ApiToken) : String := "ApiToken(*****)"

/-- The value of the `Authorization` header. -/
def authorization (t : ApiToken) : String := "Bearer " ++ t.text

end ApiToken

structure ClientName where
  text : String
  not_blank : Text.allBlank text = false
deriving DecidableEq

def ClientName.parse (s : String) : Except ConfigError ClientName :=
  if h : Text.allBlank s = false then .ok ⟨s, h⟩ else .error .emptyClientName

end AssetHierarchy
