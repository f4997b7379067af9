import AssetHierarchy.Config.Error
import AssetHierarchy.Text.Blank

/-! The address of the service: a scheme and a rest that is not empty and holds no white space. It
is kept without white space around it and without slashes at its end, so that a path can be
appended. -/
namespace AssetHierarchy

structure BaseUrl where
  text : String
deriving DecidableEq

namespace BaseUrl

def schemes : List (List Char) := ["https://".toList, "http://".toList]

/-- What follows a known scheme at the front. -/
def afterScheme? (cs : List Char) : Option (List Char) :=
  schemes.findSome? fun scheme =>
    if scheme.isPrefixOf cs then some (cs.drop scheme.length) else none

def normalise (cs : List Char) : List Char :=
  Text.dropEndWhile (· == '/') (Text.trim cs)

def parse (s : String) : Except ConfigError BaseUrl :=
  let cs := normalise s.toList
  match afterScheme? cs with
  | some rest =>
    if rest.isEmpty || rest.any Text.isBlank then .error (.invalidBaseUrl s)
    else .ok ⟨String.ofList cs⟩
  | none => .error (.invalidBaseUrl s)

/-- The host and port: what stands between the scheme and the next slash. -/
def hostName (u : BaseUrl) : String :=
  let cs := u.text.toList
  String.ofList (((afterScheme? cs).getD cs).takeWhile (· != '/'))

def default : BaseUrl := ⟨"https://api.cognitedata.com"⟩

end BaseUrl

end AssetHierarchy
