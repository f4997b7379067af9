import AssetHierarchy.Json.Decode

/-! Metadata of an asset: texts by key. The keys ascend strictly, so two metadata with the same
entries are equal. -/
namespace AssetHierarchy

structure Metadata where
  entries : List (String × String)
  ascending : entries.Pairwise (·.1 < ·.1)
deriving DecidableEq

namespace Metadata

def empty : Metadata := ⟨[], .nil⟩

/-- Of several pairs with one key the last counts. -/
def ofList (pairs : List (String × String)) : Metadata :=
  ⟨Json.ordered pairs, Json.pairwise_ordered pairs⟩

def insert (m : Metadata) (key value : String) : Metadata :=
  ⟨Json.insert key value m.entries, Json.pairwise_insert key value m.ascending⟩

def toJson (m : Metadata) : Json :=
  .object (m.entries.map fun (k, v) => (k, .string v))

def decode : Decoder Metadata
  | .object members => (Decoder.stringMembers members).map ofList
  | v => .error (.invalidType v .map)

end Metadata

end AssetHierarchy
