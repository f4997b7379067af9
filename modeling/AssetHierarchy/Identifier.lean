import AssetHierarchy.Json.Decode

/-! The two ways to address an asset: by the number the service gave it or by the text its owner
chose. -/
namespace AssetHierarchy

/-- The largest number that the service gives to an asset. -/
def maxInternalId : UInt64 := 9007199254740991

def isValidInternalId (id : UInt64) : Bool :=
  1 ≤ id && id ≤ maxInternalId

inductive Identifier where
  | id (n : UInt64)
  | externalId (x : String)
deriving DecidableEq

namespace Identifier

def externalId? : Identifier → Option String
  | externalId x => some x
  | id _ => none

def describe : Identifier → String
  | id n => "id=" ++ toString n.toNat
  | externalId x => "external_id=" ++ x

/-- Numbers come before texts; either kind has its own order. -/
def le : Identifier → Identifier → Bool
  | id m, id n => m ≤ n
  | id _, externalId _ => true
  | externalId _, id _ => false
  | externalId x, externalId y => x ≤ y

def sort (ids : List Identifier) : List Identifier :=
  ids.mergeSort le

def toJson : Identifier → Json
  | id n => .object [("id", .natural n)]
  | externalId x => .object [("externalId", .string x)]

/-- An object with the kind as its only key. -/
def decode : Decoder Identifier
  | .object [("id", v)] => (Decoder.unsigned v).map id
  | .object [("externalId", v)] => (Decoder.string v).map externalId
  | .object [(key, _)] => .error (.unknownVariant key)
  | .object _ => .error .severalKeys
  | .string "id" | .string "externalId" => .error .variantWithoutValue
  | .string name => .error (.unknownVariant name)
  | v => .error (.invalidType v .identifier)

end Identifier

end AssetHierarchy
