import AssetHierarchy.Json.Printer
import AssetHierarchy.Text.Quoted

/-! Decoding JSON values into typed data, and the ways in which that fails. Records have two forms:
an object, whose members are read in the order of their names, and an array, which is read by
position. -/
namespace AssetHierarchy

/-- What a decoder expects in a place. -/
inductive Json.Wanted where
  | unsigned
  | string
  | map
  | sequence
  | record (name : String)
  | identifier
  | milliseconds

def Json.Wanted.text : Json.Wanted → String
  | unsigned => "u64"
  | string => "a string"
  | map => "a map"
  | sequence => "a sequence"
  | record name => "struct " ++ name
  | identifier => "string or map"
  | milliseconds => "a unix timestamp in milliseconds"

/-- The words for a value that stands in the wrong place. -/
def Json.describe : Json → String
  | .null => "null"
  | .bool b => "boolean `" ++ toString b ++ "`"
  | .number (.float d) => "floating point `" ++ d.render floatLayout ++ "`"
  | .number n => "integer `" ++ n.render ++ "`"
  | .string s => "string " ++ Text.Quoted.quote s
  | .array _ => "sequence"
  | .object _ => "map"

inductive DecodeError where
  | invalidType (found : Json) (wanted : Json.Wanted)
  | negative (k : Fin Json.negativeCount)
  | missingField (name : String)
  /-- An array ends before element `index` of a record that has `size` fields. -/
  | tooShort (index : Nat) (record : String) (size : Nat)
  | tooLong (length : Nat)
  | unknownVariant (name : String)
  | severalKeys
  | variantWithoutValue
  | illegalTime (milliseconds : Int)

namespace DecodeError

def message : DecodeError → String
  | invalidType found wanted => "invalid type: " ++ found.describe ++ ", expected " ++ wanted.text
  | negative k =>
    "invalid value: integer `" ++ (Json.Number.negative k).render ++ "`, expected u64"
  | missingField name => "missing field `" ++ name ++ "`"
  | tooShort index record size =>
    "invalid length " ++ toString index ++ ", expected struct " ++ record ++ " with "
      ++ toString size ++ " elements"
  | tooLong length => "invalid length " ++ toString length ++ ", expected fewer elements in array"
  | unknownVariant name =>
    "unknown variant `" ++ name ++ "`, expected `id` or `externalId`"
  | severalKeys => "invalid value: map, expected map with a single key"
  | variantWithoutValue => "invalid type: unit variant, expected newtype variant"
  | illegalTime ms => "value is not a legal timestamp: " ++ toString ms

end DecodeError

abbrev Decoder (α : Type) := Json → Except DecodeError α

namespace Decoder

def unsigned : Decoder UInt64
  | .number (.natural n) => .ok n
  | .number (.negative k) => .error (.negative k)
  | v => .error (.invalidType v .unsigned)

def string : Decoder String
  | .string s => .ok s
  | v => .error (.invalidType v .string)

/-- `null` stands for an absent value. -/
def optional {α : Type} (decode : Decoder α) : Decoder (Option α)
  | .null => .ok none
  | v => (decode v).map some

/-- Every element in order; the first that fails is reported. -/
def elements {α : Type} (decode : Decoder α) : List Json → Except DecodeError (List α)
  | [] => .ok []
  | v :: rest => do
    let a ← decode v
    let as ← elements decode rest
    .ok (a :: as)

def list {α : Type} (decode : Decoder α) : Decoder (List α)
  | .array items => elements decode items
  | v => .error (.invalidType v .sequence)

def stringMembers : List (String × Json) → Except DecodeError (List (String × String))
  | [] => .ok []
  | (k, v) :: rest => do
    let s ← string v
    let ss ← stringMembers rest
    .ok ((k, s) :: ss)

/-- The member of a name, if there is one. A `null` is then up to its decoder. -/
def present {α : Type} (members : List (String × Json)) (name : String) (decode : Decoder α) :
    Except DecodeError (Option α) :=
  match members.lookup name with
  | none => .ok none
  | some v => (decode v).map some

/-- The member of a name, where a missing one and a `null` mean the same. -/
def field {α : Type} (members : List (String × Json)) (name : String) (decode : Decoder α) :
    Except DecodeError (Option α) :=
  match members.lookup name with
  | none => .ok none
  | some v => optional decode v

def required {α : Type} (name : String) : Option α → Except DecodeError α
  | none => .error (.missingField name)
  | some a => .ok a

end Decoder

/-- A member that is left out when the value is absent. -/
def Json.member? {α : Type} (name : String) (encode : α → Json) : Option α → List (String × Json)
  | none => []
  | some a => [(name, encode a)]

end AssetHierarchy
