import AssetHierarchy.Metadata

/-! A node: one asset that is to be written as part of a hierarchy. Its external id names it. Its
parent is given by external id, which may name another node or an asset that exists already, or by
internal id; a node with neither is a root. A node with an internal id of its own exists already
and is updated instead of created. -/
namespace AssetHierarchy

structure Node where
  id : Option UInt64 := none
  externalId : Option String := none
  name : Option String := none
  parentExternalId : Option String := none
  parentId : Option UInt64 := none
  description : Option String := none
  dataSetId : Option UInt64 := none
  metadata : Option Metadata := none
  source : Option String := none
deriving DecidableEq

namespace Node

/-- A root with the given external id and name. -/
def named (externalId name : String) : Node :=
  { externalId := some externalId, name := some name }

variable (n : Node)

def withParent (externalId : String) : Node := { n with parentExternalId := some externalId }

def withParentId (id : UInt64) : Node := { n with parentId := some id }

def withId (id : UInt64) : Node := { n with id := some id }

def withDescription (text : String) : Node := { n with description := some text }

def withMetadata (key value : String) : Node :=
  { n with metadata := some ((n.metadata.getD .empty).insert key value) }

/-- The external id, or the empty text when there is none. -/
def xid : String := n.externalId.getD ""

/-- No parent is named, not even an empty one. -/
def isRoot : Bool := n.parentExternalId.isNone && n.parentId.isNone

def isUpdate : Bool := n.id.isSome

/-- The external id under which other nodes can name this one; an empty one names nothing. -/
def key? : Option String := n.externalId.filter (· ≠ "")

/-- The external id under which the parent is looked up. -/
def parentKey? : Option String := n.parentExternalId.filter (· ≠ "")

/-! ### JSON -/

/-- Absent fields are left out; the others stand in the order of their names. -/
def members : List (String × Json) :=
  Json.member? "dataSetId" .natural n.dataSetId
    ++ (Json.member? "description" .string n.description
    ++ (Json.member? "externalId" .string n.externalId
    ++ (Json.member? "id" .natural n.id
    ++ (Json.member? "metadata" Metadata.toJson n.metadata
    ++ (Json.member? "name" .string n.name
    ++ (Json.member? "parentExternalId" .string n.parentExternalId
    ++ (Json.member? "parentId" .natural n.parentId
    ++ Json.member? "source" .string n.source)))))))

def toJson : Json := .object n.members

def ofMembers (ms : List (String × Json)) : Except DecodeError Node := do
  let dataSetId ← Decoder.field ms "dataSetId" .unsigned
  let description ← Decoder.field ms "description" .string
  let externalId ← Decoder.field ms "externalId" .string
  let id ← Decoder.field ms "id" .unsigned
  let metadata ← Decoder.field ms "metadata" Metadata.decode
  let name ← Decoder.field ms "name" .string
  let parentExternalId ← Decoder.field ms "parentExternalId" .string
  let parentId ← Decoder.field ms "parentId" .unsigned
  let source ← Decoder.field ms "source" .string
  .ok { id, externalId, name, parentExternalId, parentId, description, dataSetId, metadata, source }

def recordName : String := "AssetNode"

/-- The element at a position, which may be `null` but not missing. -/
def element {α : Type} (items : List Json) (index : Nat) (decode : Decoder α) :
    Except DecodeError (Option α) :=
  match items[index]? with
  | none => .error (.tooShort index recordName 9)
  | some v => Decoder.optional decode v

def ofItems (items : List Json) : Except DecodeError Node := do
  let id ← element items 0 .unsigned
  let externalId ← element items 1 .string
  let name ← element items 2 .string
  let parentExternalId ← element items 3 .string
  let parentId ← element items 4 .unsigned
  let description ← element items 5 .string
  let dataSetId ← element items 6 .unsigned
  let metadata ← element items 7 Metadata.decode
  let source ← element items 8 .string
  if 9 < items.length then .error (.tooLong items.length)
  else
    .ok { id, externalId, name, parentExternalId, parentId, description, dataSetId, metadata,
          source }

def decode : Decoder Node
  | .object ms => ofMembers ms
  | .array items => ofItems items
  | v => .error (.invalidType v (.record recordName))

end Node

end AssetHierarchy
