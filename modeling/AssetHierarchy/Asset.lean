import AssetHierarchy.Node

/-! An asset as the service returns it, and the change that an update asks for. -/
namespace AssetHierarchy

/-- A point in time, in whole milliseconds from the start of 1970. The range is that of the years
from -262143 to 262142. -/
structure Time where
  milliseconds : Int
  earliest_le : -8334601228800000 ≤ milliseconds
  le_latest : milliseconds ≤ 8210266876799999
deriving DecidableEq

namespace Time

def ofInt? (ms : Int) : Option Time :=
  if h : -8334601228800000 ≤ ms ∧ ms ≤ 8210266876799999 then some ⟨ms, h.1, h.2⟩ else none

def toJson (t : Time) : Json := .number (.ofInt t.milliseconds)

def decode : Decoder Time
  | .number n =>
    match n.toInt? with
    | none => .error (.invalidType (.number n) .milliseconds)
    | some ms =>
      match ofInt? ms with
      | none => .error (.illegalTime ms)
      | some t => .ok t
  | v => .error (.invalidType v .milliseconds)

end Time

structure Asset where
  id : UInt64
  externalId : Option String := none
  name : String
  parentId : Option UInt64 := none
  parentExternalId : Option String := none
  /-- The id of the top of the tree to which the asset belongs. -/
  rootId : Option UInt64 := none
  description : Option String := none
  dataSetId : Option UInt64 := none
  metadata : Option Metadata := none
  source : Option String := none
  createdTime : Option Time := none
  lastUpdatedTime : Option Time := none
deriving DecidableEq

namespace Asset

def members (a : Asset) : List (String × Json) :=
  Json.member? "createdTime" Time.toJson a.createdTime
    ++ (Json.member? "dataSetId" .natural a.dataSetId
    ++ (Json.member? "description" .string a.description
    ++ (Json.member? "externalId" .string a.externalId
    ++ (("id", .natural a.id)
    :: (Json.member? "lastUpdatedTime" Time.toJson a.lastUpdatedTime
    ++ (Json.member? "metadata" Metadata.toJson a.metadata
    ++ (("name", .string a.name)
    :: (Json.member? "parentExternalId" .string a.parentExternalId
    ++ (Json.member? "parentId" .natural a.parentId
    ++ (Json.member? "rootId" .natural a.rootId
    ++ Json.member? "source" .string a.source))))))))))

def toJson (a : Asset) : Json := .object a.members

/-- What is missing is looked at only after all that is there. -/
def ofMembers (ms : List (String × Json)) : Except DecodeError Asset := do
  let createdTime ← Decoder.field ms "createdTime" Time.decode
  let dataSetId ← Decoder.field ms "dataSetId" .unsigned
  let description ← Decoder.field ms "description" .string
  let externalId ← Decoder.field ms "externalId" .string
  let id? ← Decoder.present ms "id" .unsigned
  let lastUpdatedTime ← Decoder.field ms "lastUpdatedTime" Time.decode
  let metadata ← Decoder.field ms "metadata" Metadata.decode
  let name? ← Decoder.present ms "name" .string
  let parentExternalId ← Decoder.field ms "parentExternalId" .string
  let parentId ← Decoder.field ms "parentId" .unsigned
  let rootId ← Decoder.field ms "rootId" .unsigned
  let source ← Decoder.field ms "source" .string
  let id ← Decoder.required "id" id?
  let name ← Decoder.required "name" name?
  .ok { id, externalId, name, parentId, parentExternalId, rootId, description, dataSetId, metadata,
        source, createdTime, lastUpdatedTime }

def recordName : String := "Asset"

/-- The element at a position, absent where the array ends before it. -/
def element {α : Type} (items : List Json) (index : Nat) (decode : Decoder α) :
    Except DecodeError (Option α) :=
  match items[index]? with
  | none => .ok none
  | some v => Decoder.optional decode v

def requiredElement {α : Type} (items : List Json) (index : Nat) (decode : Decoder α) :
    Except DecodeError α :=
  match items[index]? with
  | none => .error (.tooShort index recordName 12)
  | some v => decode v

def ofItems (items : List Json) : Except DecodeError Asset := do
  let id ← requiredElement items 0 .unsigned
  let externalId ← element items 1 .string
  let name ← requiredElement items 2 .string
  let parentId ← element items 3 .unsigned
  let parentExternalId ← element items 4 .string
  let rootId ← element items 5 .unsigned
  let description ← element items 6 .string
  let dataSetId ← element items 7 .unsigned
  let metadata ← element items 8 Metadata.decode
  let source ← element items 9 .string
  let createdTime ← element items 10 Time.decode
  let lastUpdatedTime ← element items 11 Time.decode
  if 12 < items.length then .error (.tooLong items.length)
  else
    .ok { id, externalId, name, parentId, parentExternalId, rootId, description, dataSetId,
          metadata, source, createdTime, lastUpdatedTime }

def decode : Decoder Asset
  | .object ms => ofMembers ms
  | .array items => ofItems items
  | v => .error (.invalidType v (.record recordName))

end Asset

/-! ### Updates -/

/-- The change of one field to a value. -/
def setTo {α : Type} (encode : α → Json) (a : α) : Json :=
  .object [("set", encode a)]

/-- The parent that an update names: by external id unless that is empty, else by internal id. -/
def Node.parentChange (n : Node) : List (String × Json) :=
  match n.parentKey? with
  | some p => [("parentExternalId", setTo .string p)]
  | none => Json.member? "parentId" (setTo .natural) n.parentId

/-- The fields that an update sets, in the order of their names. The others stay as they are. -/
def Node.changes (n : Node) : List (String × Json) :=
  Json.member? "dataSetId" (setTo .natural) n.dataSetId
    ++ (Json.member? "description" (setTo .string) n.description
    ++ (Json.member? "externalId" (setTo .string) n.externalId
    ++ (Json.member? "metadata" (setTo Metadata.toJson) n.metadata
    ++ (Json.member? "name" (setTo .string) n.name
    ++ (n.parentChange
    ++ Json.member? "source" (setTo .string) n.source)))))

/-- The item of an update request for the asset with the given id. -/
def Node.updateItem (n : Node) (id : UInt64) : Json :=
  .object [("id", .natural id), ("update", .object n.changes)]

end AssetHierarchy
