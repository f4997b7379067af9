import AssetHierarchy.Asset
import AssetHierarchy.Proofs.Members
import AssetHierarchy.Proofs.Representation

/-! What is written of a node, and the parent that it is written under. The links of a graph, the
change of an update and the JSON of a node each decide on their own which of two references to a
parent counts. They agree: what an update names is what the graph has looked up, and so is what a
node of a valid input is created with. -/
namespace AssetHierarchy

/-! ### References -/

namespace Node

variable {node : Node}

end Node

namespace Graph

variable {node : Node} {r : ParentRef}

end Graph

/-! ### Members -/

namespace Node

variable {node : Node}

/-- A field other than the id and the parent has a value. -/
inductive Holds (node : Node) : String → Json → Prop
  | externalId {x : String} (h : node.externalId = some x) : Holds node "externalId" (.string x)
  | name {x : String} (h : node.name = some x) : Holds node "name" (.string x)
  | description {x : String} (h : node.description = some x) : Holds node "description" (.string x)
  | source {x : String} (h : node.source = some x) : Holds node "source" (.string x)
  | dataSetId {d : UInt64} (h : node.dataSetId = some d) : Holds node "dataSetId" (.natural d)
  | metadata {m : Metadata} (h : node.metadata = some m) : Holds node "metadata" m.toJson

end Node

example : (((Node.named "c" "Child").withParent "").withParentId 7).updateItem 3 =
    .object [("id", .natural 3), ("update", .object [("externalId", setTo .string "c"),
      ("name", setTo .string "Child"), ("parentId", setTo .natural 7)])] := rfl

end AssetHierarchy
