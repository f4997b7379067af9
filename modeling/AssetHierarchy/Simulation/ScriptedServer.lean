import AssetHierarchy.Assets.Service

/-! A service that answers from a script. The first rule that fits a message and has uses left
answers it; a message that no rule fits is answered as if every item was written or found. -/
namespace AssetHierarchy

/-- What a rule does with a message. -/
inductive ScriptedAnswer where
  | reply (status : Nat) (headers : List (String × String)) (text : String) (truncated : Bool)
  | close
  | hang

structure ServerRule where
  /-- The end of the target after a slash, if the rule is for some targets only. -/
  path : Option String := none
  /-- The key of the first item, if the rule is for some items only. -/
  first : Option String := none
  uses : Nat := 1
  answer : ScriptedAnswer

structure ServerScript where
  /-- Whether connections to the server are accepted. -/
  reachable : Bool := true
  authority : String
  rules : List ServerRule := []
  /-- The external ids and the ids of the assets that exist, as JSON values. -/
  existing : List Json := []

namespace ServerScript

/-! ### Items -/

def itemsOf (body : Json) : List Json :=
  ((body.get? "items").bind Json.asArray?).getD []

/-- The external id of an item, given as such or as a change. -/
def externalIdOf? (item : Json) : Option String :=
  match (item.get? "externalId").bind Json.asString? with
  | some x => some x
  | none =>
    (((item.get? "update").bind (Json.get? "externalId")).bind (Json.get? "set")).bind
      Json.asString?

def keyOf (item : Json) : String :=
  (externalIdOf? item).getD ((item.get? "id").getD .null).compact

/-! ### Rules -/

def endsWithPath (path target : String) : Bool :=
  ('/' :: path.toList).isSuffixOf target.toList

def fits (target : String) (body : Json) (r : ServerRule) : Bool :=
  0 < r.uses && r.path.all (endsWithPath · target)
    && r.first.all fun key => ((itemsOf body).head?.map keyOf) == some key

/-- The answer of the first rule that fits, and the rules with one use of it less. -/
def useRule (target : String) (body : Json) :
    List ServerRule → Option (ScriptedAnswer × List ServerRule)
  | [] => none
  | r :: rest =>
    if fits target body r then some (r.answer, { r with uses := r.uses - 1 } :: rest)
    else (useRule target body rest).map fun (a, rest) => (a, r :: rest)

/-! ### Replies on the wire -/

def isSpaceOrTab (c : Char) : Bool := c == ' ' || c == '\t'

/-- A header value as it arrives: without space around it. -/
def arrivingValue (s : String) : String :=
  String.ofList (Text.dropEndWhile isSpaceOrTab (s.toList.dropWhile isSpaceOrTab))

/-- A byte-order mark at the front is not part of the text. -/
def withoutMark (s : String) : String :=
  match s.toList with
  | c :: rest => if c.toNat = 0xFEFF then String.ofList rest else s
  | [] => s

/-- The text of a reply as it arrives, if it does so in full. Two statuses have no body. -/
def arrivingText (status : Nat) (text : String) (truncated : Bool) : Option String :=
  if status = 204 || status = 304 then some ""
  else if truncated then none else some (withoutMark text)

def answerOf : ScriptedAnswer → Answer
  | .reply status headers text truncated =>
    .reply status (headers.map fun (k, v) => (k, arrivingValue v))
      (arrivingText status text truncated)
  | .close => .fault .lost
  | .hang => .fault .timedOut

/-! ### Answers without a rule -/

def byteSum (x : String) : Nat := x.toUTF8.toList.foldl (fun n b => n + b.toNat) 0

/-- The asset that an item is answered with. -/
def assetOf (item : Json) : Json :=
  let x := externalIdOf? item
  let id := (item.get? "id").getD (.natural (UInt64.ofNat (1000 + byteSum (x.getD ""))))
  .ofPairs (Json.member? "externalId" .string x
    ++ [("id", id), ("name", .string (x.getD "n"))])

def exists? (s : ServerScript) (item : Json) : Bool :=
  let key : Option Json :=
    match externalIdOf? item with
    | some x => some (.string x)
    | none => item.get? "id"
  key.any fun k => (s.existing.map Json.compact).contains k.compact

def defaultAnswer (s : ServerScript) (target : String) (body : Json) : ScriptedAnswer :=
  let items := itemsOf body
  let found := if endsWithPath "assets/byids" target then items.filter s.exists? else items
  .reply 200 [] (Json.object [("items", .array (found.map assetOf))]).compact false

/-- The state of the server is the script with the uses that are left. -/
def answer (m : Message) (s : ServerScript) : Answer × ServerScript :=
  match Url.parse? m.url with
  | none => (.fault .unbuildable, s)
  | some url =>
    if !s.reachable || url.authority ≠ s.authority then (.fault .unreachable, s)
    else
      match useRule url.target m.body s.rules with
      | some (a, rules) => (answerOf a, { s with rules })
      | none => (answerOf (s.defaultAnswer url.target m.body), s)

def peer : Peer ServerScript where
  answer := answer

end ServerScript

end AssetHierarchy
