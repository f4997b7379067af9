import AssetHierarchy.Json.Basic
import AssetHierarchy.Number.Shortest

/-! The compact text of a JSON value: no white space, the two necessary escapes, a letter for five
controls and `\u00` with two hexadecimal digits for the others. -/
namespace AssetHierarchy.Json

/-- Doubles are positional from `0.00001` to below `10 ^ 16`. -/
def floatLayout : Double.Layout where
  leastPositional := -5
  greatestPositional := 15

def Number.render : Number → String
  | .natural n => toString n.toNat
  | .negative k => "-" ++ toString (k.val + 1)
  | .float d => d.render floatLayout

def lowerHexDigit (n : Nat) : Char :=
  Char.ofNat (if n < 10 then 0x30 + n else 0x57 + n)

def escape (c : Char) : List Char :=
  match c with
  | '"' => ['\\', '"']
  | '\\' => ['\\', '\\']
  | '\n' => ['\\', 'n']
  | '\r' => ['\\', 'r']
  | '\t' => ['\\', 't']
  | c =>
    if c.toNat = 0x08 then ['\\', 'b']
    else if c.toNat = 0x0C then ['\\', 'f']
    else if c.toNat < 0x20 then
      ['\\', 'u', '0', '0', lowerHexDigit (c.toNat / 16), lowerHexDigit (c.toNat % 16)]
    else [c]

def quote (s : String) : String :=
  String.ofList ('"' :: s.toList.flatMap escape ++ ['"'])

mutual

def compact : Json → String
  | .null => "null"
  | .bool true => "true"
  | .bool false => "false"
  | .number n => n.render
  | .string s => quote s
  | .array items => "[" ++ ",".intercalate (compactItems items) ++ "]"
  | .object members => "\x7b" ++ ",".intercalate (compactMembers members) ++ "\x7d"

def compactItems : List Json → List String
  | [] => []
  | v :: rest => compact v :: compactItems rest

def compactMembers : List (String × Json) → List String
  | [] => []
  | (k, v) :: rest => (quote k ++ ":" ++ compact v) :: compactMembers rest

end

end AssetHierarchy.Json
