import AssetHierarchy.Text.Invisible

/-! Text between double quotes, as diagnostics show it. Quotes and backslashes are escaped, the
common controls have a letter, and every other character without a visible form is written as
`\u` and its code point in braces. -/
namespace AssetHierarchy.Text.Quoted

def lowerHex (n : Nat) : List Char :=
  Nat.toDigits 16 n

def escape (c : Char) : List Char :=
  match c with
  | '"' => ['\\', '"']
  | '\\' => ['\\', '\\']
  | '\n' => ['\\', 'n']
  | '\r' => ['\\', 'r']
  | '\t' => ['\\', 't']
  | c =>
    if c.toNat = 0 then ['\\', '0']
    else if isInvisible c then ['\\', 'u', '\x7b'] ++ lowerHex c.toNat ++ ['\x7d']
    else [c]

def quote (s : String) : String :=
  String.ofList ('"' :: s.toList.flatMap escape ++ ['"'])

end AssetHierarchy.Text.Quoted
