/-! Percent-encoding of one path segment. Letters, digits and `-_.~` stand for themselves; every
other byte of the UTF-8 form is written as `%` and two upper-case hexadecimal digits, so the
result holds no slash and no white space. -/
namespace AssetHierarchy.Text.Percent

def isUnreserved (b : UInt8) : Bool :=
  (0x30 ≤ b && b ≤ 0x39) || (0x41 ≤ b && b ≤ 0x5A) || (0x61 ≤ b && b ≤ 0x7A)
    || b == 0x2D || b == 0x2E || b == 0x5F || b == 0x7E

/-- The upper-case hexadecimal digit of a number below sixteen. -/
def hexDigit (n : Nat) : Char :=
  Char.ofNat (if n < 10 then 0x30 + n else 0x37 + n)

def escapeByte (b : UInt8) : List Char :=
  ['%', hexDigit (b.toNat / 16), hexDigit (b.toNat % 16)]

def encodeByte (b : UInt8) : List Char :=
  if isUnreserved b then [Char.ofNat b.toNat] else escapeByte b

def encode (s : String) : String :=
  String.ofList (s.toUTF8.toList.flatMap encodeByte)

end AssetHierarchy.Text.Percent
