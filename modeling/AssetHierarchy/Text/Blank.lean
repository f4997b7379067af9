/-! White space in the sense of the Unicode property `White_Space`, and trimming by it. The
property has 25 members; zero-width space, the byte-order mark and the information separators
are not among them. -/
namespace AssetHierarchy.Text

def isBlank (c : Char) : Bool :=
  let n := c.toNat
  (0x09 ≤ n && n ≤ 0x0D) || n == 0x20 || n == 0x85 || n == 0xA0 || n == 0x1680
    || (0x2000 ≤ n && n ≤ 0x200A) || n == 0x2028 || n == 0x2029 || n == 0x202F
    || n == 0x205F || n == 0x3000

def dropEndWhile (p : Char → Bool) (cs : List Char) : List Char :=
  (cs.reverse.dropWhile p).reverse

/-- Without the white space at both ends. -/
def trim (cs : List Char) : List Char :=
  dropEndWhile isBlank (cs.dropWhile isBlank)

/-- Empty, or white space only. -/
def allBlank (s : String) : Bool :=
  s.toList.all isBlank

end AssetHierarchy.Text
