import AssetHierarchy.Number.Double

/-! Reading a double from plain text. A sign is optional; then stands `inf`, `infinity` or `nan` in
any case, or digits with at most one point among or beside them and an optional exponent. Nothing
else may stand before, between or after. The value is the nearest one. -/
namespace AssetHierarchy.Double

def isDigit (c : Char) : Bool := '0' ≤ c && c ≤ '9'

def digitValue (c : Char) : Nat := c.toNat - 0x30

/-- The natural number written by a run of digits after the number `n`. -/
def appendDigits (n : Nat) (ds : List Char) : Nat :=
  ds.foldl (fun n c => 10 * n + digitValue c) n

/-- The sign at the front and the rest. -/
def splitSign (cs : List Char) : Bool × List Char :=
  match cs with
  | '+' :: rest => (false, rest)
  | '-' :: rest => (true, rest)
  | _ => (false, cs)

/-- The exponent that the rest of a number's text gives, which must be used up. -/
def readExponent? (cs : List Char) : Option Int :=
  match cs with
  | [] => some 0
  | c :: rest =>
    if c == 'e' || c == 'E' then
      let (negative, ds) := splitSign rest
      if ds.isEmpty || !ds.all isDigit then none
      else
        let e := appendDigits 0 ds
        some (if negative then -e else e)
    else none

def readNumber? (negative : Bool) (cs : List Char) : Option Double :=
  let whole := cs.takeWhile isDigit
  let rest := cs.dropWhile isDigit
  let (fraction, rest) :=
    match rest with
    | '.' :: rest => (rest.takeWhile isDigit, rest.dropWhile isDigit)
    | rest => ([], rest)
  if whole.isEmpty && fraction.isEmpty then none
  else (readExponent? rest).map fun e =>
    ofDecimal negative (appendDigits (appendDigits 0 whole) fraction) (e - fraction.length)

def read? (s : String) : Option Double :=
  let (negative, body) := splitSign s.toList
  let word := body.map Char.toLower
  if word = ['i', 'n', 'f'] || word = ['i', 'n', 'f', 'i', 'n', 'i', 't', 'y'] then
    some (infinity negative)
  else if word = ['n', 'a', 'n'] then some nan
  else readNumber? negative body

end AssetHierarchy.Double
