import AssetHierarchy.Number.Double

/-! The decimal digits that identify a double. Among the decimals that read back as the value, one
with the fewest digits is taken, and of two the nearer. Each digit count is tried on the two
neighbours of the value on the grid of that count. -/
namespace AssetHierarchy.Double

/-- A decimal `d₁.d₂d₃… * 10 ^ exponent` by its digits without trailing zeros. -/
structure Digits where
  digits : List Char
  exponent : Int

/-- The exponent of the largest power of ten that is at most `num / den`. -/
def decimalExponent (num den : Nat) : Int :=
  let e : Int := (decimalLength num : Int) - decimalLength den
  if den * powerOfTen e.toNat ≤ num * powerOfTen (-e).toNat then e else e - 1

/-- The nearer of the neighbours of `num / den` on the grid `10 ^ unit` that read back as `d`. -/
def neighbour? (d : Double) (num den : Nat) (unit : Int) : Option Nat :=
  let n := num * powerOfTen (-unit).toNat
  let g := den * powerOfTen unit.toNat
  let below := n / g
  let readsBack := fun c => 0 < c && (ofDecimal false c unit).magnitude == d.magnitude
  let nearer := roundDiv n g
  let farther := if nearer = below then below + 1 else below
  [nearer, farther].find? readsBack

/-- Without trailing zeros, which move into the exponent of the last digit. -/
def dropTrailingZeros (cs : List Char) : List Char :=
  (cs.reverse.dropWhile (· == '0')).reverse

/-- The digits of a finite value other than zero. Seventeen always suffice. -/
def shortest (d : Double) : Digits :=
  let (num, den) := d.ratio
  let e := decimalExponent num den
  let found := (List.range 17).findSome? fun (k : Nat) =>
    (neighbour? d num den (e - k)).map fun c => (c, e - k)
  match found with
  | none => ⟨['0'], 0⟩
  | some (c, unit) =>
    let ds := Nat.toDigits 10 c
    ⟨dropTrailingZeros ds, unit + ds.length - 1⟩

/-- The exponents of the numbers that are written positionally. -/
structure Layout where
  leastPositional : Int
  greatestPositional : Int

def zeros (n : Nat) : List Char := List.replicate n '0'

/-- An exponent that is written out has a sign in either direction and no leading zero. -/
def signedExponent (e : Int) : List Char :=
  'e' :: (if e < 0 then '-' else '+') :: Nat.toDigits 10 e.natAbs

/-- Positional text always has a point and a digit after it. -/
def positional (ds : List Char) (e : Int) : List Char :=
  if e < 0 then '0' :: '.' :: zeros ((-e).toNat - 1) ++ ds
  else
    let whole := e.toNat + 1
    let fraction := ds.drop whole
    ds.take whole ++ zeros (whole - ds.length) ++
      '.' :: (if fraction.isEmpty then ['0'] else fraction)

def scientificText (ds : List Char) (e : Int) : List Char :=
  match ds with
  | [] => []
  | [d] => d :: signedExponent e
  | d :: rest => d :: '.' :: rest ++ signedExponent e

/-- The text of a finite value. -/
def render (layout : Layout) (d : Double) : String :=
  let sign := if d.isNegative then ['-'] else []
  if d.isZero then String.ofList (sign ++ ['0', '.', '0'])
  else
    let ⟨ds, e⟩ := d.shortest
    let body :=
      if layout.leastPositional ≤ e && e ≤ layout.greatestPositional then positional ds e
      else scientificText ds e
    String.ofList (sign ++ body)

end AssetHierarchy.Double
