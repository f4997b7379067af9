/-! Binary floating point with 64 bits, as a bit pattern: a sign, eleven bits of exponent and 52 of
fraction. Every operation goes through exact natural numbers and rounds once, to the nearest
value, a tie to the even neighbour; beyond the largest finite value lies infinity. -/
namespace AssetHierarchy

structure Double where
  bits : UInt64
deriving DecidableEq

namespace Double

def signBit : Nat := 0x8000000000000000

/-- The lowest bit of the exponent. -/
def exponentBit : Nat := 0x10000000000000

def infinityBits : Nat := 0x7FF0000000000000

def nanBits : Nat := 0x7FF8000000000000

def powerOfTen (k : Nat) : Nat := Nat.pow 10 k

/-- The value with the given bits below the sign. -/
def ofMagnitude (negative : Bool) (magnitude : Nat) : Double :=
  ⟨UInt64.ofNat (if negative then signBit + magnitude else magnitude)⟩

def infinity (negative : Bool) : Double := ofMagnitude negative infinityBits

def zero (negative : Bool) : Double := ofMagnitude negative 0

def nan : Double := ofMagnitude false nanBits

variable (d : Double)

def isNegative : Bool := signBit ≤ d.bits.toNat

/-- The bits below the sign. -/
def magnitude : Nat := d.bits.toNat % signBit

def isNan : Bool := infinityBits < d.magnitude

def isFinite : Bool := d.magnitude < infinityBits

def isZero : Bool := d.magnitude == 0

/-- The natural number `m` and the exponent `q` with `|d| = m * 2 ^ q`, for a finite value. -/
def scientific : Nat × Int :=
  let e : Nat := d.magnitude / exponentBit
  let f := d.magnitude % exponentBit
  if e = 0 then (f, -1074) else (f + exponentBit, (e : Int) - 1075)

/-- Numerator and denominator of the absolute value, for a finite value. -/
def ratio : Nat × Nat :=
  let (m, q) := d.scientific
  (m <<< q.toNat, 1 <<< (-q).toNat)

/-- The quotient to the nearest natural number, a tie to the even one. -/
def roundDiv (num den : Nat) : Nat :=
  let q := num / den
  let r := num % den
  if den < 2 * r || (2 * r == den && q % 2 == 1) then q + 1 else q

/-- The exponent of the largest power of two that is at most `num / den`. -/
def binaryExponent (num den : Nat) : Int :=
  let e : Int := (num.log2 : Int) - den.log2
  if den <<< e.toNat ≤ num <<< (-e).toNat then e else e - 1

/-- The bits below the sign of the value nearest to `num / den`. The fraction is scaled so that its
rounded quotient has 53 bits, or as many as the subnormal range leaves; a quotient that rounds up
to 54 bits carries into the exponent by itself. -/
def roundedMagnitude (num den : Nat) : Nat :=
  if num = 0 then 0
  else
    let e := max (binaryExponent num den - 52) (-1074)
    let quotient := roundDiv (num <<< (-e).toNat) (den <<< e.toNat)
    min infinityBits ((e + 1074).toNat * exponentBit + quotient)

def ofRatio (negative : Bool) (num den : Nat) : Double :=
  ofMagnitude negative (roundedMagnitude num den)

/-- The number of decimal digits, at least one. -/
def decimalLength (n : Nat) : Nat := (Nat.toDigits 10 n).length

/-- The value nearest to `digits * 10 ^ exponent`. Far outside the range the answer is known from
the number of digits alone, so no large power is formed. -/
def ofDecimal (negative : Bool) (digits : Nat) (exponent : Int) : Double :=
  let top := exponent + decimalLength digits
  if digits = 0 || top < -330 then zero negative
  else if 330 < top then infinity negative
  else
    ofRatio negative (digits * powerOfTen exponent.toNat) (powerOfTen (-exponent).toNat)

/-- Quotient of absolute values. -/
def divAbs (a b : Double) : Double :=
  ofRatio false (a.ratio.1 * b.ratio.2) (a.ratio.2 * b.ratio.1)

/-- Product of absolute values. -/
def mulAbs (a b : Double) : Double :=
  ofRatio false (a.ratio.1 * b.ratio.1) (a.ratio.2 * b.ratio.2)

def withSign (negative : Bool) : Double := ofMagnitude negative d.magnitude

/-- `d * 10 ^ exponent` in steps of at most `10 ^ 308`, each rounded by itself; `none` when the
result is too large. Three divisions by `10 ^ 308` take every value to zero. -/
def scale (d : Double) (exponent : Int) : Nat → Option Double
  | 0 => some d
  | steps + 1 =>
    if d.isZero then some d
    else if 308 < exponent then none
    else if exponent < -308 then (d.divAbs (ofDecimal false 1 308)).scale (exponent + 308) steps
    else if exponent < 0 then some (d.divAbs (ofDecimal false 1 (-exponent)))
    else
      let product := d.mulAbs (ofDecimal false 1 exponent)
      if product.isFinite then some product else none

/-- `significand * 10 ^ exponent` in two roundings: the significand first, then the product. This
can differ in the last place from the value nearest to the whole. -/
def ofSignificand (negative : Bool) (significand : Nat) (exponent : Int) : Option Double :=
  ((ofRatio false significand 1).scale exponent 4).map (withSign · negative)

end Double

end AssetHierarchy
