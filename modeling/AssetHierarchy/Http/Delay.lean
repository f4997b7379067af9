import AssetHierarchy.Number.Double

/-! Waiting times, in whole nanoseconds below `2 ^ 64` seconds. -/
namespace AssetHierarchy

structure Delay where
  nanoseconds : Nat
deriving DecidableEq

namespace Delay

def oneSecond : Delay := ⟨1000000000⟩

/-- `none` from `2 ^ 64` seconds on. The argument is finite and not negative; a fraction of a
nanosecond is rounded. -/
def ofSeconds? (d : Double) : Option Delay :=
  let (num, den) := d.ratio
  if UInt64.size * den ≤ num then none
  else some ⟨Double.roundDiv (num * 1000000000) den⟩

/-- The wait before the next try, given what the service asked for. Anything but a finite time that
is not negative counts as one second. -/
def beforeRetry? : Option Double → Option Delay
  | none => some oneSecond
  | some d => if d.isFinite && (d.isZero || !d.isNegative) then ofSeconds? d else some oneSecond

end Delay

end AssetHierarchy
