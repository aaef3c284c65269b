import PageWatch.Decimal.Shortest

/-! Floating point numbers in 64 bits: read by scaling, and written with the fewest digits. -/
namespace PageWatch.Decimal

/-- A floating point number by its 64 bits. -/
structure Double where
  bits : UInt64
  deriving DecidableEq

namespace Double

/-- The largest power of ten that one step scales by. -/
def largestPower : Nat := 308

def powerOfTen (k : Nat) : Float := Float.ofScientific 1 false k

/-- Multiplies by a power of ten, or divides by one, with one rounding. A number too small for that
is divided by the largest power first; what is left after three such steps is zero. A result that
is too large is none. -/
def scale (x : Float) (exponent : Int) : Nat → Option Float
  | 0 => some x
  | steps + 1 =>
    if exponent.natAbs ≤ largestPower then
      if 0 ≤ exponent then
        let y := x * powerOfTen exponent.natAbs
        if y.isInf then none else some y
      else some (x / powerOfTen exponent.natAbs)
    else if x == 0 then some x
    else if 0 ≤ exponent then none
    else scale (x / powerOfTen largestPower) (exponent + largestPower) steps

/-- The double that a sign, a significand and a power of ten stand for. The significand is rounded
before it is scaled, so the result need not be the nearest double. -/
def ofScaled? (negative : Bool) (significand : UInt64) (exponent : Int) : Option Double :=
  (scale significand.toFloat exponent 4).map fun y => ⟨(if negative then -y else y).toBits⟩

def isNegative (x : Double) : Bool := x.bits >>> 63 == 1

/-- The magnitude of a finite double. Numbers without an implicit bit share the least exponent. -/
def magnitude (x : Double) : Binary :=
  let field := ((x.bits >>> 52) &&& 0x7ff).toNat
  let fraction := (x.bits &&& 0xfffffffffffff).toNat
  if field = 0 then ⟨fraction, -1074, false⟩
  else ⟨0x10000000000000 + fraction, field - 1075, fraction = 0 && 1 < field⟩

/-- The decimal `c * 10 ^ j` without an exponent and with at least one digit on either side of
the point. -/
def positional (c : Nat) (j : Int) : String :=
  let digits := Nat.toDigits 10 c
  let places := (-j).toNat
  let padded := List.replicate (places + 1 - digits.length) '0' ++ digits
    ++ List.replicate j.toNat '0'
  let whole := padded.take (padded.length - places)
  let fraction := padded.drop (padded.length - places)
  String.ofList (whole ++ '.' :: (if fraction.isEmpty then ['0'] else fraction))

/-- The digits of `c` with a point after the first one, if more follow, and an exponent that always
has a sign. -/
def scientific (c : Nat) (exponent : Int) : String :=
  let digits := Nat.toDigits 10 c
  let fraction := if 1 < digits.length then '.' :: digits.drop 1 else []
  let sign := if exponent < 0 then "e-" else "e+"
  String.ofList (digits.take 1 ++ fraction) ++ sign ++ toString exponent.natAbs

/-- Fewest digits that read back. Numbers from `10 ^ (-5)` up to `10 ^ 16` are written
positionally, all others with an exponent. -/
def text (x : Double) : String :=
  let sign := if x.isNegative then "-" else ""
  if x.magnitude.significand = 0 then sign ++ "0.0"
  else
    let (c, j) := x.magnitude.shortest
    let exponent := j + (Nat.toDigits 10 c).length - 1
    sign ++ if -5 ≤ exponent ∧ exponent < 16 then positional c j else scientific c exponent

end Double

end PageWatch.Decimal
