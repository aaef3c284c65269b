/-! The fewest decimal digits that determine a binary floating point number. -/
namespace PageWatch.Decimal

/-- A positive binary number `significand * 2 ^ exponent`. It is `narrow` when its lower neighbour
is only half as far away as its upper one. -/
structure Binary where
  significand : Nat
  exponent : Int
  narrow : Bool

namespace Binary

variable (x : Binary)

/-- Numerator and denominator that turn a quarter of a unit of `x` into the grid of `10 ^ j`. -/
def scale (j : Int) : Nat × Nat :=
  (Nat.pow 2 (x.exponent - 2).toNat * Nat.pow 10 (-j).toNat,
    Nat.pow 2 (2 - x.exponent).toNat * Nat.pow 10 j.toNat)

/-- Whether `c * 10 ^ j` reads back as `x`: it lies between the midpoints to the neighbours, which
belong to the interval exactly when the significand is even. -/
def readsBack (c : Nat) (j : Int) : Bool :=
  let (num, den) := x.scale j
  let low := (4 * x.significand - if x.narrow then 1 else 2) * num
  let high := (4 * x.significand + 2) * num
  if x.significand % 2 = 0 then low ≤ c * den && c * den ≤ high
  else low < c * den && c * den < high

/-- The multiple of `10 ^ j` that reads back as `x` and is nearest to it, if one does; of two that
are equally near, the even one. -/
def onGrid? (j : Int) : Option Nat :=
  let (num, den) := x.scale j
  let value := 4 * x.significand * num
  let c := value / den
  match x.readsBack c j, x.readsBack (c + 1) j with
  | true, true =>
    match compare (2 * (value - c * den)) den with
    | .lt => some c
    | .eq => some (c + c % 2)
    | .gt => some (c + 1)
  | true, false => some c
  | false, true => some (c + 1)
  | false, false => none

/-- The hit on the coarsest grid among `10 ^ j` and the `steps` grids below it. -/
def coarsest (j : Int) : Nat → Nat × Int
  | 0 => ((x.onGrid? j).getD 0, j)
  | steps + 1 =>
    match x.onGrid? j with
    | some c => (c, j)
    | none => coarsest (j - 1) steps

/-- The shortest decimal `c * 10 ^ j` that reads back as `x`. No double exceeds `10 ^ 309`, and
seventeen digits suffice below the smallest one, so the grids between are enough. -/
def shortest : Nat × Int := x.coarsest 309 650

end Binary

end PageWatch.Decimal
