import AnnotatedApi.Number.Binary64

/-!
# The shortest decimal that reads back

The reals that round to one binary64 number form an interval, its ends included
iff the mantissa is even.  The decimals of one power of ten form a grid.  The
coarsest grid with a point in the interval gives the fewest digits; of the two
points next to the number the nearer one is taken, and of two equally near ones
the even one.
-/

set_option autoImplicit false

namespace AnnotatedApi.Binary64

structure Decimal where
  digits : Nat
  exponent : Int
deriving DecidableEq, Repr

/-- The interval of the reals that round to a number, with the number itself,
as multiples of `unit / scale`. -/
structure RoundingInterval where
  lower : Nat
  value : Nat
  upper : Nat
  scale : Nat
  closed : Bool

def roundingInterval (x : Binary64) : RoundingInterval :=
  let exponent := x.exponent - 2
  let unit := power 2 exponent
  let below := if x.mantissa = leastNormal ∧ leastExponent < x.exponent then 1 else 2
  { lower := (4 * x.mantissa - below) * unit
    value := 4 * x.mantissa * unit
    upper := (4 * x.mantissa + 2) * unit
    scale := power 2 (-exponent)
    closed := x.mantissa % 2 == 0 }

/-- The interval with its unit changed so that the points of a decimal grid are
the multiples of its scale. -/
def RoundingInterval.onGrid (interval : RoundingInterval) (grid : Int) : RoundingInterval :=
  let finer := power 10 (-grid)
  { lower := interval.lower * finer
    value := interval.value * finer
    upper := interval.upper * finer
    scale := interval.scale * power 10 grid
    closed := interval.closed }

def RoundingInterval.contains (interval : RoundingInterval) (digits : Nat) : Bool :=
  let point := digits * interval.scale
  if interval.closed then interval.lower ≤ point && point ≤ interval.upper
  else interval.lower < point && point < interval.upper

/-- The best point of the grid in the interval, if it has one. -/
def RoundingInterval.best? (interval : RoundingInterval) : Option Nat :=
  let floor := interval.value / interval.scale
  let rest := 2 * (interval.value % interval.scale)
  match interval.contains floor, interval.contains (floor + 1) with
  | true, true =>
    if rest < interval.scale then some floor
    else if interval.scale < rest then some (floor + 1)
    else some (floor + floor % 2)
  | true, false => some floor
  | false, true => some (floor + 1)
  | false, false => none

/-- The first grid with a point in the interval, going from `grid` to finer ones. -/
def coarsestHit (interval : RoundingInterval) : Nat → Int → Decimal
  | 0, _ => ⟨0, 0⟩
  | finer + 1, grid =>
    match (interval.onGrid grid).best? with
    | some digits => ⟨digits, grid⟩
    | none => coarsestHit interval finer (grid - 1)

/-- A grid too coarse for every number of this size. -/
def gridAbove (x : Binary64) : Int :=
  ((x.mantissa.log2 : Int) + x.exponent) * 1233 / 4096 + 2

/-- The decimal with the fewest digits among those that round to the number. -/
def shortest (x : Binary64) : Decimal :=
  if x.mantissa = 0 then ⟨0, 0⟩ else coarsestHit (roundingInterval x) 24 (gridAbove x)

end AnnotatedApi.Binary64
