import GameSearch.Number.Double

/-!
# The shortest decimal that reads back

Among the decimals that round to a given double, `shortestDecimal` takes one with the fewest digits and of
those the nearest one. A double `mantissa · 2 ^ exponent` owns an interval of reals, from half a unit
below to half a unit above (a quarter below when the mantissa is a power of two, where the doubles
below are twice as dense); its ends belong to it when the mantissa is even. Decimals with `n` digits
form a grid, and if a grid meets the interval then one of the two grid points around the value does.
-/

namespace GameSearch

/-- A decimal `digits · 10 ^ exponent`. -/
structure Scaled where
  digits : Nat
  exponent : Int
  deriving DecidableEq, Repr

/-- The reals that round to a double, and the double itself, as multiples of `1 / denominator`. -/
structure RoundingInterval where
  low : Nat
  value : Nat
  high : Nat
  denominator : Nat
  closed : Bool

/-- The interval of a positive finite double, in quarters of the unit of its mantissa. -/
def RoundingInterval.ofDouble (mantissa : Nat) (exponent : Int) : RoundingInterval :=
  let scale := wholePower 2 (exponent - 2)
  let below := if mantissa = leadingBit ∧ -1074 < exponent then 1 else 2
  { low := (4 * mantissa - below) * scale
    value := 4 * mantissa * scale
    high := (4 * mantissa + 2) * scale
    denominator := wholePower 2 (2 - exponent)
    closed := mantissa % 2 == 0 }

/-- Whether the quotient `point / denominator` rounds to the interval's double. -/
def RoundingInterval.contains (interval : RoundingInterval) (point denominator : Nat) : Bool :=
  let scaled := point * interval.denominator
  let low := interval.low * denominator
  let high := interval.high * denominator
  if interval.closed then low ≤ scaled && scaled ≤ high else low < scaled && scaled < high

/-- The nearer of the grid's two points around the value, of those that read back. -/
def RoundingInterval.gridPoint? (interval : RoundingInterval) (exponent : Int) : Option Nat :=
  let up := wholePower 10 exponent
  let down := wholePower 10 (-exponent)
  let numerator := interval.value * down
  let denominator := interval.denominator * up
  let floor := numerator / denominator
  let fits (digits : Nat) : Bool := 0 < digits && interval.contains (digits * up) down
  match fits floor, fits (floor + 1) with
  | false, false => none
  | true, false => some floor
  | false, true => some (floor + 1)
  | true, true => some (nearestEven numerator denominator)

/-- The first grid with a point that reads back, from `exponent` down. -/
def RoundingInterval.firstGrid (interval : RoundingInterval) : Nat → Int → Scaled
  | 0, exponent => ⟨0, exponent⟩
  | grids + 1, exponent =>
    match interval.gridPoint? exponent with
    | some digits => ⟨digits, exponent⟩
    | none => interval.firstGrid grids (exponent - 1)

/-- The shortest decimal that reads back as the positive double `mantissa · 2 ^ exponent`.

The first grid tried is coarser than the value, and seventeen digits always suffice. -/
def shortestDecimal (mantissa : Nat) (exponent : Int) : Scaled :=
  let interval := RoundingInterval.ofDouble mantissa exponent
  let magnitude : Int := ((mantissa.log2 : Int) + exponent + 1) * 30103 / 100000 + 1
  interval.firstGrid 22 magnitude

end GameSearch
