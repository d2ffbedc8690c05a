/-!
# Doubles as exact numbers

A double is taken apart into a sign, an integer mantissa and a power of two, and put together again from
a quotient of integers, rounded to the nearest double with ties to the even mantissa.
-/

namespace GameSearch

/-- What a double stands for. A finite one is `± mantissa · 2 ^ exponent`. -/
inductive Double.Shape where
  | notANumber
  | infinite (negative : Bool)
  | finite (negative : Bool) (mantissa : Nat) (exponent : Int)
  deriving DecidableEq, Repr

/-- The highest bit of a mantissa of 53 bits. -/
def leadingBit : Nat := 0x10000000000000

/-- The numerator of a power whose exponent may be negative; its denominator is that of the opposite exponent. -/
def wholePower (base : Nat) (exponent : Int) : Nat := base.pow exponent.toNat

/-- Takes a double apart. The mantissa of a normal double has 53 bits. -/
def Double.shape (value : Float) : Double.Shape :=
  let bits := value.toBits
  let negative := bits >>> 63 == 1
  let biased := (bits >>> 52 &&& 0x7FF).toNat
  let fraction := (bits &&& 0xFFFFFFFFFFFFF).toNat
  if biased = 2047 then
    if fraction = 0 then .infinite negative else .notANumber
  else if biased = 0 then .finite negative fraction (-1074)
  else .finite negative (fraction + leadingBit) (Int.ofNat biased - 1075)

/-- The integer nearest to a quotient; of two equally near ones the even one. -/
def nearestEven (numerator denominator : Nat) : Nat :=
  let quotient := numerator / denominator
  let rest := numerator % denominator
  if 2 * rest < denominator then quotient
  else if 2 * rest = denominator then quotient + quotient % 2
  else quotient + 1

/-- The power of two just below or at a positive quotient. -/
def binaryMagnitude (numerator denominator : Nat) : Int :=
  let estimate : Int := (numerator.log2 : Int) - denominator.log2
  if numerator * wholePower 2 (-estimate) < denominator * wholePower 2 estimate then estimate - 1
  else estimate

/-- The double nearest to a quotient of natural numbers, infinity past the largest one. -/
def Double.ofRatio (numerator denominator : Nat) : Float :=
  if numerator = 0 then 0
  else
    let unit : Int := max (binaryMagnitude numerator denominator - 52) (-1074)
    let mantissa := nearestEven (numerator * wholePower 2 (-unit)) (denominator * wholePower 2 unit)
    let bits := (unit + 1074).toNat * leadingBit + mantissa
    Float.ofBits (min bits (2047 * leadingBit)).toUInt64

/-- The double nearest to a quotient of integers whose denominator is not zero. -/
def Double.ofQuotient (numerator denominator : Int) : Float :=
  let magnitude := Double.ofRatio numerator.natAbs denominator.natAbs
  if (numerator < 0) != (denominator < 0) then -magnitude else magnitude

end GameSearch
