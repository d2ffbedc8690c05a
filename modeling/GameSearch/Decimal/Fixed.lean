import GameSearch.Decimal.Digits

/-!
# Fixed decimal places

A double is rounded from its exact binary value to a given number of places; a tie goes to the even
last digit. The sign stays even when all digits are zero.
-/

namespace GameSearch

/-- The decimal text of `units / 10 ^ places`. -/
def fixedPoint (places units : Nat) : String :=
  if places = 0 then toString units
  else
    let unit := wholePower 10 places
    toString (units / unit) ++ "." ++ padZeros places (toString (units % unit))

/-- The number of units of `10 ^ -places` nearest to the positive double `mantissa · 2 ^ exponent`. -/
def fixedUnits (places mantissa : Nat) (exponent : Int) : Nat :=
  nearestEven (mantissa * wholePower 2 exponent * wholePower 10 places) (wholePower 2 (-exponent))

/-- A double with the given number of decimal places. -/
def Double.fixed (places : Nat) (value : Float) : String :=
  match Double.shape value with
  | .notANumber => "nan"
  | .infinite negative => if negative then "-inf" else "inf"
  | .finite negative mantissa exponent =>
    (if negative then "-" else "") ++ fixedPoint places (fixedUnits places mantissa exponent)

/-- A share as a percentage with one decimal place. -/
def Double.percent (share : Float) : String :=
  Double.fixed 1 (share * 100) ++ "%"

end GameSearch
