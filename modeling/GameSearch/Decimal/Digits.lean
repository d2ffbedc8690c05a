import GameSearch.Decimal.Shortest

/-!
# The text of a double

A double is written with the digits of its shortest decimal: positionally, and with at least one
digit after the point, while its leading digit stands for `10 ^ -4` to `10 ^ 15`, else as
a digit, a fraction and a signed exponent of at least two digits.
-/

namespace GameSearch

/-- Where the text of a double changes from positional to exponent form. -/
structure DecimalStyle where
  /-- The least power of ten of a leading digit that is written positionally. -/
  leastPositional : Int
  /-- The greatest power of ten of a leading digit that is written positionally. -/
  greatestPositional : Int
  /-- The least number of digits of a written exponent. -/
  exponentDigits : Nat

/-- Positional from `10 ^ -4` to `10 ^ 15`; exponents have at least two digits. -/
def DecimalStyle.plain : DecimalStyle := ⟨-4, 15, 2⟩

/-- Fills a text with zeros on the left, up to a width. -/
def padZeros (width : Nat) (digits : String) : String :=
  String.ofList (List.replicate (width - digits.length) '0') ++ digits

/-- The text of a positive decimal. -/
def DecimalStyle.write (style : DecimalStyle) (decimal : Scaled) : String :=
  let digits := (toString decimal.digits).toList
  let count := digits.length
  let leading : Int := decimal.exponent + count - 1
  if style.leastPositional ≤ leading ∧ leading ≤ style.greatestPositional then
    if 0 ≤ decimal.exponent then
      String.ofList (digits ++ List.replicate decimal.exponent.toNat '0') ++ ".0"
    else if 0 ≤ leading then
      let whole := leading.toNat + 1
      String.ofList (digits.take whole) ++ "." ++ String.ofList (digits.drop whole)
    else
      "0." ++ String.ofList (List.replicate (-leading - 1).toNat '0' ++ digits)
  else
    let fraction := if count = 1 then "" else "." ++ String.ofList digits.tail
    let sign := if leading < 0 then "-" else "+"
    String.ofList (digits.take 1) ++ fraction ++ "e" ++ sign ++
      padZeros style.exponentDigits (toString leading.natAbs)

/-- The text of a double: the fewest digits that read back. -/
def Double.text (value : Float) : String :=
  match Double.shape value with
  | .notANumber => "nan"
  | .infinite negative => if negative then "-inf" else "inf"
  | .finite negative mantissa exponent =>
    let sign := if negative then "-" else ""
    if mantissa = 0 then sign ++ "0.0"
    else sign ++ DecimalStyle.plain.write (shortestDecimal mantissa exponent)

end GameSearch
