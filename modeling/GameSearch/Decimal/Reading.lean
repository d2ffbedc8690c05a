import GameSearch.Number.Double

/-!
# Reading numerals

A numeral is an optional sign, digits with an optional fraction, and an optional exponent; in place of the
digits may stand a word for infinity or for what is not a number. A numeral is read to the nearest
double. Integers are read exactly. Single underscores may separate digits where a caller allows them.
-/

namespace GameSearch

/-- The double nearest to `digits · 10 ^ exponent`. -/
def Double.ofDecimal (digits : Nat) (exponent : Int) : Float :=
  if digits = 0 then 0
  else
    let leading : Int := (digits.log2 : Int) * 30102 / 100000 + exponent
    if 400 < leading then Double.ofRatio (wholePower 2 1024) 1
    else if leading < -400 then 0
    else Double.ofRatio (digits * wholePower 10 exponent) (wholePower 10 (-exponent))

namespace Numeral

/-- The value of ASCII digits. -/
def natOfDigits (digits : List Char) : Nat :=
  digits.foldl (fun value digit => 10 * value + (digit.toNat - 48)) 0

/-- Splits off an optional sign; `true` stands for minus. -/
def splitSign : List Char → Bool × List Char
  | '-' :: rest => (true, rest)
  | '+' :: rest => (false, rest)
  | chars => (false, chars)

/-- Splits off the leading ASCII digits. -/
def splitDigits (chars : List Char) : List Char × List Char :=
  (chars.takeWhile Char.isDigit, chars.dropWhile Char.isDigit)

/-- Drops underscores, each of which must stand between two digits. -/
def joinGroups? : List Char → Option (List Char)
  | [] => some []
  | '_' :: _ => none
  | char :: '_' :: next :: rest =>
    if char.isDigit && next.isDigit then (joinGroups? (next :: rest)).map (char :: ·) else none
  | char :: rest => (joinGroups? rest).map (char :: ·)

/-- An integer of ASCII digits with an optional sign. -/
def integer? (chars : List Char) : Option Int :=
  let (negative, digits) := splitSign chars
  if digits.isEmpty || !digits.all Char.isDigit then none
  else
    let value : Int := natOfDigits digits
    some (if negative then -value else value)

/-- The exponent part of a numeral, which must be all that is left. -/
def exponent? : List Char → Option Int
  | [] => some 0
  | mark :: rest => if mark = 'e' ∨ mark = 'E' then integer? rest else none

/-- An unsigned numeral of digits. -/
def unsigned? (chars : List Char) : Option Float :=
  let (whole, rest) := splitDigits chars
  let (fraction, rest) := match rest with
    | '.' :: rest => splitDigits rest
    | _ => ([], rest)
  if whole.isEmpty && fraction.isEmpty then none
  else (exponent? rest).map fun exponent =>
    Double.ofDecimal (natOfDigits (whole ++ fraction)) (exponent - fraction.length)

/-- The words that stand for a double without digits. -/
def word? (chars : List Char) : Option Float :=
  let word := String.ofList (chars.map Char.toLower)
  if word = "inf" ∨ word = "infinity" then some (Float.ofBits 0x7FF0000000000000)
  else if word = "nan" then some (Float.ofBits 0x7FF8000000000000)
  else none

/-- A signed numeral, read to the nearest double. -/
def double? (chars : List Char) : Option Float :=
  let (negative, rest) := splitSign chars
  (unsigned? rest <|> word? rest).map fun value => if negative then -value else value

end Numeral

end GameSearch
