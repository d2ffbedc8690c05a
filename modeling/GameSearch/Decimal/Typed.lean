import GameSearch.Decimal.Reading
import GameSearch.Number
import GameSearch.Text.Blank
import GameSearch.Text.Digit

/-!
# Typed numbers

Numbers that people type may have the digits of any script and white space around them. An amount is digits alone;
digits without a place in a positional system are a fault there, and so are too many digits. An integer
of too many digits cannot be written either.
-/

namespace GameSearch.Numeral

/-- The most digits that an integer may have to be read from a text or written to one. -/
def digitLimit : Nat := 4300

/-- The number written by digits. -/
def ofDigits (digits : List Char) : Except Fault Nat :=
  let values := digits.map Text.digitValue?
  let leading := values.takeWhile Option.isSome
  if digitLimit < leading.length then .error (.longInteger leading.length)
  else if values.length ≠ leading.length then .error (.notAnInteger (String.ofList digits))
  else .ok (leading.foldl (fun number digit => 10 * number + digit.getD 0) 0)

/-- The text of an integer that has no more digits than can be read. -/
def written (number : Int) : Except Fault String :=
  if digitLimit < (toString number.natAbs).length then .error .unwrittenInteger
  else .ok (toString number)

/-- Writes the decimal digits of all scripts as ASCII digits. -/
def asciiDigits (chars : List Char) : List Char :=
  chars.map fun char => match Text.digitValue? char with
    | some digit => Char.ofNat (48 + digit)
    | none => char

/-- What is typed for a number, in ASCII digits and without blanks around it and groups in it. -/
def plainDigits? (text : String) : Option (List Char) :=
  joinGroups? (Text.trimBy Text.isBlank (asciiDigits text.toList))

def typedInteger? (text : String) : Option Int := do
  let digits ← plainDigits? text
  if digitLimit < (digits.filter Char.isDigit).length then none else integer? digits

def typedDouble? (text : String) : Option Float := do
  double? (← plainDigits? text)

end GameSearch.Numeral

namespace GameSearch

/-- The text of a number that is a double or an integer of no more digits than can be written. -/
def Number.written : Number → Except Fault String
  | .int value => Numeral.written value
  | .real value => .ok (Double.text value)

end GameSearch
