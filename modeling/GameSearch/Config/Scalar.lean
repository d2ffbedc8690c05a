import GameSearch.Config.Reader
import GameSearch.Decimal.Typed
import GameSearch.Decimal.Reading
import GameSearch.Text.Blank

/-!
# Scalars of a configuration

Scalars are accepted in several guises: an integer also as a whole double, a boolean or a numeral, a double
also as an integer, a boolean or a numeral, a boolean also as zero, one or a word.
-/

namespace GameSearch.Config

/-- Drops a tail of a point and zeros. -/
def dropZeroTail (chars : List Char) : List Char :=
  match chars.dropWhile (· != '.') with
  | '.' :: zeros =>
    if !zeros.isEmpty && zeros.all (· == '0') then chars.takeWhile (· != '.') else chars
  | _ => chars

/-- Reads an integer from a text, which may not be too long. -/
def integerText (text : String) : Checked Int :=
  let chars := Text.trimBy Text.isSpace text.toList
  if Numeral.digitLimit < chars.length then Checked.refuse .intParsingSize
  else
    match (Numeral.joinGroups? (dropZeroTail chars)).bind Numeral.integer? with
    | some value => .ok value
    | none => Checked.refuse .intParsing

def doubleText? (text : String) : Option Float := do
  let digits ← Numeral.joinGroups? (Text.trimBy Text.isSpace text.toList)
  Numeral.double? digits

/-- The integer that a double stands for, if it is whole and has at most 63 bits. -/
def wholeDouble (value : Float) : Checked Int :=
  match Double.shape value with
  | .notANumber => Checked.refuse .finiteNumber
  | .infinite _ => Checked.refuse .finiteNumber
  | .finite negative mantissa exponent =>
    let denominator := wholePower 2 (-exponent)
    let numerator := mantissa * wholePower 2 exponent
    if numerator % denominator ≠ 0 then Checked.refuse .intFromFloat
    else
      let magnitude : Int := (numerator / denominator : Nat)
      if 0x8000000000000000 ≤ magnitude then Checked.refuse .intParsingSize
      else .ok (if negative then -magnitude else magnitude)

/-- Reads an integer. -/
def Value.asInteger : Value → Checked Int
  | .bool value => .ok (if value then 1 else 0)
  | .number (.int value) => .ok value
  | .number (.real value) => wholeDouble value
  | .text numeral => integerText numeral
  | _ => Checked.refuse .intType

/-- Reads a double. -/
def Value.asDouble : Value → Checked Float
  | .bool value => .ok (if value then 1 else 0)
  | .number value =>
    match value.asDouble with
    | .ok value => .ok value
    | .error _ => Checked.refuse .floatType
  | .text numeral =>
    match doubleText? numeral with
    | some value => .ok value
    | none => Checked.refuse .floatParsing
  | _ => Checked.refuse .floatType

/-- The words for true and for false. -/
def truthWord? (word : String) : Option Bool :=
  if word ∈ ["1", "on", "t", "true", "y", "yes"] then some true
  else if word ∈ ["0", "off", "f", "false", "n", "no"] then some false
  else none

/-- Zero is false and one is true. -/
def truthNumber (value : Int) : Checked Bool :=
  if value = 0 then .ok false
  else if value = 1 then .ok true
  else Checked.refuse .boolParsing

/-- Reads a boolean. -/
def Value.asBool : Value → Checked Bool
  | .bool value => .ok value
  | .number (.int value) => truthNumber value
  | .number (.real value) =>
    match wholeDouble value with
    | .ok value => truthNumber value
    | .error _ => Checked.refuse .boolType
  | .text word =>
    match truthWord? (String.ofList (word.toList.map Char.toLower)) with
    | some value => .ok value
    | none => Checked.refuse .boolParsing
  | _ => Checked.refuse .boolType

/-- Reads a text, without the white space around it. -/
def Value.asText : Value → Checked String
  | .text content => .ok (Text.trimSpace content)
  | _ => Checked.refuse .stringType

def Value.asItems : Value → Checked (List Value)
  | .list items => .ok items
  | _ => Checked.refuse .listType

def Value.asRecord (cause : Cause) : Value → Checked Fields
  | .record fields => .ok fields
  | _ => Checked.refuse cause

/-- Reads configuration values in all the guises that are accepted. -/
def Reader.lax : Reader Value where
  integer := Value.asInteger
  double := Value.asDouble
  bool := Value.asBool
  text := Value.asText
  word? value := match value with
    | .text word => some word
    | _ => none
  isNull value := match value with
    | .null => true
    | _ => false
  items := Value.asItems
  entries := Value.asRecord

end GameSearch.Config
