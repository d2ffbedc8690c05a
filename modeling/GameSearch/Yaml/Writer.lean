import GameSearch.Decimal.Digits
import GameSearch.Yaml.Quoting

/-!
# Writing documents

A value is written in block style: one line for every scalar that is not a long text, records indented by two, and
the items of a list after a dash, in line with the key that the list belongs to.
-/

namespace GameSearch.Yaml

open Config (Value Fields)

def doubleText (value : Float) : String :=
  let text := Double.text value
  if text = "inf" then ".inf"
  else if text = "-inf" then "-.inf"
  else if text = "nan" then ".nan"
  else if '.' ∈ text.toList then text
  else String.ofList (text.toList.takeWhile (· != 'e')) ++ ".0" ++
    String.ofList (text.toList.dropWhile (· != 'e'))

/-- Indents a line, unless it is empty. -/
def indented (line : String) : String := if line.isEmpty then line else "  " ++ line

/-- Writes a mark in front of the first of some lines and indents the others. -/
def marked (mark : String) : List String → List String
  | [] => [mark]
  | line :: others => (mark ++ line) :: others.map indented

mutual

/-- The lines that a value is written on, from `column` on, where the next lines start at `margin`. -/
def writtenLines (column margin : Nat) : Value → List String
  | .null => ["null"]
  | .bool value => [if value then "true" else "false"]
  | .number (.int value) => [toString value]
  | .number (.real value) => [doubleText value]
  | .text text => textLines column margin text
  | .list [] => ["[]"]
  | .list items => itemLines margin items
  | .record [] => ["\x7b\x7d"]
  | .record fields => fieldLines margin fields

/-- The lines of the items of a list that starts at `margin`. -/
def itemLines (margin : Nat) : List Value → List String
  | [] => []
  | item :: items =>
    marked "- " (writtenLines (margin + 2) (margin + 2) item) ++ itemLines margin items

/-- The lines of the fields of a record that starts at `margin`. -/
def fieldLines (margin : Nat) : Fields → List String
  | [] => []
  | (name, .list (item :: items)) :: fields =>
    (name ++ ":") :: (itemLines margin (item :: items) ++ fieldLines margin fields)
  | (name, .record (field :: others)) :: fields =>
    (name ++ ":") ::
      ((fieldLines (margin + 2) (field :: others)).map indented ++ fieldLines margin fields)
  | (name, value) :: fields =>
    marked (name ++ ": ") (writtenLines (margin + name.length + 2) (margin + 2) value) ++
      fieldLines margin fields

end

/-- Writes a value as a document. -/
def write (value : Value) : String :=
  String.join ((writtenLines 0 0 value).map fun line => line ++ "\n")

end GameSearch.Yaml
