import GameSearch.Text.Ranges

/-!
# Blank characters

The white space of all scripts, and the four separators between files, groups, records and units, which some
readers count as white space and others do not.
-/

namespace GameSearch.Text

/-- The code points with the property of being white space. -/
def spaceRanges : List (Nat × Nat) :=
  [(9, 13), (32, 32), (133, 133), (160, 160), (5760, 5760), (8192, 8202),
   (8232, 8233), (8239, 8239), (8287, 8287), (12288, 12288)]

/-- Whether a character has the property of being white space. -/
def isSpace (char : Char) : Bool :=
  inRanges spaceRanges char.toNat

/-- Whether a character is white space or one of the four information separators. -/
def isBlank (char : Char) : Bool :=
  isSpace char || (28 ≤ char.toNat && char.toNat ≤ 31)

/-- Drops the characters of a class at both ends. -/
def trimBy (isDropped : Char → Bool) (chars : List Char) : List Char :=
  ((chars.dropWhile isDropped).reverse.dropWhile isDropped).reverse

/-- Drops white space and information separators at both ends. -/
def trim (text : String) : String :=
  String.ofList (trimBy isBlank text.toList)

def trimSpace (text : String) : String :=
  String.ofList (trimBy isSpace text.toList)

end GameSearch.Text
