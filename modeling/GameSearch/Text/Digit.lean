import GameSearch.Text.Ranges

/-!
# Digits of all scripts

A *decimal digit* belongs to a positional system: its script lists the ten digits from zero on in
consecutive code points. A *digit* is a decimal digit or one of the superscript, subscript and enclosed
forms, which have a value but no place in a positional numeral. Version 14 of the character database.
-/

namespace GameSearch.Text

/-- The code points of the zeros of all positional systems. -/
def zeros : List Nat :=
  [48, 1632, 1776, 1984, 2406, 2534, 2662, 2790, 2918, 3046, 3174, 3302,
   3430, 3558, 3664, 3792, 3872, 4160, 4240, 6112, 6160, 6470, 6608, 6784,
   6800, 6992, 7088, 7232, 7248, 42528, 43216, 43264, 43472, 43504, 43600, 44016,
   65296, 66720, 68912, 69734, 69872, 69942, 70096, 70384, 70736, 70864, 71248, 71360,
   71472, 71904, 72016, 72784, 73040, 73120, 92768, 92864, 93008, 120782, 120792, 120802,
   120812, 120822, 123200, 123632, 125264, 130032]

/-- The digits that belong to no positional system. -/
def looseDigitRanges : List (Nat × Nat) :=
  [(178, 179), (185, 185), (4969, 4977), (6618, 6618), (8304, 8304), (8308, 8313),
   (8320, 8329), (9312, 9320), (9332, 9340), (9352, 9360), (9450, 9450), (9461, 9469),
   (9471, 9471), (10102, 10110), (10112, 10120), (10122, 10130), (68160, 68163), (69216, 69224),
   (69714, 69722), (127232, 127242)]

/-- The value of a decimal digit of any script. -/
def digitValue? (char : Char) : Option Nat :=
  (zeros.find? fun base => base ≤ char.toNat && char.toNat < base + 10).map
    fun base => char.toNat - base

/-- Whether a character is a digit, positional or not. -/
def isDigit (char : Char) : Bool :=
  (digitValue? char).isSome || inRanges looseDigitRanges char.toNat

end GameSearch.Text
