import GameSearch.Config.Value
import GameSearch.Decimal.Reading

/-!
# What plain scalars stand for

A plain scalar that looks like a truth value, a number or nothing stands for that, and any other one for its text.
Integers may be written in base two, eight, ten and sixteen and in groups of sixty; underscores may
stand between digits, and a point or an exponent makes a double.
-/

namespace GameSearch.Yaml

open Config (Value)

/-- The words for nothing. -/
def nullWords : List String := ["", "~", "null", "Null", "NULL"]

def trueWords : List String :=
  ["yes", "Yes", "YES", "true", "True", "TRUE", "on", "On", "ON"]

def falseWords : List String :=
  ["no", "No", "NO", "false", "False", "FALSE", "off", "Off", "OFF"]

def truth? (text : String) : Option Bool :=
  if text ∈ trueWords then some true else if text ∈ falseWords then some false else none

/-- The value of a digit in a base up to sixteen. -/
def digit? (base : Nat) (char : Char) : Option Nat :=
  let value := if char.isDigit then char.toNat - 48 else char.toLower.toNat - 87
  if (char.isDigit || (97 ≤ char.toLower.toNat && char.toLower.toNat ≤ 102)) && value < base then
    some value
  else none

/-- The number that digits of a base stand for; underscores are skipped. -/
def natInBase? (base : Nat) (chars : List Char) : Option Nat :=
  let digits := chars.filter (· != '_')
  if digits.isEmpty then none
  else digits.foldlM (fun number char => (digit? base char).map (base * number + ·)) 0

/-- The groups of a numeral between colons. -/
def colonGroups : List Char → List (List Char)
  | [] => [[]]
  | ':' :: rest => [] :: colonGroups rest
  | char :: rest =>
    match colonGroups rest with
    | [] => [[char]]
    | group :: others => (char :: group) :: others

/-- Whether a group of digits is a number below sixty. -/
def isSixtieth (group : List Char) : Bool :=
  group.all Char.isDigit &&
    (group.length == 1 || (group.length == 2 && group.head?.any (· < '6')))

/-- Whether a text starts with an ASCII digit and goes on with digits and underscores. -/
def isDigitGroup (chars : List Char) : Bool :=
  chars.head?.any Char.isDigit && chars.all fun char => char.isDigit || char == '_'

/-- The natural number that an unsigned numeral looks like. -/
def natural? (chars : List Char) : Option Nat :=
  match chars with
  | ['0'] => some 0
  | '0' :: 'b' :: rest => natInBase? 2 rest
  | '0' :: 'x' :: rest => natInBase? 16 rest
  | '0' :: rest => if rest.all (· == '_') then some 0 else natInBase? 8 rest
  | _ =>
    match colonGroups chars with
    | [] => none
    | first :: others =>
      if isDigitGroup first && others.all isSixtieth then
        others.foldlM (fun number group => (natInBase? 10 group).map (60 * number + ·))
          ((natInBase? 10 first).getD 0)
      else none

def integer? (chars : List Char) : Option Int :=
  let (negative, rest) := Numeral.splitSign chars
  (natural? rest).map fun value => if negative then -(value : Int) else value

/-- Whether a numeral has a point or an exponent, and digits where a double needs them. -/
def looksLikeDouble (chars : List Char) : Bool :=
  let (_, rest) := Numeral.splitSign chars
  let isSigned := rest.length != chars.length
  let isDigitOrGroup := fun char : Char => char.isDigit || char == '_'
  let whole := rest.takeWhile isDigitOrGroup
  let tail := rest.dropWhile isDigitOrGroup
  let (hasPoint, fraction, tail) := match tail with
    | '.' :: tail => (true, tail.takeWhile isDigitOrGroup, tail.dropWhile isDigitOrGroup)
    | _ => (false, [], tail)
  let exponentIsSigned := tail.tail.head?.any fun char => char == '+' || char == '-'
  let hasExponent := tail != []
  let exponentIsFine := !hasExponent || (Numeral.exponent? tail).isSome
  if whole.isEmpty then
    hasPoint && !isSigned && fraction.any Char.isDigit && exponentIsFine &&
      (!hasExponent || exponentIsSigned)
  else whole.head?.any Char.isDigit && (hasPoint || hasExponent) && exponentIsFine

/-- The double that a numeral in groups of sixty looks like; the last group has a point. -/
def sexagesimal? (chars : List Char) : Option Float :=
  let (negative, rest) := Numeral.splitSign chars
  let groups := colonGroups rest
  let last := groups.getLast?.getD []
  let minutes := groups.dropLast
  let seconds := last.takeWhile (· != '.')
  let fraction := last.dropWhile (· != '.')
  if 1 < groups.length && isDigitGroup (minutes.head?.getD []) && minutes.tail.all isSixtieth &&
      isSixtieth seconds && !fraction.isEmpty &&
      (fraction.drop 1).all fun char => char.isDigit || char == '_' then do
    let parts ← (minutes ++ [last]).mapM fun group =>
      Numeral.unsigned? (group.filter (· != '_'))
    let (value, _) := parts.foldr
      (fun part (state : Float × Float) => (state.1 + part * state.2, state.2 * 60)) (0, 1)
    return if negative then -value else value
  else none

def double? (chars : List Char) : Option Float :=
  let (negative, rest) := Numeral.splitSign chars
  let word := String.ofList rest
  if word ∈ [".inf", ".Inf", ".INF"] then
    some (Float.ofBits (if negative then 0xFFF0000000000000 else 0x7FF0000000000000))
  else if String.ofList chars ∈ [".nan", ".NaN", ".NAN"] then
    some (Float.ofBits 0x7FF8000000000000)
  else if looksLikeDouble chars then Numeral.double? (chars.filter (· != '_'))
  else sexagesimal? chars

/-- What a plain scalar stands for. A scalar that looks like a double is one, if it is no integer. -/
def plainValue (text : String) : Value :=
  if text ∈ nullWords then .null
  else match truth? text with
    | some value => .bool value
    | none =>
      match integer? text.toList, double? text.toList with
      | some value, _ => .number (.int value)
      | none, some value => .number (.real value)
      | none, none => .text text

end GameSearch.Yaml
