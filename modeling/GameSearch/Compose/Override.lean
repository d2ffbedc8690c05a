import GameSearch.Compose.Reference

/-!
# Overrides

An override changes a configuration from outside: `key=value` gives a value that must exist, `+key=value` adds one
that must not, `++key=value` does either, and `~key` removes one. A value is a list in brackets, a record in braces,
a quoted text, or a bare one, which may look like a number, a truth value or nothing. Several values separated by
commas are a *sweep*, as are some functions.
-/

namespace GameSearch.Compose

open Config (Value Fields)

/-- What an override does. -/
inductive Change where
  | give
  | add
  | force
  | remove
  deriving DecidableEq, Repr

/-- The value in an override. -/
inductive Operand where
  | none
  | value (value : Value)
  | sweep

/-- An override. -/
structure Override where
  change : Change
  key : String
  /-- Where a chosen option is to be placed. -/
  package : Option String
  operand : Operand

def isBareChar (char : Char) : Bool :=
  char.isAlphanum || "_/-\\+.$%*@?|: \t".toList.contains char

def isEscapable (char : Char) : Bool :=
  "\\()[]\x7b\x7d:=, \t".toList.contains char

/-- A character of a bare text and whether it was escaped. -/
abbrev Mark := Char × Bool

/-- Reads a bare text. In a key of a record a colon ends it. -/
def readBare (inKey : Bool) : (steps : Nat) → List Char → List Mark × List Char
  | 0, chars => ([], chars)
  | _ + 1, [] => ([], [])
  | steps + 1, char :: rest =>
    if char == '\\' && rest.head?.any isEscapable then
      let (marks, after) := readBare inKey steps (rest.drop 1)
      ((rest.headD char, true) :: marks, after)
    else if !inKey && opening.isPrefixOf (char :: rest) then
      match splitClosing 0 (rest.drop 1) with
      | none => ([], char :: rest)
      | some (inside, after) =>
        let (marks, after) := readBare inKey steps after
        ((opening ++ inside ++ ['\x7d']).map (·, true) ++ marks, after)
    else if isBareChar char && !(inKey && char == ':') then
      let (marks, after) := readBare inKey steps rest
      ((char, false) :: marks, after)
    else ([], char :: rest)

/-- Whether a mark is a blank or tab that is not escaped. -/
def isSpacing (mark : Mark) : Bool := !mark.2 && (mark.1 == ' ' || mark.1 == '\t')

/-- Drops spacing at both ends. -/
def trimMarks (marks : List Mark) : List Mark :=
  ((marks.dropWhile isSpacing).reverse.dropWhile isSpacing).reverse

/-- Whether a numeral has a zero in front of other digits. -/
def hasLeadingZero (chars : List Char) : Bool :=
  match (Numeral.splitSign chars).2 with
  | '0' :: next :: _ => next.isDigit
  | _ => false

def bareNumber? (chars : List Char) : Option Number := do
  let digits ← Numeral.joinGroups? chars
  if hasLeadingZero digits then none
  else match Numeral.integer? digits, Numeral.double? digits with
    | some value, _ => some (.int value)
    | none, some value =>
      if digits.any Char.isDigit || (Numeral.splitSign digits).2.length = 3 then
        some (.real value)
      else none
    | none, none => none

def bareValue (marks : List Mark) : Value :=
  let chars := marks.map (·.1)
  let word := String.ofList (chars.map Char.toLower)
  if marks.any (·.2) then .text (String.ofList chars)
  else if word = "null" then .null
  else if word = "true" then .bool true
  else if word = "false" then .bool false
  else match bareNumber? chars with
    | some value => .number value
    | none => .text (String.ofList chars)

/-- Reads a quoted text after its opening quote. Backslashes before a quote count in pairs. -/
def readQuote (quote : Char) : (steps : Nat) → List Char → Option (List Char × List Char)
  | 0, _ => none
  | _ + 1, [] => none
  | steps + 1, chars =>
    let slashes := (chars.takeWhile (· == '\\')).length
    match chars.drop slashes with
    | [] => none
    | char :: rest =>
      if char = quote then
        let before := List.replicate (slashes / 2) '\\'
        if slashes % 2 = 0 then some (before, rest)
        else (readQuote quote steps rest).map fun (others, after) =>
          (before ++ quote :: others, after)
      else (readQuote quote steps rest).map fun (others, after) =>
        (List.replicate slashes '\\' ++ char :: others, after)

def dropSpacing (chars : List Char) : List Char :=
  chars.dropWhile fun char => char == ' ' || char == '\t'

/-- The name of the field that a key in braces stands for. -/
def keyName : Value → String
  | .text name => name
  | .number value => value.text
  | .bool value => if value then "true" else "false"
  | _ => "null"

mutual

def readElement : (steps : Nat) → List Char → Option (Value × List Char)
  | 0, _ => none
  | steps + 1, chars =>
    match dropSpacing chars with
    | '[' :: rest =>
      match dropSpacing rest with
      | ']' :: rest => some (.list [], rest)
      | rest => (readElements steps rest).map fun (items, rest) => (.list items, rest)
    | '\x7b' :: rest =>
      match dropSpacing rest with
      | '\x7d' :: rest => some (.record [], rest)
      | rest => (readPairs steps [] rest).map fun (fields, rest) => (.record fields, rest)
    | '\'' :: rest =>
      (readQuote '\'' steps rest).map fun (text, rest) => (.text (String.ofList text), rest)
    | '"' :: rest =>
      (readQuote '"' steps rest).map fun (text, rest) => (.text (String.ofList text), rest)
    | chars =>
      let (marks, rest) := readBare false steps chars
      let marks := trimMarks marks
      if marks.isEmpty then none else some (bareValue marks, rest)

/-- Reads the items of a list up to its closing bracket. -/
def readElements : (steps : Nat) → List Char → Option (List Value × List Char)
  | 0, _ => none
  | steps + 1, chars => do
    let (item, rest) ← readElement steps chars
    match dropSpacing rest with
    | ']' :: rest => return ([item], rest)
    | ',' :: rest => do
      let (items, rest) ← readElements steps rest
      return (item :: items, rest)
    | _ => none

/-- Reads the fields of a record up to its closing brace. -/
def readPairs : (steps : Nat) → Fields → List Char → Option (Fields × List Char)
  | 0, _, _ => none
  | steps + 1, fields, chars => do
    let (marks, rest) := readBare true steps (dropSpacing chars)
    let marks := trimMarks marks
    if marks.isEmpty then none
    else match dropSpacing rest with
      | ':' :: rest => do
        let (value, rest) ← readElement steps rest
        let fields := Fields.set fields (keyName (bareValue marks)) value
        match dropSpacing rest with
        | '\x7d' :: rest => return (fields, rest)
        | ',' :: rest => readPairs steps fields rest
        | _ => none
      | _ => none

end

/-- Whether values separated by commas are all that is left. -/
def isSweepRest : (steps : Nat) → List Char → Bool
  | 0, _ => false
  | steps + 1, chars =>
    match readElement (3 * chars.length + 3) chars with
    | none => false
    | some (_, rest) =>
      match rest with
      | [] => true
      | ',' :: rest => isSweepRest steps rest
      | _ => false

/-- The functions whose values are sweeps. -/
def sweepFunctions : List String := ["choice", "range", "interval", "glob"]

/-- Whether a text is a call of a function whose values are sweeps. -/
def isSweepCall (chars : List Char) : Bool :=
  sweepFunctions.any fun name =>
    (name.toList ++ ['(']).isPrefixOf chars && chars.getLast? == some ')'

/-- Reads what follows the equals sign of an override. -/
def readOperand (chars : List Char) : Option Operand :=
  if chars.isEmpty then some (.value (.text ""))
  else if isSweepCall chars then some .sweep
  else match readElement (3 * chars.length + 3) chars with
    | none => none
    | some (value, []) => some (.value value)
    | some (_, ',' :: rest) => if isSweepRest rest.length rest then some .sweep else none
    | some _ => none

/-- The parts of a text between separators. -/
def splitAt (separator : Char) : List Char → List (List Char)
  | [] => [[]]
  | char :: rest =>
    if char = separator then [] :: splitAt separator rest
    else match splitAt separator rest with
      | [] => [[char]]
      | first :: others => (char :: first) :: others

/-- Whether a text is a name, which may hold the given extra characters. -/
def isKeyName (extra : List Char) (chars : List Char) : Bool :=
  chars.head?.any (fun char => char.isAlpha || char == '_' || (char == '$' && '$' ∈ extra)) &&
    chars.all fun char => char.isAlphanum || char == '_' || char ∈ extra

/-- Whether a text is a natural number without superfluous zeros. -/
def isPlainNumber (chars : List Char) : Bool :=
  !chars.isEmpty && chars.all Char.isDigit && !hasLeadingZero chars

/-- Whether a text is a path of names and numbers separated by dots. -/
def isDotPath (chars : List Char) : Bool :=
  let names := splitAt '.' chars
  names.all (fun name => isKeyName ['-', '$'] name || isPlainNumber name) &&
    (1 < names.length || isKeyName ['-', '$'] chars)

/-- Whether a text names a group of options: names separated by slashes. -/
def isGroupPath (chars : List Char) : Bool :=
  let names := splitAt '/' chars
  1 < names.length && names.all (isKeyName ['-', '$'])

/-- Splits off what the start of an override says about its kind. -/
def splitChange : List Char → Change × List Char
  | '~' :: rest => (.remove, rest)
  | '+' :: '+' :: rest => (.force, rest)
  | '+' :: rest => (.add, rest)
  | chars => (.give, chars)

def Override.read? (text : String) : Option Override :=
  let (change, rest) := splitChange text.toList
  let key := rest.takeWhile (· != '=')
  let name := key.takeWhile (· != '@')
  let package := key.drop (name.length + 1)
  let isPlaced := name.length < key.length
  if (isDotPath name || isGroupPath name) && (!isPlaced || isDotPath package) then
    let operand? := match rest.drop key.length with
      | [] => if change = Change.remove then some Operand.none else none
      | _ :: chars => readOperand chars
    operand?.map fun operand =>
      ⟨change, String.ofList name, if isPlaced then some (String.ofList package) else none, operand⟩
  else none

end GameSearch.Compose
