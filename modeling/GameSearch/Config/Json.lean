import GameSearch.Config.Value
import GameSearch.Decimal.Reading
import GameSearch.Text.Quoted

/-!
# Configuration values as JSON

The interchange form of configuration values, on one line. A numeral with a point or an exponent is a double and
any other one an integer; the words for infinity and for what is not a number are accepted. Reading is by
recursive descent, with a count of steps that the length of the text bounds.
-/

namespace GameSearch.Config.Json

/-- Drops blanks. -/
def skipBlanks (chars : List Char) : List Char :=
  chars.dropWhile fun char => char == ' ' || char == '\t' || char == '\n' || char == '\r'

/-- The value of a hexadecimal digit. -/
def hexDigit? (char : Char) : Option Nat :=
  if char.isDigit then some (char.toNat - 48)
  else if 'a' ≤ char ∧ char ≤ 'f' then some (char.toNat - 87)
  else if 'A' ≤ char ∧ char ≤ 'F' then some (char.toNat - 55)
  else none

/-- The number written by hexadecimal digits. -/
def hexNumber? (digits : List Char) : Option Nat :=
  digits.foldlM (fun number digit => (hexDigit? digit).map (16 * number + ·)) 0

/-- A text being read, the latest character first. After the first half of a pair of code units the
second half is awaited. -/
structure Partial where
  read : List Char
  high : Option Nat

/-- Adds a code unit. -/
def Partial.pushUnit (text : Partial) (unit : Nat) : Partial :=
  match text.high with
  | some high =>
    if 0xDC00 ≤ unit ∧ unit < 0xE000 then
      ⟨Char.ofNat (0x10000 + (high - 0xD800) * 0x400 + (unit - 0xDC00)) :: text.read, none⟩
    else ⟨Char.ofNat unit :: Char.ofNat high :: text.read, none⟩
  | none =>
    if 0xD800 ≤ unit ∧ unit < 0xDC00 then ⟨text.read, some unit⟩
    else ⟨Char.ofNat unit :: text.read, none⟩

def escaped (letter : Char) : Char :=
  if letter = 'n' then '\n'
  else if letter = 't' then '\t'
  else if letter = 'r' then '\r'
  else if letter = 'b' then Char.ofNat 8
  else if letter = 'f' then Char.ofNat 12
  else letter

/-- Reads the rest of a text after its opening quote. -/
def readText (text : Partial) : List Char → Option (String × List Char)
  | [] => none
  | '"' :: rest => some (String.ofList text.read.reverse, rest)
  | '\\' :: 'u' :: a :: b :: c :: d :: rest => do
    readText (text.pushUnit (← hexNumber? [a, b, c, d])) rest
  | '\\' :: letter :: rest => readText (text.pushUnit (escaped letter).toNat) rest
  | char :: rest => readText ⟨char :: text.read, none⟩ rest

def isNumeralChar (char : Char) : Bool :=
  char.isDigit || char == '-' || char == '+' || char == '.' || char == 'e' || char == 'E'

/-- Reads a numeral. -/
def readNumber (chars : List Char) : Option (Value × List Char) :=
  let numeral := chars.takeWhile isNumeralChar
  let rest := chars.dropWhile isNumeralChar
  match Numeral.integer? numeral with
  | some value => some (.number (.int value), rest)
  | none => (Numeral.double? numeral).map fun value => (.number (.real value), rest)

def words : List (String × Value) :=
  [("true", .bool true), ("false", .bool false), ("null", .null),
   ("NaN", .number (.real (Float.ofBits 0x7FF8000000000000))),
   ("Infinity", .number .above), ("-Infinity", .number .below)]

/-- Reads a word or a numeral. -/
def readScalar (chars : List Char) : Option (Value × List Char) :=
  match words.find? fun entry => entry.1.toList.isPrefixOf chars with
  | some (word, value) => some (value, chars.drop word.length)
  | none => readNumber chars

mutual

def readValue : (steps : Nat) → List Char → Option (Value × List Char)
  | 0, _ => none
  | steps + 1, chars =>
    match skipBlanks chars with
    | '{' :: rest => readFields steps [] (skipBlanks rest)
    | '[' :: rest => readItems steps [] (skipBlanks rest)
    | '"' :: rest => (readText ⟨[], none⟩ rest).map fun (text, rest) => (.text text, rest)
    | rest => readScalar rest

/-- Reads the rest of a list; the items read so far come the latest first. -/
def readItems : (steps : Nat) → List Value → List Char → Option (Value × List Char)
  | 0, _, _ => none
  | steps + 1, items, chars =>
    match chars with
    | ']' :: rest => some (.list items.reverse, rest)
    | ',' :: rest => readItems steps items (skipBlanks rest)
    | _ => do
      let (item, rest) ← readValue steps chars
      readItems steps (item :: items) (skipBlanks rest)

/-- Reads the rest of a record; the fields read so far come the latest first. -/
def readFields : (steps : Nat) → Fields → List Char → Option (Value × List Char)
  | 0, _, _ => none
  | steps + 1, fields, chars =>
    match chars with
    | '}' :: rest => some (.record fields.reverse, rest)
    | ',' :: rest => readFields steps fields (skipBlanks rest)
    | '"' :: rest => do
      let (name, rest) ← readText ⟨[], none⟩ rest
      match skipBlanks rest with
      | ':' :: rest =>
        let (value, rest) ← readValue steps rest
        readFields steps ((name, value) :: fields) (skipBlanks rest)
      | _ => none
    | _ => none

end

def read? (text : String) : Option Value := do
  let chars := text.toList
  let (value, rest) ← readValue (3 * chars.length + 3) chars
  if (skipBlanks rest).isEmpty then some value else none

/-- How a character is written inside a text. -/
def writeChar (char : Char) : List Char :=
  if char = '"' ∨ char = '\\' then ['\\', char]
  else if char.toNat < 32 then '\\' :: 'u' :: Text.hexadecimal 4 char.toNat
  else [char]

def writeText (text : String) : String :=
  String.ofList ('"' :: (text.toList.flatMap writeChar ++ ['"']))

def writeNumber : Number → String
  | .int value => toString value
  | .real value => Double.text value

mutual

def write : Value → String
  | .null => "null"
  | .bool value => if value then "true" else "false"
  | .number value => writeNumber value
  | .text text => writeText text
  | .list items => "[" ++ ",".intercalate (writeItems items) ++ "]"
  | .record fields => "\x7b" ++ ",".intercalate (writeFields fields) ++ "\x7d"

def writeItems : List Value → List String
  | [] => []
  | item :: items => write item :: writeItems items

/-- Writes the fields of a record. -/
def writeFields : Fields → List String
  | [] => []
  | (name, value) :: fields => (writeText name ++ ":" ++ write value) :: writeFields fields

end

end GameSearch.Config.Json
