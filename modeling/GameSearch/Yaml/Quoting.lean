import GameSearch.Text.Quoted
import GameSearch.Yaml.Cursor
import GameSearch.Yaml.Plain

/-!
# Quoting and folding texts

A text is written plainly unless it would then be read as something else; otherwise in single quotes, and in double
quotes if it holds characters that need an escape. A long text goes on in further lines.
-/

namespace GameSearch.Yaml

/-- Whether a character is written as it is. -/
def isOrdinary (char : Char) : Bool :=
  char == '\n' || (32 ≤ char.toNat && char.toNat ≤ 126)

/-- Whether a text has one of two characters directly before the other. -/
def hasPair (first second : Char) : List Char → Bool
  | [] => false
  | char :: rest => (char == first && rest.head? == some second) || hasPair first second rest

/-- Whether a mark inside a text would end a plain scalar. -/
def endsPlain (afterBlank : Bool) : List Char → Bool
  | [] => false
  | char :: rest =>
    (char == ':' && isGap rest.head?) || (char == '#' && afterBlank) ||
      endsPlain (isGap (some char)) rest

/-- Whether the first characters of a text forbid to write it plainly. -/
def startsAsMark (chars : List Char) : Bool :=
  match chars with
  | [] => true
  | char :: rest =>
    "#,[]\x7b\x7d&*!|>'\"%@`".toList.contains char ||
      ("?-:".toList.contains char && isGap rest.head?) ||
      "---".toList.isPrefixOf chars || "...".toList.isPrefixOf chars

/-- Passes at least `least` and at most `most` digits, which no further digit may follow. -/
def passDigits? (least most : Nat) (chars : List Char) : Option (List Char) :=
  let count := (chars.takeWhile Char.isDigit).length
  if least ≤ count && count ≤ most then some (chars.drop count) else none

def pass? (mark : Char) : List Char → Option (List Char)
  | char :: rest => if char = mark then some rest else none
  | [] => none

/-- Passes what separates a date from the time of a day. -/
def passDateEnd? : List Char → Option (List Char)
  | 'T' :: rest => some rest
  | 't' :: rest => some rest
  | ' ' :: rest => some (rest.dropWhile (· == ' '))
  | _ => none

/-- Whether a text is a time zone, or nothing. -/
def isZone (chars : List Char) : Bool :=
  match chars.dropWhile (· == ' ') with
  | [] => chars.isEmpty
  | ['Z'] => true
  | char :: rest =>
    (char == '+' || char == '-') &&
      match passDigits? 1 2 rest with
      | none => false
      | some [] => true
      | some rest => ((pass? ':' rest).bind (passDigits? 2 2)).any List.isEmpty

/-- Whether a text looks like a date, or like a date with the time of a day. -/
def looksLikeDate (chars : List Char) : Bool :=
  Option.isSome do
    let rest ← passDigits? 1 2 (← pass? '-' (← passDigits? 1 2 (← pass? '-' (← passDigits? 4 4 chars))))
    if rest.isEmpty then guard (chars.length = 10)
    else
      let rest ← pass? ':' (← passDigits? 2 2 (← pass? ':' (← passDigits? 1 2 (← passDateEnd? rest))))
      let rest ← passDigits? 2 2 rest
      guard (isZone (((pass? '.' rest).map (·.dropWhile Char.isDigit)).getD rest))

/-- Whether a text looks like a double with a point, and with a sign if it has an exponent. -/
def looksLikePointed (chars : List Char) : Bool :=
  let exponent := chars.dropWhile fun char => char != 'e' && char != 'E'
  '.' ∈ chars && (double? chars).isSome &&
    (exponent.isEmpty || exponent.tail.head?.any fun char => char == '+' || char == '-')

/-- Whether a plain scalar of this text would be read as something else. -/
def looksLikeOther (text : String) : Bool :=
  text ∈ nullWords || (truth? text).isSome || text == "=" || text == "<<" ||
    (integer? text.toList).isSome || looksLikePointed text.toList || looksLikeDate text.toList

/-- Whether a text can be written plainly. -/
def canBePlain (text : String) : Bool :=
  let chars := text.toList
  chars.all (fun char => isOrdinary char && char != '\n') && chars.head? != some ' ' &&
    chars.getLast? != some ' ' && !startsAsMark chars && !endsPlain true chars &&
    !looksLikeOther text

/-- Whether a text can be written in single quotes. -/
def canBeSingle (chars : List Char) : Bool :=
  chars.all isOrdinary && !hasPair ' ' '\n' chars && !hasPair '\n' ' ' chars

/-- The letters that escape characters, with the characters' code points. -/
def escapeLetters : List (Nat × Char) :=
  [(0, '0'), (7, 'a'), (8, 'b'), (9, 't'), (10, 'n'), (11, 'v'), (12, 'f'), (13, 'r'), (27, 'e'),
   (34, '"'), (92, '\\'), (0x85, 'N'), (0xA0, '_'), (0x2028, 'L'), (0x2029, 'P')]

/-- How a character is escaped in double quotes, if it has to be. -/
def escape? (char : Char) : Option (List Char) :=
  let code := char.toNat
  let digits (width : Nat) := (Text.hexadecimal width code).map Char.toUpper
  match escapeLetters.lookup code with
  | some letter => some ['\\', letter]
  | none =>
    if isOrdinary char then none
    else if code < 0x100 then some ('\\' :: 'x' :: digits 2)
    else if code < 0x10000 then some ('\\' :: 'u' :: digits 4)
    else some ('\\' :: 'U' :: digits 8)

/-- The column past which a text goes on in the next line. -/
def widest : Nat := 80

/-- Whether a blank stands alone inside a text. -/
def standsAlone (previous next : Option Char) : Bool :=
  previous.isSome && previous != some ' ' && next.isSome && next != some ' '

/-- The characters of a text that is written plainly or in single quotes, from `column` on, where the next lines
start at `margin`. A blank that stands alone past the widest column becomes a break. In single quotes a quote is
written twice, as is the first of several breaks in a row. -/
def foldedChars (isQuoted : Bool) (margin : Nat) :
    (column : Nat) → (previous : Option Char) → List Char → List Char
  | _, _, [] => []
  | column, previous, char :: rest =>
    if char == ' ' && widest < column && standsAlone previous rest.head? then
      '\n' :: foldedChars isQuoted margin margin (some char) rest
    else if char == '\n' then
      (if previous == some char then [char] else [char, char]) ++
        foldedChars isQuoted margin margin (some char) rest
    else if char == '\'' && isQuoted then
      char :: char :: foldedChars isQuoted margin (column + 2) (some char) rest
    else char :: foldedChars isQuoted margin (column + 1) (some char) rest

/-- The characters of a text that is written in double quotes, from `column` on, where the next lines start at
`margin`. Past the widest column a backslash ends the line before a blank and around an escape; another one keeps
a blank that starts a line. -/
def escapedChars (margin : Nat) :
    (column : Nat) → (isFirst afterEscape : Bool) → List Char → List Char
  | _, _, _, [] => []
  | column, isFirst, afterEscape, char :: rest =>
    let isInside := !isFirst && !rest.isEmpty
    match escape? char with
    | some escaped =>
      let column := column + escaped.length
      if isInside && widest + 1 < column then
        let keep := if rest.head? == some ' ' then ['\\'] else []
        escaped ++ ['\\', '\n'] ++ keep ++ escapedChars margin (margin + keep.length) false true rest
      else escaped ++ escapedChars margin column false true rest
    | none =>
      if isInside && widest < column && (char == ' ' || afterEscape) then
        let kept := if char == ' ' then ['\\', char] else [char]
        ['\\', '\n'] ++ kept ++ escapedChars margin (margin + kept.length) false false rest
      else char :: escapedChars margin (column + 1) false false rest

/-- The lines that a text is written on, from `column` on, where the next lines start at `margin`. -/
def textLines (column margin : Nat) (text : String) : List String :=
  let chars := text.toList
  let written :=
    if canBePlain text then foldedChars false margin column none chars
    else if canBeSingle chars then
      '\'' :: (foldedChars true margin (column + 1) none chars ++ ['\''])
    else '"' :: (escapedChars margin (column + 1) true false chars ++ ['"'])
  (String.ofList written).splitOn "\n"

end GameSearch.Yaml
