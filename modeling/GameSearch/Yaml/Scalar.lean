import GameSearch.Config.Json
import GameSearch.Yaml.Cursor

/-!
# Scalars of a document

A plain scalar is delimited by its context, a quoted one by its quotes, and a block scalar by its indentation. In
the first two, lines are folded: a line break becomes a blank, unless empty lines follow it, which then
stand for the breaks.
-/

namespace GameSearch.Yaml

open GameSearch.Config.Json (hexNumber?)

/-- The characters that structure flow collections. -/
def isFlowIndicator (char : Char) : Bool :=
  char == ',' || char == '[' || char == ']' || char == '\x7b' || char == '\x7d'

/-- What folding leaves of a line break and the empty lines after it. -/
def foldedBreaks (emptyLines : Nat) : List Char :=
  if emptyLines = 0 then [' '] else List.replicate emptyLines '\n'

/-! ## Plain scalars -/

/-- Whether a colon before `rest` ends a plain scalar. -/
def colonEnds (flow : Bool) (rest : List Char) : Bool :=
  isGap rest.head? || (flow && rest.head?.any isFlowIndicator)

/-- The part of a plain scalar up to the next gap. -/
def plainRun (flow : Bool) : List Char → List Char
  | [] => []
  | char :: rest =>
    if isGap (some char) || (char == ':' && colonEnds flow rest) ||
        (flow && (char == '?' || isFlowIndicator char)) then []
    else char :: plainRun flow rest

/-- Whether a plain scalar can start here. -/
def startsPlain (flow : Bool) (cursor : Cursor) : Bool :=
  match cursor.peek with
  | none => false
  | some char =>
    if char == '-' then !isGap cursor.peekSecond
    else if char == '?' || char == ':' then !flow && !isGap cursor.peekSecond
    else !isGap (some char) && !isFlowIndicator char && !("#&*!|>'\"%@`".toList.contains char)

/-- Passes empty lines and the blanks before the next token and counts the line breaks passed. -/
def passBreaks : (steps : Nat) → Nat → Cursor → Nat × Cursor
  | 0, count, cursor => (count, cursor)
  | steps + 1, count, cursor =>
    match cursor.peek with
    | some ' ' => passBreaks steps count cursor.next
    | some '\n' => passBreaks steps (count + 1) cursor.next
    | _ => (count, cursor)

/-- What joins a part of a plain scalar to the next one, and where that is. -/
def plainGap (cursor : Cursor) : List Char × Cursor :=
  let blanks := cursor.run (· == ' ')
  let after := cursor.dropBlanks
  match after.peek with
  | some '\n' =>
    let (breaks, after) := passBreaks after.rest.length 0 after
    (foldedBreaks (breaks - 1), after)
  | _ => (blanks, after)

/-- Reads on in a plain scalar whose later lines are indented by at least `least`. -/
def readPlainFrom (flow : Bool) (least : Nat) :
    (steps : Nat) → (read : List Char) → Cursor → List Char × Cursor
  | 0, read, cursor => (read, cursor)
  | steps + 1, read, cursor =>
    let (gap, start) := if read.isEmpty then ([], cursor) else plainGap cursor
    let part := plainRun flow start.rest
    let isOutside := start.line != cursor.line && (start.atEnd || (!flow && start.column < least))
    if isOutside || part.isEmpty || start.peek == some '#' then (read, cursor)
    else readPlainFrom flow least steps (read ++ gap ++ part) (start.drop part.length)

def readPlain (flow : Bool) (least : Nat) (cursor : Cursor) : String × Cursor :=
  let (chars, after) := readPlainFrom flow least cursor.rest.length [] cursor
  (String.ofList chars, after)

/-! ## Quoted scalars -/

def isBlankOrTab (char : Char) : Bool := char == ' ' || char == '\t'

/-- Passes line breaks, and the blanks around them, inside quotes. -/
def passQuotedBreaks : (steps : Nat) → Nat → Cursor → Except Flaw (Nat × Cursor)
  | 0, _, _ => .error .token
  | steps + 1, count, cursor =>
    let after := cursor.dropRun isBlankOrTab
    if cursor.column = 0 ∧ !cursor.rest.isEmpty ∧ cursor.atEnd then .error .token
    else match after.peek with
      | some '\n' => passQuotedBreaks steps (count + 1) after.next
      | _ => .ok (count, after)

/-- What a gap inside quotes stands for. -/
def quotedGap (cursor : Cursor) : Except Flaw (List Char × Cursor) :=
  let blanks := cursor.run isBlankOrTab
  let after := cursor.dropRun isBlankOrTab
  match after.peek with
  | some '\n' => do
    let (breaks, after) ← passQuotedBreaks (after.rest.length + 1) 0 after.next
    return (foldedBreaks breaks, after)
  | _ => .ok (blanks, after)

def escapeOf? (letter : Char) : Option Char :=
  (("0abt\tnvfre \"\\/N_LP".toList.zip
    [0, 7, 8, 9, 9, 10, 11, 12, 13, 27, 32, 34, 92, 47, 0x85, 0xA0, 0x2028, 0x2029]).find?
      fun entry => entry.1 == letter).map fun entry => Char.ofNat entry.2

/-- How many hexadecimal digits follow an escape letter. -/
def escapeWidth? (letter : Char) : Option Nat :=
  if letter = 'x' then some 2
  else if letter = 'u' then some 4
  else if letter = 'U' then some 8
  else none

/-- Reads an escape sequence after its backslash. -/
def readEscape (cursor : Cursor) : Except Flaw (List Char × Cursor) :=
  match cursor.peek with
  | none => .error .token
  | some '\n' => do
    let (breaks, after) ← passQuotedBreaks (cursor.rest.length + 1) 0 cursor.next
    return (List.replicate breaks '\n', after)
  | some letter =>
    match escapeOf? letter, escapeWidth? letter with
    | some char, _ => .ok ([char], cursor.next)
    | none, some width =>
      let digits := cursor.next.rest.take width
      match hexNumber? digits with
      | some code =>
        if digits.length = width then .ok ([Char.ofNat code], cursor.next.drop width)
        else .error .token
      | none => .error .token
    | none, none => .error .token

/-- Reads a quoted scalar after its opening quote. -/
def readQuotedFrom (quote : Char) :
    (steps : Nat) → (read : List Char) → Cursor → Except Flaw (List Char × Cursor)
  | 0, _, _ => .error .token
  | steps + 1, read, cursor =>
    match cursor.peek with
    | none => .error .token
    | some char =>
      if char = quote then
        if quote = '\'' ∧ cursor.peekSecond = some '\'' then
          readQuotedFrom quote steps (read ++ ['\'']) (cursor.drop 2)
        else .ok (read, cursor.next)
      else if isGap (some char) then do
        let (gap, after) ← quotedGap cursor
        readQuotedFrom quote steps (read ++ gap) after
      else if quote = '"' ∧ char = '\\' then do
        let (chars, after) ← readEscape cursor.next
        readQuotedFrom quote steps (read ++ chars) after
      else readQuotedFrom quote steps (read ++ [char]) cursor.next

def readQuoted (quote : Char) (cursor : Cursor) : Except Flaw (String × Cursor) := do
  let (chars, after) ← readQuotedFrom quote (cursor.rest.length + 1) [] cursor.next
  return (String.ofList chars, after)

/-! ## Block scalars -/

/-- What becomes of the line breaks at the end of a block scalar. -/
inductive Chomping where
  | strip
  | clip
  | keep
  deriving DecidableEq

/-- The indicators after the one that starts a block scalar. -/
structure BlockHeader where
  chomping : Chomping
  /-- By how much the scalar is indented, if that is given. -/
  increment : Option Nat

/-- Reads the indicators of a block scalar, in either order. -/
def readBlockHeader (cursor : Cursor) : Except Flaw (BlockHeader × Cursor) :=
  let indicators := cursor.run fun char => char == '+' || char == '-' || char.isDigit
  let after := cursor.drop indicators.length
  let signs := indicators.filter fun char => !char.isDigit
  let digits := indicators.filter Char.isDigit
  let chomping := if signs = ['-'] then .strip else if signs = ['+'] then .keep else .clip
  let line := after.dropBlanks
  let comment := if line.peek = some '#' then line.dropRun (· != '\n') else line
  if 1 < signs.length ∨ 1 < digits.length ∨ '0' ∈ digits ∨
      (comment.peek ≠ none ∧ comment.peek ≠ some '\n') then .error .token
  else .ok (⟨chomping, digits.head?.map fun digit => digit.toNat - 48⟩, comment.next)

/-- The deepest column that the blanks before a block scalar's first line reach. -/
def detectIndent : (steps : Nat) → Nat → Cursor → Nat
  | 0, deepest, _ => deepest
  | steps + 1, deepest, cursor =>
    match cursor.peek with
    | some ' ' => detectIndent steps (max deepest cursor.next.column) cursor.next
    | some '\n' => detectIndent steps deepest cursor.next
    | _ => deepest

/-- Passes empty lines, and blanks up to a column, and counts the lines. -/
def passEmptyLines (indent : Nat) : (steps : Nat) → Nat → Cursor → Nat × Cursor
  | 0, count, cursor => (count, cursor)
  | steps + 1, count, cursor =>
    match cursor.peek with
    | some ' ' =>
      if cursor.column < indent then passEmptyLines indent steps count cursor.next
      else (count, cursor)
    | some '\n' => passEmptyLines indent steps (count + 1) cursor.next
    | _ => (count, cursor)

/-- Reads the lines of a block scalar that follow `breaks` empty ones. The text comes without its
last line break and the empty lines behind that, whose number is given apart. -/
def readBlockLines (folded : Bool) (indent : Nat) :
    (steps : Nat) → (breaks : Nat) → Cursor → List Char × Option Nat × Cursor
  | 0, _, cursor => ([], none, cursor)
  | steps + 1, breaks, cursor =>
    if cursor.column ≠ indent ∨ cursor.rest.isEmpty then ([], none, cursor)
    else
      let line := cursor.run (· != '\n')
      let stop := cursor.drop line.length
      let (empty, after) := passEmptyLines indent (stop.rest.length + 1) 0 stop.next
      let start := List.replicate breaks '\n' ++ line
      if stop.rest.isEmpty then (start, none, stop)
      else if after.column ≠ indent ∨ after.rest.isEmpty then (start, some empty, after)
      else
        let joins := folded && !(line.head?.any isBlankOrTab) && !(after.peek.any isBlankOrTab)
        let joint := if joins then if empty = 0 then [' '] else [] else ['\n']
        let (others, tail, last) := readBlockLines folded indent steps empty after
        (start ++ joint ++ others, tail, last)

/-- The end of a block scalar with `tail` empty lines behind its last line break. -/
def Chomping.ending (chomping : Chomping) (tail : Option Nat) : List Char :=
  match chomping, tail with
  | .strip, _ => []
  | _, none => []
  | .clip, some _ => ['\n']
  | .keep, some empty => List.replicate (empty + 1) '\n'

/-- Reads a block scalar that belongs to a parent at column `parent`. -/
def readBlockScalar (parent : Int) (cursor : Cursor) : Except Flaw (String × Cursor) := do
  let folded := cursor.peek == some '>'
  let (header, start) ← readBlockHeader cursor.next
  let least := max 1 (parent + 1).toNat
  let steps := start.rest.length + 1
  let indent := match header.increment with
    | some increment => least + increment - 1
    | none => max least (detectIndent steps 0 start)
  let (breaks, first) := passEmptyLines indent steps 0 start
  let (chars, tail, after) := readBlockLines folded indent steps breaks first
  let ending :=
    if chars.isEmpty && first.column ≠ indent then
      if header.chomping = .keep then List.replicate breaks '\n' else []
    else header.chomping.ending tail
  return (String.ofList (chars ++ ending), after)

end GameSearch.Yaml
