/-!
# Places in a document

A document is read from a cursor: the characters ahead together with their line and column. Structure depends on
columns, so every step through the text keeps count. Line feeds are the only line breaks here;
`Cursor.ofText` brings the other common forms into that one.
-/

namespace GameSearch.Yaml

/-- Why a document cannot be read. -/
inductive Flaw where
  /-- A character that no document may hold. -/
  | character
  /-- The characters form no token, or a token that is not allowed here. -/
  | token
  /-- The tokens do not nest. -/
  | layout
  /-- An alias without its anchor, an anchor given twice, or a second document. -/
  | reference
  /-- A key given twice, or a node that has no value. -/
  | meaning
  deriving DecidableEq, Repr

/-- What is ahead, and where it is. Lines and columns count from zero. -/
structure Cursor where
  rest : List Char
  line : Nat
  column : Nat

/-- Whether a character is missing, a blank or a line break. -/
def isGap : Option Char → Bool
  | none => true
  | some char => char == ' ' || char == '\t' || char == '\n'

/-- Writes every line break as a line feed. -/
def unifyBreaks : List Char → List Char
  | [] => []
  | '\r' :: '\n' :: rest => '\n' :: unifyBreaks rest
  | '\r' :: rest => '\n' :: unifyBreaks rest
  | '\u0085' :: rest => '\n' :: unifyBreaks rest
  | char :: rest => char :: unifyBreaks rest

namespace Cursor

/-- The start of a text. A byte order mark in front does not count. -/
def ofText (text : String) : Cursor :=
  match unifyBreaks text.toList with
  | '\uFEFF' :: rest => ⟨rest, 0, 0⟩
  | chars => ⟨chars, 0, 0⟩

def peek (cursor : Cursor) : Option Char := cursor.rest.head?

def peekSecond (cursor : Cursor) : Option Char := cursor.rest.tail.head?

/-- Passes one character. -/
def next (cursor : Cursor) : Cursor :=
  match cursor.rest with
  | [] => cursor
  | '\n' :: rest => ⟨rest, cursor.line + 1, 0⟩
  | _ :: rest => ⟨rest, cursor.line, cursor.column + 1⟩

/-- Passes a number of characters. -/
def drop (cursor : Cursor) : Nat → Cursor
  | 0 => cursor
  | count + 1 => cursor.next.drop count

/-- The characters of a class that are directly ahead. -/
def run (cursor : Cursor) (inClass : Char → Bool) : List Char := cursor.rest.takeWhile inClass

/-- Passes the characters of a class. -/
def dropRun (cursor : Cursor) (inClass : Char → Bool) : Cursor :=
  cursor.drop (cursor.run inClass).length

def dropBlanks (cursor : Cursor) : Cursor := cursor.dropRun (· == ' ')

/-- Passes blanks, line breaks and comments. -/
def skipFrom : (chars : List Char) → (line column : Nat) → (inComment : Bool) → Cursor
  | [], line, column, _ => ⟨[], line, column⟩
  | '\n' :: rest, line, _, _ => skipFrom rest (line + 1) 0 false
  | _ :: rest, line, column, true => skipFrom rest line (column + 1) true
  | ' ' :: rest, line, column, false => skipFrom rest line (column + 1) false
  | '#' :: rest, line, column, false => skipFrom rest line (column + 1) true
  | char :: rest, line, column, false => ⟨char :: rest, line, column⟩

/-- Passes blanks, line breaks and comments up to the next token. -/
def skip (cursor : Cursor) : Cursor := skipFrom cursor.rest cursor.line cursor.column false

/-- Whether a mark of three characters, followed by a gap, starts the line. -/
def startsLineWith (cursor : Cursor) (mark : Char) : Bool :=
  cursor.column == 0 && [mark, mark, mark].isPrefixOf cursor.rest &&
    isGap (cursor.rest.drop 3).head?

/-- Whether a document starts here. -/
def atStart (cursor : Cursor) : Bool := cursor.startsLineWith '-'

/-- Whether a document ends here: at a mark, or with the text. -/
def atEnd (cursor : Cursor) : Bool :=
  cursor.rest.isEmpty || cursor.atStart || cursor.startsLineWith '.'

/-- Whether an indicator stands here on its own. -/
def atIndicator (cursor : Cursor) (indicator : Char) : Bool :=
  cursor.peek == some indicator && isGap cursor.peekSecond

end Cursor

end GameSearch.Yaml
