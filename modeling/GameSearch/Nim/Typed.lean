import GameSearch.Decimal.Typed
import GameSearch.Nim.Position
import GameSearch.Text.Letter
import GameSearch.Text.LowerCase

/-!
# Typed actions

A player types an action as the letter of a pile followed by an amount. Letters and digits of all scripts are
taken; a digit that belongs to no positional system is a fault, as is an amount of too many digits.

`Nim.ask` puts the question to a player until an answer is a legal action.
-/

namespace GameSearch.Nim

/-- The action that a text denotes, if it has the form of one. -/
def Action.ofTyped (text : String) : Except Fault (Option Action) :=
  match text.toList with
  | [] => .ok none
  | [_] => .ok none
  | letter :: digits =>
    if Text.isLetter letter && digits.all Text.isDigit then do
      return some ⟨(letter.toNat : Int) - 97, ← Numeral.ofDigits digits⟩
    else .ok none

/-- What is typed, without the white space around it and in small letters. -/
def tidy (line : String) : String := Text.lower (Text.trim line)

/-- The lines still to be read and what has been shown. -/
structure Dialogue where
  lines : List String
  shown : String

/-- The question for an action. -/
def question (position : Position) : String :=
  position.turn.name ++ ", your move (e.g. a1): "

/-- Reads lines until one denotes a legal action. -/
def ask (position : Position) : (lines : List String) → (shown : String) →
    Except Fault Action × Dialogue
  | [], shown => (.error .endOfInput, ⟨[], shown ++ question position⟩)
  | line :: lines, shown =>
    let shown := shown ++ question position
    match Action.ofTyped (tidy line) with
    | .error fault => (.error fault, ⟨lines, shown⟩)
    | .ok typed =>
      match typed.filter fun action => (position.play position.turn action).isOk with
      | some action => (.ok action, ⟨lines, shown⟩)
      | none =>
        ask position lines (shown ++ "Illegal move " ++ Text.quoted (tidy line) ++ "\n")

end GameSearch.Nim
