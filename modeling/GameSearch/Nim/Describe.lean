import GameSearch.Nim.Oracle

/-!
# Positions of Nim in words
-/

namespace GameSearch.Nim.Position

/-- The piles with their letters, from pile number `first` on. -/
def pileTexts : (first : Nat) → List Nat → Except Fault (List String)
  | _, [] => .ok []
  | first, size :: sizes => do
    let letter ← pileLetter first
    let count ← Numeral.written size
    let others ← pileTexts (first + 1) sizes
    return (letter.toString ++ ":" ++ count) :: others

/-- The position as shown to a player. -/
def board (position : Position) : Except Fault String := do
  let piles ← pileTexts 0 position.piles
  return "[" ++ "  ".intercalate piles ++ "] " ++ position.turn.name ++ " to move"

/-- The position with all its parts. -/
def literal (position : Position) : Except Fault String := do
  let piles ← position.piles.mapM fun size : Nat => Numeral.written size
  let limit ← match position.limit with
    | none => pure "None"
    | some limit => Numeral.written limit
  return "NimState(piles=" ++ Text.bracketed piles ++ ", turn=" ++ Worded.plain position.turn ++
    ", max_take=" ++ limit ++ ", misere=" ++ (if position.misere then "True" else "False") ++ ")"

/-- The best actions in words, as far as the rules have a closed form. -/
def describeOptimal (position : Position) : Except Fault String :=
  match position.winningActions with
  | .error _ => .ok "unknown"
  | .ok [] => .ok "none (lost position)"
  | .ok actions => do return ", ".intercalate (← actions.mapM Action.describe)

end GameSearch.Nim.Position
