import GameSearch.Nim.Position

/-!
# The closed form of Nim

Normal play: a position is lost for the player to move exactly if the exclusive or of the Grundy values of
its piles is zero. Without a limit a pile's Grundy value is its size; with a limit of `k` objects it is the
rest of its size modulo `k + 1`.

Misère play without a limit is the same until no pile holds more than one object; then the player to move
wins exactly if the number of objects is even. Misère play with a limit has no closed form here.
-/

namespace GameSearch.Nim

/-- The Grundy value of a single pile of any size under any limit. The rest takes the sign of the divisor. -/
def grundyValue (size : Int) (limit : Option Int) : Except Fault Int :=
  match limit with
  | none => .ok size
  | some limit => if limit = -1 then .error .zeroDivisor else .ok (size.fmod (limit + 1))

namespace Position

/-- The Grundy value of a pile under the rules of a position. -/
def grundy (position : Position) (size : Nat) : Nat :=
  match position.limit with
  | none => size
  | some limit => size % (limit + 1)

theorem grundy_eq (position : Position) (size : Nat) :
    grundyValue size (position.limit.map Int.ofNat) = .ok (position.grundy size : Int) := by
  unfold grundy grundyValue
  cases position.limit with
  | none => rfl
  | some limit => simp [Int.fmod_eq_emod_of_nonneg (size : Int) (by omega : (0 : Int) ≤ limit + 1)]

/-- The exclusive or of the Grundy values of all piles. -/
def nimSum (position : Position) : Nat :=
  position.piles.foldl (fun sum size => sum ^^^ position.grundy size) 0

/-- Whether the rules of a position have a closed form. -/
def hasClosedForm (position : Position) : Bool :=
  !(position.misere && position.limit.isSome)

/-- Whether the player to move wins with perfect play. -/
def isWinning (position : Position) : Except Fault Bool :=
  if !position.misere then .ok (position.nimSum != 0)
  else if !position.hasClosedForm then .error .noClosedForm
  else if position.piles.all (· ≤ 1) then .ok (position.total % 2 == 0)
  else .ok (position.nimSum != 0)

/-- The actions of an enumeration that leave the opponent in a lost position. -/
def winningAmong (position : Position) : Moves Action → Except Fault (List Action)
  | .done => .ok []
  | .next action rest => do
    let next ← game.play position position.turn action
    let winning ← next.isWinning
    let others ← position.winningAmong (rest ())
    return if winning then others else action :: others

/-- The legal actions that leave the opponent in a lost position, in their order. -/
def winningActions (position : Position) : Except Fault (List Action) :=
  position.winningAmong (position.legal position.turn)

/-- Whether an action is as good as any. From a lost position every action is. -/
def isPerfectAction (position : Position) (action : Action) : Except Fault Bool := do
  if ← position.isWinning then
    return action ∈ (← position.winningActions)
  else return true

end Position

end GameSearch.Nim
