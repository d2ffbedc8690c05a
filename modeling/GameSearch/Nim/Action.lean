import GameSearch.Decimal.Typed
import GameSearch.Game

/-!
# Players and actions of Nim

Two players take turns. An action takes some objects from one pile; piles are numbered from zero and named by
letters, the first one by a small a.
-/

namespace GameSearch.Nim

/-- The two players. -/
inductive Player where
  | one
  | two
  deriving DecidableEq, Repr

namespace Player

/-- The other player. -/
def opponent : Player → Player
  | one => two
  | two => one

@[simp] theorem opponent_opponent (player : Player) : player.opponent.opponent = player := by
  cases player <;> rfl

theorem opponent_ne (player : Player) : player.opponent ≠ player := by
  cases player <;> decide

theorem eq_opponent_of_ne {player other : Player} (different : player ≠ other) :
    player = other.opponent := by
  cases player <;> cases other <;> first | rfl | exact absurd rfl different

def name : Player → String
  | one => "ONE"
  | two => "TWO"

instance : Worded Player where
  plain player := "NimPlayer." ++ player.name
  literal player := "<NimPlayer." ++ player.name ++ ": " ++
    (match player with
      | one => "1"
      | two => "2") ++ ">"

end Player

/-- Why a pile has no letter: its code point is none, or is not even looked up for want of room in 32
bits. -/
def unlettered (code : Int) : Fault :=
  if -0x80000000 ≤ code ∧ code < 0x80000000 then .noPileLetter else .pileOutOfRange

/-- The letter of a pile; the code points that are no characters name none. -/
def pileLetter (pile : Int) : Except Fault Char :=
  let code := 97 + pile
  if 0 ≤ code ∧ code.toNat.isValidChar then .ok (Char.ofNat code.toNat)
  else .error (unlettered code)

/-- The letter of a pile as it stands in a message. The code points that are no characters have a place
among the letters there, which the replacement character takes. -/
def pileMark (pile : Int) : Except Fault Char :=
  let code := 97 + pile
  if 0 ≤ code ∧ code < 0x110000 then
    .ok (if code.toNat.isValidChar then Char.ofNat code.toNat else '\uFFFD')
  else .error (unlettered code)

/-- Taking `amount` objects from pile number `pile`. -/
structure Action where
  pile : Int
  amount : Int
  deriving DecidableEq, Repr

namespace Action

/-- The action in words. -/
def describe (action : Action) : Except Fault String := do
  let amount ← Numeral.written action.amount
  let letter ← pileMark action.pile
  return "take " ++ amount ++ " from " ++ letter.toString

/-- The action with its parts. -/
def literal (action : Action) : String :=
  "NimAction(pile=" ++ toString action.pile ++ ", amount=" ++ toString action.amount ++ ")"

instance : Worded Action where
  plain action := match action.describe with
    | .ok text => text
    | .error _ => action.literal
  literal := literal

/-- By pile, and within a pile by amount. -/
def precedes (left right : Action) : Bool :=
  left.pile < right.pile || (left.pile == right.pile && left.amount < right.amount)

end Action

end GameSearch.Nim
