import GameSearch.Nim.Action

/-!
# Positions of Nim

Players take turns in removing objects from one pile. Under normal play whoever takes the last object wins,
under misère play whoever takes it loses. An optional limit bounds what one move may take.

A position has at least one pile, and a limit allows at least one object; both are part of the type.
`Position.play` and `Position.legal` are two accounts of the rules, and `Nim.game` rests on their agreement.
-/

namespace GameSearch.Nim

/-- The piles, whose turn it is, and the rules in force. -/
structure Position where
  piles : List Nat
  /-- Who moves next or, once every pile is empty, would have moved. -/
  turn : Player
  /-- The most objects that one move may take. -/
  limit : Option Nat
  misere : Bool
  piles_ne_nil : piles ≠ []
  limit_pos : ∀ most, limit = some most → 0 < most
  deriving DecidableEq

/-- Why an action cannot be played. -/
inductive Refusal where
  | gameOver (action : Action)
  | notYourTurn (player expected : Player)
  | noSuchPile (pile : Int) (count : Nat)
  | badAmount (action : Action) (size most : Nat)
  deriving DecidableEq, Repr

/-- The wording of a refusal, which may need the letter of a pile that has none or an integer of too
many digits. -/
def Refusal.account : Refusal → Except Fault String
  | .gameOver action => do return "Game is over, cannot " ++ (← action.describe)
  | .notYourTurn player expected =>
    .ok ("Not " ++ player.name ++ "'s turn (expected " ++ expected.name ++ ")")
  | .noSuchPile pile count => do
    return "No pile " ++ (← Numeral.written pile) ++ " (have " ++ (← Numeral.written count) ++ ")"
  | .badAmount action size most => do
    return "Cannot " ++ (← action.describe) ++ ": pile holds " ++ (← Numeral.written size) ++
      ", limit " ++ (← Numeral.written most)

def Refusal.fault (refusal : Refusal) : Fault := .told (.illegalAction <$> refusal.account)

/-- What is wrong with sizes of which one is negative. -/
def negativePile (sizes : List Int) : Fault :=
  .told (.negativePile <$> sizes.mapM Numeral.written)

namespace Position

theorem unlimited_pos : ∀ most : Nat, (none : Option Nat) = some most → 0 < most := by simp

theorem limited_pos {limit : Int} (large : ¬ limit < 1) :
    ∀ most : Nat, some limit.toNat = some most → 0 < most := by
  rintro _ ⟨⟩
  omega

/-- The position with the given piles, if it is one. -/
def ofSizes (sizes : List Int) (turn : Player) (limit : Option Int) (misere : Bool) :
    Except Fault Position :=
  if nonempty : sizes = [] then .error .noPiles
  else if sizes.any (· < 0) then .error (negativePile sizes)
  else
    have piles_ne_nil := mt List.map_eq_nil_iff.mp nonempty
    match limit with
    | none => .ok ⟨sizes.map Int.toNat, turn, none, misere, piles_ne_nil, unlimited_pos⟩
    | some most =>
      if small : most < 1 then .error (.told (.takeLimit <$> Numeral.written most))
      else .ok ⟨sizes.map Int.toNat, turn, some most.toNat, misere, piles_ne_nil, limited_pos small⟩

/-- Whether nothing is left to take. -/
def isOver (position : Position) : Bool := position.piles.all (· == 0)

/-- Whose turn it is, or who has won. The player to move is the one left with nothing to take. -/
def status (position : Position) : Status Player :=
  if position.isOver then
    .over (some (if position.misere then position.turn else position.turn.opponent))
  else .turn position.turn

/-- The most that a move may take from a pile of the given size. -/
def most (position : Position) (size : Nat) : Nat :=
  match position.limit with
  | none => size
  | some limit => min size limit

/-- Taking `first`, `first + 1`, … objects from a pile, `count` actions in all. -/
def takes (pile : Nat) : (first count : Nat) → Moves Action
  | _, 0 => .done
  | first, count + 1 => .next ⟨pile, first⟩ fun _ => takes pile (first + 1) count

/-- The actions on the given piles, which are numbered from `first`. -/
def takesFrom (position : Position) : (first : Nat) → List Nat → Moves Action
  | _, [] => .done
  | first, size :: sizes =>
    (takes first 1 (position.most size)).append fun _ => position.takesFrom (first + 1) sizes

/-- The legal actions of a player, by pile and amount. -/
def legal (position : Position) (player : Player) : Moves Action :=
  if player = position.turn ∧ position.isOver = false then position.takesFrom 0 position.piles
  else .done

/-- The position after an action, or why it cannot be played. -/
def play (position : Position) (player : Player) (action : Action) : Except Refusal Position :=
  if position.isOver then .error (.gameOver action)
  else if player ≠ position.turn then .error (.notYourTurn player position.turn)
  else
    match action.pile with
    | .negSucc _ => .error (.noSuchPile action.pile position.piles.length)
    | .ofNat pile =>
      match position.piles[pile]? with
      | none => .error (.noSuchPile action.pile position.piles.length)
      | some size =>
        if 1 ≤ action.amount ∧ action.amount ≤ position.most size then
          .ok { position with
            piles := position.piles.set pile (size - action.amount.toNat)
            turn := position.turn.opponent
            piles_ne_nil := by simpa using position.piles_ne_nil }
        else .error (.badAmount action size (position.most size))

/-- The number of objects left. -/
def total (position : Position) : Nat := position.piles.foldr (· + ·) 0

theorem isOver_eq_false {position : Position} :
    position.isOver = false ↔ ∃ size ∈ position.piles, size ≠ 0 := by
  simp [isOver]

theorem most_le (position : Position) (size : Nat) : position.most size ≤ size := by
  unfold most
  split
  · exact Nat.le_refl _
  · exact Nat.min_le_left _ _

theorem mem_takes {pile first count : Nat} {action : Action} :
    action ∈ (takes pile first count).toList ↔
      action.pile = pile ∧ (first : Int) ≤ action.amount ∧ action.amount < first + count := by
  induction count generalizing first with
  | zero =>
    simp only [takes, Moves.toList_done, List.not_mem_nil, false_iff]
    omega
  | succ count ih =>
    simp only [takes, Moves.toList_next, List.mem_cons, ih]
    constructor
    · rintro (rfl | ⟨pile_eq, low, high⟩)
      · exact ⟨rfl, by dsimp only; omega, by dsimp only; omega⟩
      · exact ⟨pile_eq, by omega, by omega⟩
    · rintro ⟨pile_eq, low, high⟩
      by_cases same : action.amount = first
      · left
        cases action
        simp_all
      · right
        exact ⟨pile_eq, by omega, by omega⟩

theorem mem_takesFrom {position : Position} {first : Nat} {sizes : List Nat} {action : Action} :
    action ∈ (position.takesFrom first sizes).toList ↔
      ∃ index size, sizes[index]? = some size ∧ action.pile = (first + index : Nat) ∧
        1 ≤ action.amount ∧ action.amount ≤ position.most size := by
  induction sizes generalizing first with
  | nil => simp [takesFrom]
  | cons size sizes ih =>
    simp only [takesFrom, Moves.toList_append, List.mem_append, mem_takes, ih]
    constructor
    · rintro (⟨pile_eq, low, high⟩ | ⟨index, other, at_index, pile_eq, bounds⟩)
      · exact ⟨0, size, rfl, by simpa using pile_eq, by omega, by omega⟩
      · exact ⟨index + 1, other, by simpa using at_index, by omega, bounds⟩
    · rintro ⟨index, other, at_index, pile_eq, low, high⟩
      cases index with
      | zero =>
        obtain rfl : size = other := by simpa using at_index
        exact .inl ⟨by simpa using pile_eq, by omega, by omega⟩
      | succ index =>
        exact .inr ⟨index, other, by simpa using at_index, by omega, low, high⟩

/-- The legal actions are those that take an allowed amount from an existing pile. -/
theorem mem_legal {position : Position} {player : Player} {action : Action} :
    action ∈ position.legal player ↔
      position.isOver = false ∧ player = position.turn ∧
        ∃ pile size, position.piles[pile]? = some size ∧ action.pile = (pile : Nat) ∧
          1 ≤ action.amount ∧ action.amount ≤ position.most size := by
  unfold legal
  split
  · rename_i acting
    simp [Moves.mem_def, mem_takesFrom, acting]
  · rename_i idle
    simp only [Moves.mem_def, Moves.toList_done, List.not_mem_nil, false_iff]
    rintro ⟨running, mover, _⟩
    exact idle ⟨mover, running⟩

/-- What an action that can be played does. -/
theorem play_eq_ok {position next : Position} {player : Player} {action : Action} :
    position.play player action = .ok next ↔
      position.isOver = false ∧ player = position.turn ∧
        ∃ pile size, position.piles[pile]? = some size ∧ action.pile = (pile : Nat) ∧
          1 ≤ action.amount ∧ action.amount ≤ position.most size ∧
          next.piles = position.piles.set pile (size - action.amount.toNat) ∧
          next.turn = position.turn.opponent ∧ next.limit = position.limit ∧
          next.misere = position.misere := by
  constructor
  · intro played
    unfold play at played
    split at played
    · simp at played
    rename_i running
    split at played
    · simp at played
    rename_i mover
    split at played
    · simp at played
    rename_i pile pile_eq
    split at played
    · simp at played
    rename_i size at_pile
    split at played
    · rename_i bounds
      obtain rfl := Except.ok.inj played
      exact ⟨by simpa using running, by simpa using mover, pile, size, at_pile, pile_eq,
        bounds.1, bounds.2, rfl, rfl, rfl, rfl⟩
    · simp at played
  · rintro ⟨running, rfl, pile, size, at_pile, pile_eq, low, high, piles, turn, limit, misere⟩
    obtain ⟨_, amount⟩ := action
    obtain rfl : _ = (pile : Int) := pile_eq
    obtain ⟨nextPiles, nextTurn, nextLimit, nextMisere, _, _⟩ := next
    simp only at piles turn limit misere low high
    subst piles turn limit misere
    have at_pile : position.piles[pile]? = some size := at_pile
    simp [play, running, at_pile, low, high]

theorem sum_set_add {sizes : List Nat} {pile size other : Nat}
    (at_pile : sizes[pile]? = some size) :
    (sizes.set pile other).foldr (· + ·) 0 + size = sizes.foldr (· + ·) 0 + other := by
  induction sizes generalizing pile with
  | nil => simp at at_pile
  | cons first sizes ih =>
    cases pile with
    | zero =>
      obtain rfl : first = size := by simpa using at_pile
      simp
      omega
    | succ pile =>
      have := ih (by simpa using at_pile)
      simp
      omega

/-- A move takes its amount off the objects left. -/
theorem total_play {position next : Position} {player : Player} {action : Action}
    (played : position.play player action = .ok next) :
    (next.total : Int) = position.total - action.amount ∧ 1 ≤ action.amount := by
  obtain ⟨_, _, pile, size, at_pile, _, low, high, piles, _⟩ := play_eq_ok.mp played
  have small := position.most_le size
  have sums : next.total + size = position.total + (size - action.amount.toNat) := by
    simp only [total, piles]
    exact sum_set_add at_pile
  omega

/-- The position after an action, with a refusal as a fault. -/
def move (position : Position) (player : Player) (action : Action) : Except Fault Position :=
  match position.play player action with
  | .ok next => .ok next
  | .error refusal => .error refusal.fault

theorem move_eq_ok {position next : Position} {player : Player} {action : Action} :
    position.move player action = .ok next ↔ position.play player action = .ok next := by
  unfold move
  split <;> simp_all

/-- The actions that can be played are the legal ones. -/
theorem move_isOk (position : Position) (player : Player) (action : Action) :
    (∃ next, position.move player action = .ok next) ↔ action ∈ position.legal player := by
  simp only [move_eq_ok, mem_legal]
  constructor
  · rintro ⟨next, played⟩
    obtain ⟨running, mover, pile, size, at_pile, pile_eq, low, high, _⟩ := play_eq_ok.mp played
    exact ⟨running, mover, pile, size, at_pile, pile_eq, low, high⟩
  · rintro ⟨running, mover, pile, size, at_pile, pile_eq, low, high⟩
    let next : Position := ⟨position.piles.set pile (size - action.amount.toNat),
      position.turn.opponent, position.limit, position.misere,
      by simpa using position.piles_ne_nil, position.limit_pos⟩
    exact ⟨next, play_eq_ok.mpr ⟨running, mover, pile, size, at_pile, pile_eq, low, high,
      rfl, rfl, rfl, rfl⟩⟩

/-- Whoever is not to move has no legal action. -/
theorem legal_idle (position : Position) (player : Player)
    (idle : position.status ≠ .turn player) : (position.legal player).toList = [] := by
  unfold legal
  split
  · rename_i acting
    simp [status, acting] at idle
  · rfl

theorem total_move (position : Position) (player : Player) (action : Action) (next : Position)
    (moves : Nat) (moved : position.move player action = .ok next)
    (known : some position.total = some moves) :
    ∃ fewer, some next.total = some fewer ∧ fewer < moves := by
  obtain rfl := Option.some.inj known
  have := total_play (move_eq_ok.mp moved)
  exact ⟨_, rfl, by omega⟩

end Position

def game : Game Position Player Action where
  status := Position.status
  legal := Position.legal
  play := Position.move
  height position := some position.total
  legal_idle := Position.legal_idle
  play_isOk := Position.move_isOk
  height_play := Position.total_move

end GameSearch.Nim
