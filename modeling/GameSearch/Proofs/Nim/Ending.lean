import GameSearch.Proofs.Contest.Replay
import GameSearch.Proofs.Contest.Run
import GameSearch.Proofs.Nim.PerfectPlay

/-!
# How games of Nim go

Every move of Nim passes the turn and takes its amount off one pile. So along a line of play the
players alternate, and what has been taken from a pile and what is left of it make up the pile that
stood there at the start. A game of players who play legally comes to an end, after no more turns
than there were objects; whoever moved last wins under normal play and loses under misère play.

`Tally` keeps these accounts for a line of play. Who wins is read off the turn that nobody is left
to take, and the tally says who took the one before it.
-/

namespace GameSearch.Nim

/-- Who moves after some turns. -/
def Player.after (player : Player) (turns : Nat) : Player :=
  if turns % 2 = 0 then player else player.opponent

theorem Player.after_succ (player : Player) (turns : Nat) :
    player.after (turns + 1) = (player.after turns).opponent := by
  unfold Player.after
  rcases Nat.mod_two_eq_zero_or_one turns with even | odd
  · simp [even, show (turns + 1) % 2 = 1 by omega]
  · simp [odd, show (turns + 1) % 2 = 0 by omega]

/-- How much a history takes from a pile. -/
def takenFrom (pile : Nat) : List (Player × Action) → Int
  | [] => 0
  | (_, action) :: later =>
    if action.pile = (pile : Int) then action.amount + takenFrom pile later
    else takenFrom pile later

theorem takenFrom_append (pile : Nat) (first second : List (Player × Action)) :
    takenFrom pile (first ++ second) = takenFrom pile first + takenFrom pile second := by
  induction first with
  | nil => simp [takenFrom]
  | cons entry first ih =>
      simp only [takenFrom, List.cons_append, ih]
      split
      · rw [Int.add_assoc]
      · rfl

theorem takenFrom_singleton (pile : Nat) (player : Player) (action : Action) :
    takenFrom pile [(player, action)] =
      if action.pile = (pile : Int) then action.amount else 0 := by
  simp [takenFrom]

/-- The accounts of a line of play. -/
structure Tally (start : Position) (history : List (Player × Action)) (position : Position) :
    Prop where
  misere_eq : position.misere = start.misere
  turn_eq : position.turn = start.turn.after history.length
  mover_eq : ∀ (index : Nat) (entry : Player × Action), history[index]? = some entry →
    entry.1 = start.turn.after index
  total_le : history.length + position.total ≤ start.total
  taken_add : ∀ (pile size : Nat), start.piles[pile]? = some size → ∃ left : Nat,
    position.piles[pile]? = some left ∧ takenFrom pile history + left = size

theorem tally_start (start : Position) : Tally start [] start := by
  constructor
  · rfl
  · rfl
  · simp
  · simp
  · intro pile size at_pile
    exact ⟨size, at_pile, by simp [takenFrom]⟩

/-- A move is entered into the accounts. -/
theorem Tally.play {start position next : Position} {history : List (Player × Action)}
    {player : Player} {action : Action} (tally : Tally start history position)
    (played : position.play player action = .ok next) :
    Tally start (history ++ [(player, action)]) next := by
  have fewer := Position.total_play played
  rcases Position.play_eq_ok.mp played with
    ⟨-, mover, pile, size, at_pile, pile_eq, low, high, piles_eq, turn_eq, -, misere_eq⟩
  constructor
  · rw [misere_eq, tally.misere_eq]
  · rw [turn_eq, tally.turn_eq, List.length_append, List.length_singleton, Player.after_succ]
  · intro index entry at_index
    rw [List.getElem?_append] at at_index
    split at at_index
    · exact tally.mover_eq index entry at_index
    · rename_i beyond
      have last : index = history.length := by
        have within := (List.getElem?_eq_some_iff.mp at_index).1
        rw [List.length_singleton] at within
        omega
      simp only [last, Nat.sub_self, List.getElem?_cons_zero, Option.some.injEq] at at_index
      rw [← at_index, last, mover, tally.turn_eq]
  · have before := tally.total_le
    rw [List.length_append, List.length_singleton]
    omega
  · intro other whole at_start
    rcases tally.taken_add other whole at_start with ⟨left, at_other, sum⟩
    rw [takenFrom_append, takenFrom_singleton, pile_eq, piles_eq, List.getElem?_set]
    have bound := position.most_le size
    by_cases same : pile = other
    · subst same
      have within := (List.getElem?_eq_some_iff.mp at_pile).1
      rw [at_pile, Option.some.injEq] at at_other
      subst at_other
      simp only [if_true, within]
      exact ⟨_, rfl, by omega⟩
    · refine ⟨left, by simp [same, at_other], ?_⟩
      have other_ne : ¬((pile : Int) = (other : Int)) := by omega
      rw [if_neg other_ne]
      omega

theorem tally_of_line {start last : Position} {history : List (Player × Action)}
    (line : game.Line start history last) : Tally start history last := by
  induction line with
  | start => exact tally_start start
  | turn _ _ played ih => exact ih.play (Position.move_eq_ok.mp played)

/-- No turn takes more than the limit allows. -/
theorem total_le_of_line {start last : Position} {history : List (Player × Action)} {most : Nat}
    (limited : start.limit = some most) (line : game.Line start history last) :
    last.limit = some most ∧ start.total ≤ last.total + history.length * most := by
  induction line with
  | start => exact ⟨limited, by simp⟩
  | @turn history position next player action _ _ played ih =>
      rcases ih with ⟨limit_eq, le⟩
      have fewer := Position.total_play (Position.move_eq_ok.mp played)
      rcases Position.play_eq_ok.mp (Position.move_eq_ok.mp played) with
        ⟨-, -, pile, size, -, -, -, high, -, -, kept, -⟩
      have within : position.most size ≤ most := by
        rw [Position.most, limit_eq]
        exact Nat.min_le_right size most
      refine ⟨kept.trans limit_eq, ?_⟩
      rw [List.length_append, List.length_singleton, Nat.add_mul, Nat.one_mul]
      omega

/-- At the end, every pile has been taken. -/
theorem Tally.taken_eq {start last : Position} {history : List (Player × Action)}
    (tally : Tally start history last) (ended : last.isOver = true) {pile size : Nat}
    (at_start : start.piles[pile]? = some size) : takenFrom pile history = size := by
  rcases tally.taken_add pile size at_start with ⟨left, at_last, sum⟩
  have empty : left = 0 := by
    simp only [Position.isOver, List.all_eq_true, beq_iff_eq] at ended
    exact ended left (List.mem_of_getElem? at_last)
  omega

/-- Whoever has moved is the opponent of the player to move. -/
theorem Tally.turn_eq_opponent {start last : Position} {history : List (Player × Action)}
    (tally : Tally start history last) {entry : Player × Action}
    (moved : history.getLast? = some entry) : last.turn = entry.1.opponent := by
  rw [List.getLast?_eq_getElem?] at moved
  have within := (List.getElem?_eq_some_iff.mp moved).1
  rw [tally.mover_eq _ entry moved, ← Player.after_succ, tally.turn_eq]
  congr
  omega

section Games

variable {Memory : Type} {seats : Player → Option (Seat Memory Position Action)}
  {invariant : Record Position Player Action → Memory → Prop}

/-- Players who play legally bring every game of Nim to its end, whatever they remember. It takes at
most as many turns as there are objects; the players alternate, every pile is taken, and who wins is
told by the last turn. -/
theorem playGame_ends_nim {start : Position} {effort : Effort Memory}
    (upholds : Upholds game seats invariant) (holds : invariant ⟨start, #[]⟩ effort.memory) :
    ∃ winner actions,
      (playGame game seats none start effort).result = .ok ⟨some winner, actions, true⟩ ∧
        actions.length ≤ start.total ∧
        (∀ (index : Nat) (entry : Player × Action), actions[index]? = some entry →
          entry.1 = start.turn.after index) ∧
        (∀ pile size : Nat, start.piles[pile]? = some size → takenFrom pile actions = size) ∧
        ∀ last, actions.getLast? = some last →
          winner = if start.misere then last.1.opponent else last.1 := by
  rcases playGame_ends upholds rfl holds with ⟨winner, last, after, played, status, -⟩
  rcases playGame_underway game seats none start effort (.inr (by simp [game])) with
    ⟨before, underway, -⟩
  rw [played] at underway ⊢
  have tally : Tally start last.actions.toList last.position := tally_of_line underway.line
  have ended := Position.isOver_of_status status
  have winner_eq : winner = some (if last.position.misere then last.position.turn
      else last.position.turn.opponent) := by
    have status_eq := Position.status_of_over ended
    exact Status.over.inj (status.symm.trans status_eq)
  refine ⟨_, last.actions.toList, by rw [winner_eq], ?_, tally.mover_eq, ?_, ?_⟩
  · have le := tally.total_le
    omega
  · exact fun pile size at_start => tally.taken_eq ended at_start
  · intro entry moved
    rw [tally.turn_eq_opponent moved, tally.misere_eq, Player.opponent_opponent]

/-- Misère Nim with a limit, between two players who take the first legal action. -/
theorem playGame_ends_nim_misere :
    let start : Position :=
      ⟨[2, 1], .two, some 1, true, by simp, by rintro _ ⟨⟩; exact Nat.one_pos⟩
    let seats := fun player => some (firstSeat player)
    Upholds game seats (fun _ _ => True) ∧ ∃ winner actions,
      (playGame game seats none start (.start ())).result = .ok ⟨some winner, actions, true⟩ ∧
        actions.length ≤ 3 ∧
        (∀ (index : Nat) (entry : Player × Action), actions[index]? = some entry →
          entry.1 = Player.two.after index) ∧
        (∀ pile size : Nat, [2, 1][pile]? = some size → takenFrom pile actions = size) ∧
        ∀ last, actions.getLast? = some last → winner = last.1.opponent := by
  intro start seats
  have upholds : Upholds game seats fun _ _ => True := by
    apply upholds_of_playsLegally
    exact fun player => ⟨_, rfl, firstSeat_playsLegally player⟩
  exact ⟨upholds, playGame_ends_nim upholds trivial⟩

end Games

end GameSearch.Nim
