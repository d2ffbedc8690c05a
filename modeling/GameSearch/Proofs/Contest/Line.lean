import GameSearch.Game

/-!
# Lines of play

A line of play is a list of actions that can be played one after another, each by the player whose
turn it is. It is a matter of the rules alone, whoever plays and for whatever reasons.
-/

namespace GameSearch

variable {Position Player Action : Type}

namespace Game

variable {game : Game Position Player Action} {start position next last : Position}
  {player : Player} {action : Action} {history : List (Player × Action)}

/-- Plays a history from a position. -/
def replay (game : Game Position Player Action) (start : Position)
    (history : List (Player × Action)) : Except Fault Position :=
  history.foldlM (fun position entry => game.play position entry.1 entry.2) start

/-- A line of play: each action is played by the player whose turn it is. -/
inductive Line (game : Game Position Player Action) (start : Position) :
    List (Player × Action) → Position → Prop where
  | start : Line game start [] start
  | turn {history : List (Player × Action)} {position next : Position} {player : Player}
      {action : Action} (line : Line game start history position)
      (turn : game.status position = .turn player)
      (played : game.play position player action = .ok next) :
      Line game start (history ++ [(player, action)]) next

theorem replay_append (reached : game.replay start history = .ok position) :
    game.replay start (history ++ [(player, action)]) = game.play position player action := by
  simp only [replay] at reached
  simp only [replay, List.foldlM_append, reached, List.foldlM_cons, List.foldlM_nil, bind_pure]
  rfl

theorem Line.replay_eq (line : game.Line start history last) :
    game.replay start history = .ok last := by
  induction line with
  | start => rfl
  | turn _ _ played ih => exact (replay_append ih).trans played

theorem Line.append {later : List (Player × Action)} (line : game.Line start history position)
    (rest : game.Line position later last) : game.Line start (history ++ later) last := by
  induction rest with
  | start => rwa [List.append_nil]
  | turn _ turn played ih =>
      rw [← List.append_assoc]
      exact .turn ih turn played

/-- A bound on the moves to come drops with every action of a line. -/
theorem Line.height_le (line : game.Line start history last) {moves : Nat}
    (known : game.height start = some moves) :
    ∃ fewer, game.height last = some fewer ∧ history.length + fewer ≤ moves := by
  induction line with
  | start => exact ⟨moves, known, by simp⟩
  | turn _ _ played ih =>
      rcases ih with ⟨fewer, fewer_eq, le⟩
      rcases game.height_play _ _ _ _ _ played fewer_eq with ⟨least, least_eq, less⟩
      refine ⟨least, least_eq, ?_⟩
      simp only [List.length_append, List.length_singleton]
      omega

end Game

end GameSearch
