import GameSearch.Proofs.Nim.Soundness
import GameSearch.Proofs.Search.Consistency
import GameSearch.Proofs.Search.Greedy

/-!
# The closed form as an evaluator

The score of the closed form is the outcome under optimal play, which the best move of either player
keeps. So it is consistent with looking ahead, and a search with it finds at every depth what the
closed form says about the position at once, whichever side it searches for.

The move that such a search picks is the first of the winning actions, or the first legal action if
there is none: a successor is either lost for the player who has to move there or won, both for the
mover, who wants it lost, and for the opponent's search, which expects the mover to want that.
-/

namespace GameSearch.Nim

namespace Position

variable {position : Position} {player : Player}

theorem head?_successors (position : Position) (player : Player) :
    ((game.successors position player).map Prod.fst).head? = game.firstLegal position player := by
  rw [Game.successors, Game.map_fst_outcomes fun _ => Game.play_of_mem_legal, Moves.head?_toList]
  rfl

/-- Optimal play is consistent with looking ahead, for either side. -/
theorem consistent_optimalScore (player : Player) :
    game.Consistent (·.optimalScore player) player := by
  intro position mover entry turn mem unbeaten
  rcases status_eq_turn_iff.mp turn with ⟨running, rfl⟩
  apply optimalScore_eq_of_unbeaten running (leadsTo_of_play (Game.mem_successors.mp mem))
  rintro other ⟨action, played⟩
  exact unbeaten (action, other) (Game.mem_successors.mpr (move_eq_ok.mpr played))

/-- Whoever is searched for, a successor is better than another one for the mover if the next to
move loses the one and wins the other. -/
theorem improves_optimalScore_iff {first second : Position} (first_leads : position.LeadsTo first)
    (second_leads : position.LeadsTo second) :
    (Aim.ofMover player position.turn).Improves (first.optimalScore player)
        (second.optimalScore player) ↔
      (!first.moverWins) = true ∧ (!second.moverWins) = false := by
  by_cases acting : player = position.turn
  · subst acting
    simp only [Aim.ofMover, if_true, Aim.Improves, optimalScore, first_leads.isWinFor_turn_iff,
      second_leads.isWinFor_turn_iff]
    cases first.moverWins <;> cases second.moverWins <;> decide
  · have facing : player = position.turn.opponent := Player.eq_opponent_of_ne acting
    subst facing
    simp only [Aim.ofMover, if_neg (Player.opponent_ne position.turn).symm, Aim.Improves,
      optimalScore, first_leads.isWinFor_opponent_iff, second_leads.isWinFor_opponent_iff]
    cases first.moverWins <;> cases second.moverWins <;> decide

/-- The first of the best successors is reached by the first winning action, or by the first legal
action if no action wins. -/
theorem action_eq_of_holdsFirstBest {tracker : Tracker Action} {winning : List Action}
    (closed : position.hasClosedForm = true) (known : position.winningActions = .ok winning)
    (holds : tracker.HoldsFirstBest (Aim.ofMover player position.turn) (·.optimalScore player)
      (game.successors position position.turn)) :
    tracker.action = winning.head?.or (game.firstLegal position position.turn) := by
  rw [winningActions_eq closed] at known
  rcases Except.ok.inj known with rfl
  rw [← head?_successors]
  apply holds.action_eq fun next => !next.moverWins
  intro first first_mem second second_mem
  exact improves_optimalScore_iff (leadsTo_of_play (Game.mem_successors.mp first_mem))
    (leadsTo_of_play (Game.mem_successors.mp second_mem))

end Position

open Position

variable {position : Position} {effort : Effort (Gauge Position Player)}

theorem computes_perfect (closed : position.hasClosedForm = true) (player : Player) :
    (Gauge.evaluator game).Computes (· = perfect) player (·.optimalScore player) position := by
  rintro _ rfl
  exact ⟨perfect, score_perfect closed player, rfl⟩

theorem run_perfect_completes (closed : position.hasClosedForm = true) (method : TreeMethod)
    (deadline : Deadline) (depth : Int) (player : Player) :
    (method.run game (Gauge.evaluator game) deadline depth player position).Completes deadline
      (· = perfect) fun result => result =
        game.solve (·.optimalScore player) player (game.plies depth position) position := by
  have known : ¬(depth < 0 ∧ game.height position = none) := by
    rintro ⟨-, unknown⟩
    cases unknown
  rw [TreeMethod.run, if_neg known]
  apply method.search_completes
  refine Game.atLeaves_of_kept ?_ (fun leaf inside => computes_perfect inside player) closed
  intro leaf mover action next played inside
  have rules_eq := rules_eq_of_play played
  rwa [hasClosedForm, rules_eq.1, rules_eq.2]

theorem plies_ne_zero (running : position.isOver = false) {depth : Int} (deep : depth ≠ 0) :
    game.plies depth position ≠ 0 := by
  intro none
  unfold Game.plies at none
  split at none
  · omega
  · rw [isOver_of_total_eq_zero none] at running
    cases running

/-- At any depth a search scores a position as the evaluator does. -/
theorem run_perfect_score (closed : position.hasClosedForm = true) {deadline : Deadline}
    (never : deadline.NeverPasses) (fit : effort.memory = perfect) (method : TreeMethod)
    (depth : Int) (side : Player) :
    (method.run game (Gauge.evaluator game) deadline depth side position).Returns effort
      fun result _ => result.truncated = false ∧
        ((Gauge.evaluator game).score position side perfect).1 = .ok result.score := by
  refine (run_perfect_completes closed method deadline depth side effort fit).mono ?_
  rintro result after ⟨-, completed⟩
  have untruncated := completed.finished never
  refine ⟨untruncated, ?_⟩
  rw [completed.holds untruncated, Game.score_solve,
    (consistent_optimalScore side).worth_eq _ position]
  exact congrArg Prod.fst (score_perfect closed side)

section Running

variable {winning : List Action} (closed : position.hasClosedForm = true)
  (running : position.isOver = false) (known : position.winningActions = .ok winning)

include closed running known

/-- At any depth but zero a search finds the first winning action, or else the first legal one. -/
theorem run_perfect_action {deadline : Deadline} (never : deadline.NeverPasses)
    (fit : effort.memory = perfect) (method : TreeMethod) {depth : Int} (deep : depth ≠ 0)
    (side : Player) :
    (method.run game (Gauge.evaluator game) deadline depth side position).Returns effort
      fun result _ =>
        result.action = winning.head?.or (game.firstLegal position position.turn) := by
  have turn : game.status position = .turn position.turn := status_of_running running
  refine (run_perfect_completes closed method deadline depth side effort fit).mono ?_
  rintro result after ⟨-, completed⟩
  rcases Nat.exists_eq_succ_of_ne_zero (plies_ne_zero running deep) with ⟨plies, plies_eq⟩
  rw [completed.holds (completed.finished never), plies_eq]
  apply action_eq_of_holdsFirstBest closed known
  exact (consistent_optimalScore side).solve_holdsFirstBest turn (successors_ne_nil running) plies

/-- So does greedy search for the player to move. -/
theorem pickGreedy_perfect (fit : effort.memory = perfect) :
    (pickGreedy game (Gauge.evaluator game) position position.turn).Returns effort
      fun choice _ =>
        some choice = winning.head?.or (game.firstLegal position position.turn) := by
  have computes : ∀ action next, game.play position position.turn action = .ok next →
      (Gauge.evaluator game).Computes (· = perfect) position.turn
        (·.optimalScore position.turn) next := by
    intro action next played
    exact computes_perfect ((leadsTo_of_play played).hasClosedForm_eq.trans closed) _
  refine (pickGreedy_returns computes (legal_ne_nil running) fit).mono ?_
  rintro choice after ⟨-, best⟩
  rw [← best]
  apply action_eq_of_holdsFirstBest closed known
  rw [show Aim.ofMover position.turn position.turn = .greatest from if_pos rfl]
  exact Tracker.holdsFirstBest_bestOf _ _ _

end Running

/-- Where the rules have a closed form, a search with its evaluator scores a position as the
evaluator does, at any depth and for either side. At any depth but zero it picks the first winning
action, or the first legal one if none wins, and so does greedy search for the player to move. -/
theorem run_perfect_agrees (closed : position.hasClosedForm = true) {deadline : Deadline}
    (never : deadline.NeverPasses) (fit : effort.memory = perfect) :
    (∀ (method : TreeMethod) (depth : Int) (side : Player),
      (method.run game (Gauge.evaluator game) deadline depth side position).Returns effort
        fun result _ => result.truncated = false ∧
          ((Gauge.evaluator game).score position side perfect).1 = .ok result.score) ∧
    (position.isOver = false → ∃ winning action,
      position.winningActions = .ok winning ∧
      winning.head?.or (game.firstLegal position position.turn) = some action ∧
      (∀ (method : TreeMethod) (depth : Int) (side : Player), depth ≠ 0 →
        (method.run game (Gauge.evaluator game) deadline depth side position).Returns effort
          fun result _ => result.action = some action) ∧
      (pickGreedy game (Gauge.evaluator game) position position.turn).Returns effort
        fun choice _ => choice = action) := by
  refine ⟨run_perfect_score closed never fit, ?_⟩
  intro running
  have known := winningActions_eq closed
  rcases pickGreedy_perfect closed running known fit with ⟨action, after, picked, first⟩
  refine ⟨_, action, known, first.symm, ?_, action, after, picked, rfl⟩
  intro method depth side deep
  rw [first]
  exact run_perfect_action closed running known never fit method deep side

/-- In misère Nim with a pile of three and two piles of one, only taking two objects wins, and it is
not the first legal action. -/
theorem run_perfect_agrees_misere :
    let start : Position := ⟨[3, 1, 1], .one, none, true, by simp, by simp⟩
    start.hasClosedForm = true ∧ Deadline.never.NeverPasses ∧
      (Effort.start perfect).memory = perfect ∧ start.isOver = false ∧
      start.winningActions = .ok [⟨0, 2⟩] ∧ game.firstLegal start .one = some ⟨0, 1⟩ ∧
      ∀ (method : TreeMethod) (depth : Int) (side : Player), depth ≠ 0 →
        (method.run game (Gauge.evaluator game) .never depth side start).Returns (.start perfect)
          fun result _ => result.action = some ⟨0, 2⟩ := by
  intro start
  have never := Deadline.never_neverPasses
  have fit : (Effort.start perfect).memory = perfect := rfl
  have only : start.winningActions = .ok [⟨0, 2⟩] := by
    dsimp only [start]
    rfl
  rcases (run_perfect_agrees (rfl : start.hasClosedForm = true) never fit).2 rfl with
    ⟨winning, action, known, picked, searched, -⟩
  rw [only, Except.ok.injEq] at known
  subst known
  rcases Option.some.inj picked with rfl
  exact ⟨rfl, never, fit, rfl, only, rfl, searched⟩

end GameSearch.Nim
