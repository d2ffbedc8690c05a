import GameSearch.Proofs.Search.Worth

/-!
# Deeper searches

A search that knows wins and losses alone, and nothing of a game that is still running, may be cut
off anywhere. What it finds decided stays decided: a deeper search turns undecided positions into
wins or losses, but these change neither a maximum that is a win nor a minimum that is a loss. And
once the depth covers the whole game, not even the action changes.
-/

namespace GameSearch

variable {Position Player Action : Type} [DecidableEq Player] {game : Game Position Player Action}
  {value : Position → Int} {seeker : Player} {position : Position} {plies more : Nat}

namespace Game

/-- Whether a value tells wins from losses at the end of a game and nothing before. -/
structure Decisive (game : Game Position Player Action) (value : Position → Int) : Prop where
  neg_one_le : ∀ position, -1 ≤ value position
  le_one : ∀ position, value position ≤ 1
  ended : ∀ position, value position ≠ 0 → ∃ winner, game.status position = .over winner

/-- What holds of the value of every position holds of every minimax value. -/
theorem worth_of_forall (holds : Int → Prop) (everywhere : ∀ position, holds (value position))
    (seeker : Player) (plies : Nat) (position : Position) :
    holds (game.worth value seeker plies position) := by
  induction plies generalizing position with
  | zero => exact everywhere position
  | succ plies ih =>
      rcases status : game.status position with mover | winner
      · by_cases stuck : game.successors position mover = []
        · rw [worth_of_stuck status stuck]
          exact everywhere position
        · rcases exists_worth_eq status stuck with ⟨entry, -, -, worth_eq, -⟩
          rw [worth_eq]
          exact ih entry.2
      · rw [worth_of_over status]
        exact everywhere position

theorem Decisive.worth_bounds (decisive : game.Decisive value) (seeker : Player) (plies : Nat)
    (position : Position) : -1 ≤ game.worth value seeker plies position ∧
      game.worth value seeker plies position ≤ 1 := by
  apply worth_of_forall (fun worth => -1 ≤ worth ∧ worth ≤ 1)
  exact fun position => ⟨decisive.neg_one_le position, decisive.le_one position⟩

/-- One more ply does not change what is decided. -/
theorem Decisive.worth_succ (decisive : game.Decisive value)
    (decided : game.worth value seeker plies position ≠ 0) :
    game.worth value seeker (plies + 1) position = game.worth value seeker plies position := by
  induction plies generalizing position with
  | zero =>
      rcases decisive.ended position decided with ⟨winner, ended⟩
      exact worth_of_over ended
  | succ plies ih =>
      rcases status : game.status position with mover | winner
      · by_cases stuck : game.successors position mover = []
        · rw [worth_of_stuck status stuck, worth_of_stuck status stuck]
        · have shallow_best := @exists_worth_eq _ _ _ _ game seeker value position plies mover
            status stuck
          have deep_best := @exists_worth_eq _ _ _ _ game seeker value position (plies + 1) mover
            status stuck
          rcases shallow_best with ⟨shallow, shallow_mem, -, shallow_eq, unbeaten⟩
          rcases deep_best with ⟨deep, deep_mem, -, deep_eq, deep_unbeaten⟩
          rw [shallow_eq] at decided ⊢
          rw [deep_eq]
          -- A win for the mover is still there; if all is lost, all of it stays lost.
          have kept := ih decided
          have deep_kept := @ih deep.2
          have shallow_bounds := decisive.worth_bounds seeker plies shallow.2
          have deep_bounds := decisive.worth_bounds seeker (plies + 1) deep.2
          have worse := unbeaten deep deep_mem
          have deep_worse := deep_unbeaten shallow shallow_mem
          cases aim : Aim.ofMover seeker mover <;>
            simp only [aim, Aim.Improves] at worse deep_worse <;>
            omega
      · rw [worth_of_over status, worth_of_over status]

/-- No deeper search changes what is decided. -/
theorem Decisive.worth_eq_of_le (decisive : game.Decisive value)
    (decided : game.worth value seeker plies position ≠ 0) (le : plies ≤ more) :
    game.worth value seeker more position = game.worth value seeker plies position := by
  induction more, le using Nat.le_induction with
  | base => rfl
  | succ more _ ih => rw [decisive.worth_succ (by rwa [ih]), ih]

theorem solve_of_stuck (stuck : ∀ player, (game.legal position player).toList = []) :
    game.solve value seeker plies position = .start (.int (value position)) := by
  cases plies with
  | zero => rfl
  | succ plies =>
      rcases status : game.status position with mover | winner
      · rw [solve_of_turn status rfl, successors_eq_nil.mpr (stuck mover)]
        rfl
      · exact solve_of_over status

/-- Where every line of play ends within the plies of a search, a deeper search finds the same. -/
theorem EndsWithin.solve_eq (ends : game.EndsWithin plies position) (le : plies ≤ more) :
    game.solve value seeker more position = game.solve value seeker plies position := by
  induction plies generalizing position more with
  | zero => rw [solve_of_stuck ends, solve_of_stuck ends]
  | succ plies ih =>
      rcases more with _ | more
      · omega
      · rcases status : game.status position with mover | winner
        · have same : Tracker.bestOf (Aim.ofMover seeker mover)
                (fun next => (game.solve value seeker more next).score)
                (game.successors position mover) =
              Tracker.bestOf (Aim.ofMover seeker mover)
                (fun next => (game.solve value seeker plies next).score)
                (game.successors position mover) := by
            unfold Tracker.bestOf
            congr 1
            apply List.map_congr_left
            intro entry mem
            have next_ends := ends.2 mover entry.1 entry.2 (mem_successors.mp mem)
            have le : plies ≤ more := by omega
            simp only [ih next_ends le]
          rw [solve_of_turn status same.symm, solve_of_turn status rfl]
        · rw [solve_of_over status, solve_of_over status]

/-- The parts of an exact result: the minimax value and an action. -/
theorem solve_eq_worth (game : Game Position Player Action) (value : Position → Int)
    (seeker : Player) (plies : Nat) (position : Position) :
    game.solve value seeker plies position =
      ⟨.int (game.worth value seeker plies position),
        (game.solve value seeker plies position).action, false⟩ := by
  rw [← score_solve]
  rcases exists_solve_eq game value seeker plies position with ⟨best, action, solved⟩
  rw [solved]

end Game

end GameSearch
