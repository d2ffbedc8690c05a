import GameSearch.Proofs.Search.Exact
import Mathlib.Data.List.Induction

/-!
# Minimax values

`Game.worth` is the minimax value of a position: the seeker picks the greatest of the values of the
positions that can be reached, everybody else the least. It is a function on integers that knows
nothing of searches and of the actions they store, and it is the score of `Game.solve`.

What a search keeps of the positions it has looked at is the first of the best of them:
`Tracker.HoldsFirstBest` says so by what comes before it and what comes after it.
-/

namespace GameSearch

variable {Position Player Action : Type} {aim : Aim}

namespace Aim

/-- Whether a value is strictly better than another one. -/
def Improves (aim : Aim) (value other : Int) : Prop :=
  match aim with
  | .greatest => other < value
  | .least => value < other

instance : ∀ (aim : Aim) (value other : Int), Decidable (aim.Improves value other)
  | .greatest, value, other => inferInstanceAs (Decidable (other < value))
  | .least, value, other => inferInstanceAs (Decidable (value < other))

/-- The better one of two values. -/
def pick : Aim → Int → Int → Int
  | .greatest => max
  | .least => min

theorem prefers_int {value other : Int} :
    aim.prefers (.int value) (.int other) = true ↔ aim.Improves value other := by
  cases aim <;> simp [prefers, Improves]

theorem prefers_baseline (value : Int) : aim.prefers (.int value) aim.baseline = true := by
  rw [prefers_iff (Number.isDefined_int value) isDefined_baseline, rank_baseline]
  exact bot_lt_rank_of_isInteger aim ⟨value, rfl⟩

theorem Improves.pick_eq {value other : Int} (better : aim.Improves value other) :
    aim.pick other value = value := by
  cases aim with
  | greatest => exact max_eq_right (le_of_lt better)
  | least => exact min_eq_right (le_of_lt better)

theorem pick_eq_of_not_improves {value other : Int} (worse : ¬aim.Improves value other) :
    aim.pick other value = other := by
  cases aim with
  | greatest => exact max_eq_left (not_lt.mp worse)
  | least => exact min_eq_left (not_lt.mp worse)

theorem Improves.of_not_improves {value kept other : Int} (better : aim.Improves value kept)
    (worse : ¬aim.Improves other kept) : aim.Improves value other := by
  cases aim with
  | greatest => exact lt_of_le_of_lt (not_lt.mp worse) better
  | least => exact lt_of_lt_of_le better (not_lt.mp worse)

theorem not_improves_self {value : Int} : ¬aim.Improves value value := by
  cases aim <;> exact lt_irrefl value

theorem Improves.asymm {value other : Int} (better : aim.Improves value other) :
    ¬aim.Improves other value := by
  cases aim <;> exact lt_asymm better

theorem eq_of_not_improves {value other : Int} (first : ¬aim.Improves value other)
    (second : ¬aim.Improves other value) : value = other := by
  cases aim with
  | greatest => exact le_antisymm (not_lt.mp first) (not_lt.mp second)
  | least => exact le_antisymm (not_lt.mp second) (not_lt.mp first)

theorem Improves.trans {value kept other : Int} (better : aim.Improves value kept)
    (still : aim.Improves kept other) : aim.Improves value other := by
  cases aim with
  | greatest => exact lt_trans still better
  | least => exact lt_trans better still

end Aim

namespace Tracker

variable {value : Position → Int} {reached : List (Action × Position)} {tracker : Tracker Action}

/-- Whether a tracker holds the first of the best of the positions that were reached: it is strictly
better than all before it, and none after it is better. Of no positions it holds the baseline. -/
inductive HoldsFirstBest (aim : Aim) (value : Position → Int) :
    List (Action × Position) → Tracker Action → Prop where
  | none (truncated : Bool) : HoldsFirstBest aim value [] ⟨aim.baseline, .none, truncated⟩
  | best {before after : List (Action × Position)} {entry : Action × Position} (truncated : Bool)
      (first : ∀ other ∈ before, aim.Improves (value entry.2) (value other.2))
      (unbeaten : ∀ other ∈ after, ¬aim.Improves (value other.2) (value entry.2)) :
      HoldsFirstBest aim value (before ++ entry :: after)
        ⟨.int (value entry.2), some entry.1, truncated⟩

theorem HoldsFirstBest.truncate (holds : tracker.HoldsFirstBest aim value reached) :
    tracker.truncate.HoldsFirstBest aim value reached := by
  cases holds with
  | none => exact .none true
  | best _ first unbeaten => exact .best true first unbeaten

/-- Of several positions one is held, and none of the others is better. -/
theorem HoldsFirstBest.exists_mem (holds : tracker.HoldsFirstBest aim value reached)
    (nonempty : reached ≠ []) :
    ∃ entry ∈ reached, tracker.score = .int (value entry.2) ∧ tracker.action = some entry.1 ∧
      ∀ other ∈ reached, ¬aim.Improves (value other.2) (value entry.2) := by
  cases holds with
  | none => exact absurd rfl nonempty
  | @best before after entry truncated first unbeaten =>
      refine ⟨entry, List.mem_append_right before List.mem_cons_self, rfl, rfl, ?_⟩
      simp only [List.mem_append, List.mem_cons]
      rintro other (earlier | rfl | later)
      · exact (first other earlier).asymm
      · exact Aim.not_improves_self
      · exact unbeaten other later

/-- The next position becomes the best if it is strictly better. -/
theorem HoldsFirstBest.insert (holds : tracker.HoldsFirstBest aim value reached)
    (entry : Action × Position) :
    (tracker.insert aim entry.1 (.int (value entry.2))).HoldsFirstBest aim value
      (reached ++ [entry]) := by
  cases holds with
  | none truncated =>
      rw [Tracker.insert, if_pos (Aim.prefers_baseline _)]
      exact @HoldsFirstBest.best _ _ aim value [] [] entry truncated (by simp) (by simp)
  | @best before after kept truncated first unbeaten =>
      by_cases better : aim.Improves (value entry.2) (value kept.2)
      · rw [Tracker.insert, if_pos (Aim.prefers_int.mpr better)]
        refine @HoldsFirstBest.best _ _ aim value _ [] entry truncated ?_ (by simp)
        simp only [List.mem_append, List.mem_cons]
        rintro other (earlier | rfl | later)
        · exact better.trans (first other earlier)
        · exact better
        · exact better.of_not_improves (unbeaten other later)
      · rw [Tracker.insert, if_neg (mt Aim.prefers_int.mp better), List.append_assoc,
          List.cons_append]
        refine .best truncated first ?_
        simp only [List.mem_append, List.mem_singleton]
        rintro other (mem | rfl)
        · exact unbeaten other mem
        · exact better

theorem bestOf_append (exact : Position → Number) (reached : List (Action × Position))
    (entry : Action × Position) :
    bestOf aim exact (reached ++ [entry]) =
      (bestOf aim exact reached).insert aim entry.1 (exact entry.2) := by
  simp only [bestOf, insertAll, List.map_append, List.foldl_append, List.map_cons, List.map_nil,
    List.foldl_cons, List.foldl_nil]

theorem holdsFirstBest_bestOf (aim : Aim) (value : Position → Int)
    (reached : List (Action × Position)) :
    (bestOf aim (fun next => .int (value next)) reached).HoldsFirstBest aim value reached := by
  induction reached using List.reverseRecOn with
  | nil => exact .none false
  | append_singleton reached entry ih =>
      rw [bestOf_append]
      exact ih.insert entry

theorem score_insert_int {held : Int} (score_eq : tracker.score = .int held) (action : Action)
    (score : Int) :
    (tracker.insert aim action (.int score)).score = .int (aim.pick held score) := by
  rw [Tracker.insert, score_eq]
  by_cases better : aim.Improves score held
  · rw [if_pos (Aim.prefers_int.mpr better), better.pick_eq]
  · rw [if_neg (mt Aim.prefers_int.mp better), Aim.pick_eq_of_not_improves better, score_eq]

theorem score_bestOf (aim : Aim) (value : Position → Int) (first : Action × Position)
    (others : List (Action × Position)) :
    (bestOf aim (fun next => .int (value next)) (first :: others)).score =
      .int ((others.map fun entry => value entry.2).foldl aim.pick (value first.2)) := by
  induction others using List.reverseRecOn with
  | nil =>
      change ((Tracker.start aim.baseline).insert aim first.1 (.int (value first.2))).score = _
      rw [Tracker.insert, Tracker.start, if_pos (Aim.prefers_baseline _)]
      rfl
  | append_singleton others entry ih =>
      rw [← List.cons_append, bestOf_append, score_insert_int ih, List.map_append,
        List.foldl_append]
      rfl

end Tracker

variable [DecidableEq Player] {game : Game Position Player Action} {seeker : Player}
  {value : Position → Int} {position : Position} {plies : Nat}

namespace Game

/-- The minimax value of a position over a number of plies. A position at the last ply, a finished
game and a position where nothing can be played are worth what they are worth as they stand. -/
def worth (game : Game Position Player Action) (value : Position → Int) (seeker : Player) :
    (plies : Nat) → Position → Int
  | 0, position => value position
  | plies + 1, position =>
    match game.status position with
    | .over _ => value position
    | .turn mover =>
      match (game.successors position mover).map fun entry =>
        game.worth value seeker plies entry.2 with
      | [] => value position
      | first :: others => others.foldl (Aim.ofMover seeker mover).pick first

/-- The exact score of a position is its minimax value. -/
theorem score_solve (game : Game Position Player Action) (value : Position → Int) (seeker : Player)
    (plies : Nat) (position : Position) :
    (game.solve value seeker plies position).score =
      .int (game.worth value seeker plies position) := by
  induction plies generalizing position with
  | zero => rfl
  | succ plies ih =>
      rcases status : game.status position with mover | winner
      · have exact_eq : (fun next => (game.solve value seeker plies next).score) =
            fun next => .int (game.worth value seeker plies next) := funext ih
        rw [solve_of_turn status rfl, exact_eq]
        rcases reached : game.successors position mover with _ | ⟨first, others⟩
        · simp only [worth, status, reached, List.map_nil]
          rfl
        · have found := Tracker.holdsInteger_bestOf (Aim.ofMover seeker mover)
            (fun next => ⟨game.worth value seeker plies next, rfl⟩) (List.cons_ne_nil first others)
          simp only [worth, status, reached, List.map_cons]
          rw [if_pos found.hasAction, Tracker.score_bestOf]
      · rw [solve_of_over status, worth, status]
        rfl

/-- Where something can be played, the exact result is the first of the best successors. -/
theorem solve_holdsFirstBest {mover : Player} (turn : game.status position = .turn mover)
    (movable : game.successors position mover ≠ []) :
    (game.solve value seeker (plies + 1) position).HoldsFirstBest (Aim.ofMover seeker mover)
      (game.worth value seeker plies) (game.successors position mover) := by
  rw [solve_of_turn turn rfl]
  simp only [score_solve]
  have found := Tracker.holdsInteger_bestOf (Aim.ofMover seeker mover)
    (fun next => ⟨game.worth value seeker plies next, rfl⟩) movable
  rw [if_pos found.hasAction]
  exact Tracker.holdsFirstBest_bestOf _ _ _

theorem worth_of_over {winner : Option Player} (ended : game.status position = .over winner) :
    game.worth value seeker (plies + 1) position = value position := by
  simp only [worth, ended]

theorem worth_of_stuck {mover : Player} (turn : game.status position = .turn mover)
    (stuck : game.successors position mover = []) :
    game.worth value seeker (plies + 1) position = value position := by
  simp only [worth, turn, stuck, List.map_nil]

/-- Where something can be played, the value is that of the successor that the exact result leads
to, and no successor is better. -/
theorem exists_worth_eq {mover : Player} (turn : game.status position = .turn mover)
    (movable : game.successors position mover ≠ []) :
    ∃ entry ∈ game.successors position mover,
      (game.solve value seeker (plies + 1) position).action = some entry.1 ∧
      game.worth value seeker (plies + 1) position = game.worth value seeker plies entry.2 ∧
      ∀ other ∈ game.successors position mover, ¬(Aim.ofMover seeker mover).Improves
        (game.worth value seeker plies other.2) (game.worth value seeker plies entry.2) := by
  have holds : (game.solve value seeker (plies + 1) position).HoldsFirstBest
      (Aim.ofMover seeker mover) (game.worth value seeker plies)
      (game.successors position mover) := solve_holdsFirstBest turn movable
  rcases holds.exists_mem movable with ⟨entry, mem, score_eq, action_eq, unbeaten⟩
  rw [score_solve, Number.int.injEq] at score_eq
  exact ⟨entry, mem, action_eq, score_eq, unbeaten⟩

end Game

end GameSearch
