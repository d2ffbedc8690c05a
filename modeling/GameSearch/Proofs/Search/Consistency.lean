import GameSearch.Proofs.Search.Worth

/-!
# Evaluations that looking ahead confirms

An evaluation is consistent if the best of the positions that a move leads to is worth what the
position itself is worth. Looking further ahead then changes nothing: the minimax value over any
number of plies is the evaluation. So a search does not depend on its depth, and what it picks at
the root is what the evaluation of the next positions says.

Where these positions have two values only, the first of the best of them is the first of the good
ones, or the first of all if none is good.
-/

namespace GameSearch

variable {Position Player Action : Type}

/-- With two values, a tracker holds the first good action, or else the first one. -/
theorem Tracker.HoldsFirstBest.action_eq {aim : Aim} {value : Position → Int}
    {reached : List (Action × Position)} {tracker : Tracker Action}
    (holds : tracker.HoldsFirstBest aim value reached) (good : Position → Bool)
    (improves_iff : ∀ first ∈ reached, ∀ second ∈ reached,
      aim.Improves (value first.2) (value second.2) ↔
        good first.2 = true ∧ good second.2 = false) :
    tracker.action =
      ((reached.filter (good ·.2)).map Prod.fst).head?.or (reached.map Prod.fst).head? := by
  cases holds with
  | none => rfl
  | @best before after entry _ first unbeaten =>
      have here : entry ∈ before ++ entry :: after := by simp
      have earlier_mem : ∀ other ∈ before, other ∈ before ++ entry :: after :=
        fun _ => List.mem_append_left _
      cases verdict : good entry.2 with
      | true =>
          have earlier : ∀ other ∈ before, ¬good other.2 = true := by
            intro other mem
            have better := (improves_iff entry here other (earlier_mem other mem)).mp
              (first other mem)
            simp [better.2]
          have skipped := List.filter_eq_nil_iff.mpr earlier
          simp [skipped, verdict]
      | false =>
          -- Nothing can be strictly worse than a position that is not good.
          have nothing_before : before = [] := by
            apply List.eq_nil_iff_forall_not_mem.mpr
            intro other mem
            have better := (improves_iff entry here other (earlier_mem other mem)).mp
              (first other mem)
            simp [verdict] at better
          subst nothing_before
          have later : ∀ other ∈ after, ¬good other.2 = true := by
            intro other mem good_other
            apply unbeaten other mem
            apply (improves_iff other (by simp [mem]) entry here).mpr
            exact ⟨good_other, verdict⟩
          have skipped := List.filter_eq_nil_iff.mpr later
          simp [skipped, verdict]

namespace Game

variable [DecidableEq Player] {game : Game Position Player Action} {value : Position → Int}
  {seeker : Player} {position : Position}

/-- Whether the best successors of a position are worth what the position is worth. -/
def Consistent (game : Game Position Player Action) (value : Position → Int) (seeker : Player) :
    Prop :=
  ∀ (position : Position) (mover : Player) (entry : Action × Position),
    game.status position = .turn mover → entry ∈ game.successors position mover →
      (∀ other ∈ game.successors position mover,
        ¬(Aim.ofMover seeker mover).Improves (value other.2) (value entry.2)) →
      value entry.2 = value position

/-- Looking ahead changes nothing. -/
theorem Consistent.worth_eq (consistent : game.Consistent value seeker) (plies : Nat)
    (position : Position) : game.worth value seeker plies position = value position := by
  induction plies generalizing position with
  | zero => rfl
  | succ plies ih =>
      rcases status : game.status position with mover | winner
      · by_cases stuck : game.successors position mover = []
        · exact worth_of_stuck status stuck
        · rcases exists_worth_eq status stuck with ⟨entry, mem, -, worth_eq, unbeaten⟩
          rw [worth_eq, ih]
          apply consistent position mover entry status mem
          intro other other_mem
          have worse := unbeaten other other_mem
          rwa [ih, ih] at worse
      · exact worth_of_over status

/-- At any depth but zero, the exact result is the first of the best successors as they stand. -/
theorem Consistent.solve_holdsFirstBest (consistent : game.Consistent value seeker)
    {mover : Player} (turn : game.status position = .turn mover)
    (movable : game.successors position mover ≠ []) (plies : Nat) :
    (game.solve value seeker (plies + 1) position).HoldsFirstBest (Aim.ofMover seeker mover) value
      (game.successors position mover) := by
  have same : game.worth value seeker plies = value := funext (consistent.worth_eq plies)
  have holds : (game.solve value seeker (plies + 1) position).HoldsFirstBest
      (Aim.ofMover seeker mover) (game.worth value seeker plies)
      (game.successors position mover) := Game.solve_holdsFirstBest turn movable
  rwa [same] at holds

end Game

end GameSearch
