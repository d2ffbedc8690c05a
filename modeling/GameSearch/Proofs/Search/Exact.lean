import GameSearch.Proofs.Search.Best

/-!
# Exact values

`Game.solve` is minimax search without deadline, memory and faults: the best action of a position
and its score, by recursion on the plies. Every search is compared with it. Minimax itself returns
it whenever it is not cut short.
-/

namespace GameSearch

variable {Position Player Action : Type}

/-- The first of the best of the positions that actions lead to. -/
def Tracker.bestOf (aim : Aim) (exact : Position → Number) (reached : List (Action × Position)) :
    Tracker Action :=
  (Tracker.start aim.baseline).insertAll aim (reached.map fun entry => (entry.1, exact entry.2))

theorem Tracker.holdsInteger_bestOf (aim : Aim) {exact : Position → Number}
    (integers : ∀ position, (exact position).IsInteger) {reached : List (Action × Position)}
    (nonempty : reached ≠ []) : (Tracker.bestOf aim exact reached).HoldsInteger := by
  cases reached with
  | nil => exact absurd rfl nonempty
  | cons entry rest =>
      have fresh : SawIntegers (.start aim.baseline : Tracker Action) aim := .inl rfl
      apply (fresh.insert entry.1 (integers entry.2)).insertAll
      simp only [List.forall_mem_map]
      exact fun entry _ => integers entry.2

/-- The best of several positions is one of them, and none of them is better. -/
theorem Tracker.exists_bestOf_eq (aim : Aim) {exact : Position → Number}
    (integers : ∀ position, (exact position).IsInteger) {reached : List (Action × Position)}
    (nonempty : reached ≠ []) :
    ∃ entry ∈ reached, Tracker.bestOf aim exact reached = ⟨exact entry.2, some entry.1, false⟩ ∧
      ∀ other ∈ reached, aim.rank (exact other.2) ≤ aim.rank (exact entry.2) := by
  have fresh : SawIntegers (.start aim.baseline : Tracker Action) aim := .inl rfl
  have scored : ∀ entry ∈ reached.map fun entry => (entry.1, exact entry.2),
      entry.2.IsInteger := by
    simp only [List.forall_mem_map]
    exact fun entry _ => integers entry.2
  rcases insertAll_eq_or (.start aim.baseline) aim
    (reached.map fun entry => (entry.1, exact entry.2)) with kept | ⟨_, mem, stored⟩
  · rcases holdsInteger_bestOf aim integers nonempty with ⟨value, action, holds⟩
    have empty : (Tracker.bestOf aim exact reached).action = none := congrArg Tracker.action kept
    simp [holds] at empty
  · rcases List.mem_map.mp mem with ⟨entry, entry_mem, rfl⟩
    refine ⟨entry, entry_mem, stored, ?_⟩
    intro other other_mem
    have least := fresh.rank_le_of_mem scored
      (List.mem_map_of_mem (f := fun entry => (entry.1, exact entry.2)) other_mem)
    rwa [stored] at least

theorem Tracker.hasAction_bestOf {aim : Aim} {exact : Position → Number}
    (integers : ∀ position, (exact position).IsInteger) {reached : List (Action × Position)} :
    (Tracker.bestOf aim exact reached).hasAction = false ↔ reached = [] := by
  constructor
  · intro none
    by_contra nonempty
    rcases holdsInteger_bestOf aim integers nonempty with ⟨value, action, holds⟩
    rw [holds] at none
    cases none
  · rintro rfl
    rfl

namespace Game

variable (game : Game Position Player Action)

/-- The actions of a list that can be played, with the positions they lead to. -/
def outcomes (position : Position) (mover : Player) (actions : List Action) :
    List (Action × Position) :=
  actions.filterMap fun action =>
    (game.play position mover action).toOption.map fun next => (action, next)

/-- The legal actions of a player, in order, with the positions they lead to. -/
def successors (position : Position) (mover : Player) : List (Action × Position) :=
  game.outcomes position mover (game.legal position mover).toList

/-- Whether a property holds of every position that a search over a number of plies scores. -/
def AtLeaves (holds : Position → Prop) : (plies : Nat) → Position → Prop
  | 0, position => holds position
  | plies + 1, position =>
    ((∀ player, (game.legal position player).toList = []) → holds position) ∧
      ∀ mover action next, game.play position mover action = .ok next → AtLeaves holds plies next

/-- Whether every line of play ends within a number of plies. -/
def EndsWithin (plies : Nat) (position : Position) : Prop :=
  game.AtLeaves (fun leaf => ∀ player, (game.legal leaf player).toList = []) plies position

/-- The best action of a position and its score: the seeker takes the greatest score and everybody
else the least. -/
def solve [DecidableEq Player] (value : Position → Int) (seeker : Player) :
    (plies : Nat) → Position → Tracker Action
  | 0, position => .start (.int (value position))
  | plies + 1, position =>
    match game.status position with
    | .over _ => .start (.int (value position))
    | .turn mover =>
      let best := Tracker.bestOf (Aim.ofMover seeker mover)
        (fun next => (solve value seeker plies next).score) (game.successors position mover)
      if best.hasAction then best else .start (.int (value position))

variable {game} {position next : Position} {mover : Player} {action : Action}
  {actions : List Action} {holds weaker : Position → Prop} {plies : Nat}

@[simp]
theorem outcomes_nil : game.outcomes position mover [] = [] := rfl

theorem outcomes_cons (played : game.play position mover action = .ok next) :
    game.outcomes position mover (action :: actions) =
      (action, next) :: game.outcomes position mover actions := by
  simp [outcomes, played, Except.toOption]

theorem mem_outcomes {entry : Action × Position} :
    entry ∈ game.outcomes position mover actions ↔
      entry.1 ∈ actions ∧ game.play position mover entry.1 = .ok entry.2 := by
  simp only [outcomes, List.mem_filterMap, Option.map_eq_some_iff]
  constructor
  · rintro ⟨action, mem, next, played, rfl⟩
    cases outcome : game.play position mover action with
    | error fault => simp [outcome, Except.toOption] at played
    | ok reached =>
        have reached_eq : reached = next := by simpa [outcome, Except.toOption] using played
        subst reached_eq
        exact ⟨mem, rfl⟩
  · rintro ⟨mem, played⟩
    exact ⟨entry.1, mem, entry.2, by rw [played]; rfl, rfl⟩

theorem map_fst_outcomes
    (playable : ∀ action ∈ actions, ∃ next, game.play position mover action = .ok next) :
    (game.outcomes position mover actions).map Prod.fst = actions := by
  induction actions with
  | nil => rfl
  | cons action actions ih =>
      simp only [List.forall_mem_cons] at playable
      rcases playable.1 with ⟨next, played⟩
      rw [outcomes_cons played, List.map_cons, ih playable.2]

theorem play_of_mem_legal (legal : action ∈ (game.legal position mover).toList) :
    ∃ next, game.play position mover action = .ok next :=
  (game.play_isOk position mover action).mpr legal

theorem mem_successors {entry : Action × Position} :
    entry ∈ game.successors position mover ↔
      game.play position mover entry.1 = .ok entry.2 := by
  rw [successors, mem_outcomes]
  constructor
  · exact And.right
  · exact fun played => ⟨(game.play_isOk position mover entry.1).mp ⟨entry.2, played⟩, played⟩

@[simp]
theorem successors_eq_nil :
    game.successors position mover = [] ↔ (game.legal position mover).toList = [] := by
  constructor
  · intro none
    rw [List.eq_nil_iff_forall_not_mem]
    intro action legal
    rcases play_of_mem_legal legal with ⟨next, played⟩
    have mem : (action, next) ∈ game.successors position mover := mem_successors.mpr played
    simp [none] at mem
  · intro none
    rw [successors, none, outcomes_nil]

theorem legal_eq_nil_of_over {winner : Option Player} (ended : game.status position = .over winner)
    (player : Player) : (game.legal position player).toList = [] :=
  game.legal_idle position player (by simp [ended])

theorem legal_eq_nil_of_turn (turn : game.status position = .turn mover)
    (stuck : (game.legal position mover).toList = []) (player : Player) :
    (game.legal position player).toList = [] := by
  by_cases same : player = mover
  · rw [same, stuck]
  · exact game.legal_idle position player (by simpa [turn] using Ne.symm same)

theorem AtLeaves.mono (atLeaves : game.AtLeaves holds plies position)
    (weakens : ∀ leaf, holds leaf → weaker leaf) : game.AtLeaves weaker plies position := by
  induction plies generalizing position with
  | zero => exact weakens position atLeaves
  | succ plies ih =>
      exact ⟨fun ended => weakens position (atLeaves.1 ended),
        fun mover action next played => ih (atLeaves.2 mover action next played)⟩

theorem atLeaves_of_forall (everywhere : ∀ leaf, holds leaf) :
    game.AtLeaves holds plies position := by
  induction plies generalizing position with
  | zero => exact everywhere position
  | succ plies ih => exact ⟨fun _ => everywhere position, fun _ _ _ _ => ih⟩

/-- What the positions of a region have in common holds at the leaves of a search that starts in the
region, if no move leaves it. -/
theorem atLeaves_of_kept {inside : Position → Prop}
    (kept : ∀ position mover action next, game.play position mover action = .ok next →
      inside position → inside next)
    (everywhere : ∀ leaf, inside leaf → holds leaf) (start : inside position) :
    game.AtLeaves holds plies position := by
  induction plies generalizing position with
  | zero => exact everywhere position start
  | succ plies ih =>
      refine ⟨fun _ => everywhere position start, ?_⟩
      intro mover action next played
      exact ih (kept position mover action next played start)

theorem endsWithin_of_height (known : game.height position = some plies) :
    game.EndsWithin plies position := by
  suffices ends : ∀ bound, plies ≤ bound → game.EndsWithin bound position from ends plies le_rfl
  intro bound le
  induction bound generalizing position plies with
  | zero =>
      intro player
      rw [List.eq_nil_iff_forall_not_mem]
      intro action legal
      rcases play_of_mem_legal legal with ⟨next, played⟩
      rcases game.height_play _ _ _ _ _ played known with ⟨fewer, -, less⟩
      omega
  | succ bound ih =>
      refine ⟨id, ?_⟩
      intro mover action next played
      rcases game.height_play _ _ _ _ _ played known with ⟨fewer, fewer_eq, less⟩
      exact ih fewer_eq (by omega)

end Game

variable [DecidableEq Player] {game : Game Position Player Action} {seeker : Player}
  {value : Position → Int} {position : Position} {plies : Nat}

namespace Game

theorem solve_of_over {winner : Option Player} (ended : game.status position = .over winner) :
    game.solve value seeker (plies + 1) position = .start (.int (value position)) := by
  simp only [solve, ended]

theorem solve_of_turn {mover : Player} (turn : game.status position = .turn mover)
    {best : Tracker Action}
    (best_eq : best = Tracker.bestOf (Aim.ofMover seeker mover)
      (fun next => (game.solve value seeker plies next).score) (game.successors position mover)) :
    game.solve value seeker (plies + 1) position =
      if best.hasAction then best else .start (.int (value position)) := by
  simp only [solve, turn, best_eq]

/-- Whatever is searched, the score is an integer and nothing is cut short. -/
theorem exists_solve_eq (game : Game Position Player Action) (value : Position → Int)
    (seeker : Player) (plies : Nat) (position : Position) : ∃ (best : Int) (action : Option Action),
    game.solve value seeker plies position = ⟨.int best, action, false⟩ := by
  induction plies generalizing position with
  | zero => exact ⟨_, none, rfl⟩
  | succ plies ih =>
      rcases status : game.status position with mover | winner
      · rw [solve_of_turn status rfl]
        by_cases stuck : game.successors position mover = []
        · rw [stuck]
          exact ⟨_, none, rfl⟩
        · have integers : ∀ next, (game.solve value seeker plies next).score.IsInteger := by
            intro next
            rcases ih next with ⟨best, action, solved⟩
            exact ⟨best, by rw [solved]⟩
          rcases Tracker.holdsInteger_bestOf (Aim.ofMover seeker mover) integers stuck with
            ⟨best, action, holds⟩
          exact ⟨best, some action, by rw [holds]; rfl⟩
      · exact ⟨_, none, solve_of_over status⟩

theorem isInteger_solve : (game.solve value seeker plies position).score.IsInteger := by
  rcases exists_solve_eq game value seeker plies position with ⟨best, action, solved⟩
  exact ⟨best, by rw [solved]⟩

@[simp]
theorem truncated_solve : (game.solve value seeker plies position).truncated = false := by
  rcases exists_solve_eq game value seeker plies position with ⟨best, action, solved⟩
  rw [solved]

theorem legal_eq_nil_of_bestOf {mover : Player} (turn : game.status position = .turn mover)
    {best : Tracker Action}
    (best_eq : best = Tracker.bestOf (Aim.ofMover seeker mover)
      (fun next => (game.solve value seeker plies next).score) (game.successors position mover))
    (none : best.hasAction = false) (player : Player) :
    (game.legal position player).toList = [] := by
  rw [best_eq, Tracker.hasAction_bestOf fun _ => isInteger_solve, successors_eq_nil] at none
  exact legal_eq_nil_of_turn turn none player

end Game

end GameSearch
