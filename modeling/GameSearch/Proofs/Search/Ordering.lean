import GameSearch.Proofs.Search.Pruning
import GameSearch.Proofs.Search.Worth

/-!
# Move ordering

The order in which a game enumerates its moves decides which of several equally good moves a search
finds, and how much of the tree alpha-beta search looks at. It does not decide the score: the
minimax value of a position depends on the set of its successors alone.
-/

namespace GameSearch

variable {Memory Position Player Action : Type}

namespace Game

/-- Whether two games differ at most in the order in which they enumerate the legal actions, and in
how often they enumerate each of them. -/
structure Reorders (game other : Game Position Player Action) : Prop where
  status_eq : ∀ position, other.status position = game.status position
  leads_iff : ∀ position player action next,
    other.play position player action = .ok next ↔ game.play position player action = .ok next

variable {game other : Game Position Player Action} {position : Position} {player mover : Player}
  {action : Action} {plies : Nat}

theorem Reorders.mem_successors_iff (reorders : game.Reorders other)
    {entry : Action × Position} :
    entry ∈ other.successors position player ↔ entry ∈ game.successors position player := by
  rw [mem_successors, mem_successors]
  exact reorders.leads_iff position player entry.1 entry.2

/-- The game with the same positions and moves whose legal actions are enumerated anew. -/
def rearranged (game : Game Position Player Action) (arrange : List Action → List Action)
    (mem_arrange : ∀ actions action, action ∈ arrange actions ↔ action ∈ actions) :
    Game Position Player Action where
  status := game.status
  legal position player := .ofList (arrange (game.legal position player).toList)
  play := game.play
  height := game.height
  legal_idle position player idle := by
    rw [Moves.toList_ofList, List.eq_nil_iff_forall_not_mem]
    intro action
    rw [mem_arrange, game.legal_idle position player idle]
    exact List.not_mem_nil
  play_isOk position player action := by
    rw [game.play_isOk, Moves.mem_def, Moves.mem_def, Moves.toList_ofList, mem_arrange]
  height_play := game.height_play

theorem reorders_rearranged (game : Game Position Player Action)
    (arrange : List Action → List Action)
    (mem_arrange : ∀ actions action, action ∈ arrange actions ↔ action ∈ actions) :
    game.Reorders (game.rearranged arrange mem_arrange) where
  status_eq _ := rfl
  leads_iff _ _ _ _ := Iff.rfl

variable [DecidableEq Player] {seeker : Player} {value : Position → Int}

theorem Reorders.worth_eq (reorders : game.Reorders other) :
    other.worth value seeker plies position = game.worth value seeker plies position := by
  induction plies generalizing position with
  | zero => rfl
  | succ plies ih =>
      rcases status : game.status position with mover | winner
      · have other_status := (reorders.status_eq position).trans status
        have mem_iff {entry : Action × Position} :
            entry ∈ other.successors position mover ↔ entry ∈ game.successors position mover :=
          reorders.mem_successors_iff
        by_cases stuck : game.successors position mover = []
        · have other_stuck : other.successors position mover = [] := by
            rw [List.eq_nil_iff_forall_not_mem] at stuck ⊢
            intro entry mem
            exact stuck entry (mem_iff.mp mem)
          rw [worth_of_stuck status stuck, worth_of_stuck other_status other_stuck]
        · have other_movable : other.successors position mover ≠ [] := by
            rcases List.exists_mem_of_ne_nil _ stuck with ⟨entry, mem⟩
            exact List.ne_nil_of_mem (mem_iff.mpr mem)
          -- Each of the two best successors is a successor in the other game, so neither is better.
          rcases exists_worth_eq status stuck with ⟨entry, mem, -, worth_eq, unbeaten⟩
          rcases exists_worth_eq other_status other_movable with
            ⟨rival, rival_mem, -, rival_worth, rival_unbeaten⟩
          rw [worth_eq, rival_worth, ih]
          apply (Aim.ofMover seeker mover).eq_of_not_improves
          · exact unbeaten rival (mem_iff.mp rival_mem)
          · have unimproved := rival_unbeaten entry (mem_iff.mpr mem)
            rwa [ih, ih] at unimproved
      · have other_status := (reorders.status_eq position).trans status
        rw [worth_of_over status, worth_of_over other_status]

/-- The action of an exact result leads to a position of the same value. -/
theorem exists_worth_eq_of_solve
    (stored : (game.solve value seeker plies position).action = some action) :
    ∃ mover next, game.status position = .turn mover ∧
      game.play position mover action = .ok next ∧
      game.worth value seeker (plies - 1) next = game.worth value seeker plies position := by
  cases plies with
  | zero => cases stored
  | succ plies =>
      rcases status : game.status position with mover | winner
      · by_cases stuck : game.successors position mover = []
        · rw [solve_of_turn status rfl, stuck] at stored
          cases stored
        · rcases exists_worth_eq status stuck with ⟨entry, mem, action_eq, worth_eq, -⟩
          rw [stored, Option.some.injEq] at action_eq
          subst action_eq
          exact ⟨mover, entry.2, rfl, mem_successors.mp mem, worth_eq.symm⟩
      · rw [solve_of_over status] at stored
        cases stored

end Game

variable [DecidableEq Player] {game other : Game Position Player Action}
  {evaluator : Evaluator Memory Position Player} {deadline : Deadline} {valid : Memory → Prop}
  {seeker : Player} {value : Position → Int} {position : Position}

/-- A search that nothing cuts short comes to the minimax value, and its action leads to a position
of that value. -/
theorem TreeMethod.run_returns_worth (method : TreeMethod) {depth : Int} (limited : 0 ≤ depth)
    (computes : ∀ position, evaluator.Computes valid seeker value position)
    (never : deadline.NeverPasses) {effort : Effort Memory} (fit : valid effort.memory) :
    (method.run game evaluator deadline depth seeker position).Returns effort fun result _ =>
      result.truncated = false ∧
      result.score = .int (game.worth value seeker depth.toNat position) ∧
      ∀ action, result.action = some action → ∃ mover next,
        game.status position = .turn mover ∧ game.play position mover action = .ok next ∧
        game.worth value seeker (depth.toNat - 1) next =
          game.worth value seeker depth.toNat position := by
  have plies_eq : game.plies depth position = depth.toNat := by
    rw [Game.plies, if_pos limited]
  have finite : depth < 0 → game.EndsWithin (game.plies depth position) position :=
    fun unlimited => absurd limited (not_le.mpr unlimited)
  have completes := method.run_completes deadline computes finite effort fit
  rw [plies_eq] at completes
  refine completes.mono ?_
  rintro result after ⟨-, completed⟩
  rcases completed.holds (completed.finished never) with rfl
  refine ⟨Game.truncated_solve, Game.score_solve _ _ _ _ _, ?_⟩
  intro action stored
  exact Game.exists_worth_eq_of_solve stored

/-- Move ordering never affects the score. In two games that differ only in how they enumerate their
moves, both methods come to the same score, and every action that one of them finds leads to a
position of this value in both games. -/
theorem TreeMethod.run_reordered (reorders : game.Reorders other) {depth : Int}
    (limited : 0 ≤ depth) (computes : ∀ position, evaluator.Computes valid seeker value position)
    (never : deadline.NeverPasses) :
    ∃ score : Int, ∀ arranged, arranged = game ∨ arranged = other →
      ∀ (method : TreeMethod) (effort : Effort Memory), valid effort.memory →
        (method.run arranged evaluator deadline depth seeker position).Returns effort
          fun result _ => result.truncated = false ∧ result.score = .int score ∧
            ∀ action, result.action = some action → ∃ mover next,
              arranged.status position = .turn mover ∧
              arranged.play position mover action = .ok next ∧
              game.worth value seeker (depth.toNat - 1) next = score ∧
              other.worth value seeker (depth.toNat - 1) next = score := by
  refine ⟨game.worth value seeker depth.toNat position, ?_⟩
  rintro arranged (rfl | rfl) method effort fit
  · refine (method.run_returns_worth limited computes never fit).mono ?_
    rintro result after ⟨complete, score_eq, leads⟩
    refine ⟨complete, score_eq, ?_⟩
    intro action stored
    rcases leads action stored with ⟨mover, next, turn, played, worth_eq⟩
    refine ⟨mover, next, turn, played, worth_eq, ?_⟩
    rw [reorders.worth_eq, worth_eq]
  · refine (method.run_returns_worth limited computes never fit).mono ?_
    simp only [reorders.worth_eq]
    rintro result after ⟨complete, score_eq, leads⟩
    refine ⟨complete, score_eq, ?_⟩
    intro action stored
    rcases leads action stored with ⟨mover, next, turn, played, worth_eq⟩
    exact ⟨mover, next, turn, played, worth_eq, worth_eq⟩

/-- Three plies of Nim, with the moves in reverse order and then once more. -/
theorem TreeMethod.run_reordered_nim :
    let start : Nim.Position := ⟨[2, 1], .one, none, false, by simp, by simp⟩
    let other := Nim.game.rearranged (fun actions => actions.reverse ++ actions) (by simp)
    Nim.game.Reorders other ∧ (0 : Int) ≤ 3 ∧
      (∀ position, (Gauge.evaluator Nim.game).Computes (· = Nim.winLoss) .two
        (Nim.winLossScore · .two) position) ∧
      ∃ score : Int, ∀ arranged, arranged = Nim.game ∨ arranged = other →
        ∀ (method : TreeMethod) (effort : Effort (Gauge Nim.Position Nim.Player)),
          effort.memory = Nim.winLoss →
          (method.run arranged (Gauge.evaluator Nim.game) .never 3 .two start).Returns effort
            fun result _ => result.truncated = false ∧ result.score = .int score ∧
              ∀ action, result.action = some action → ∃ mover next,
                arranged.status start = .turn mover ∧
                arranged.play start mover action = .ok next ∧
                Nim.game.worth (Nim.winLossScore · .two) .two 2 next = score ∧
                other.worth (Nim.winLossScore · .two) .two 2 next = score := by
  intro start other
  have reorders := Nim.game.reorders_rearranged (fun actions => actions.reverse ++ actions)
    (by simp)
  have computes : ∀ position, (Gauge.evaluator Nim.game).Computes (· = Nim.winLoss) .two
      (Nim.winLossScore · .two) position := by
    rintro position _ rfl
    exact ⟨_, rfl, rfl⟩
  exact ⟨reorders, by decide, computes,
    TreeMethod.run_reordered reorders (by decide) computes Deadline.never_neverPasses⟩

end GameSearch
