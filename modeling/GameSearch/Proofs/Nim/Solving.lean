import GameSearch.Nim.Evaluators
import GameSearch.Proofs.Nim.ClosedForm
import GameSearch.Proofs.Search.Deepening
import GameSearch.Proofs.Search.Pruning
import GameSearch.Proofs.Search.Worth

/-!
# Solving Nim by search

A search that goes as deep as there are objects left sees every game of Nim through to its end,
under any rules. The minimax value of wins and losses is then the outcome under optimal play, also
for misère play with a limit, where there is no closed form to compare with.
-/

namespace GameSearch.Nim

namespace Position

variable {position next : Position} {player : Player} {plies : Nat}

/-- Whether a player wins a position under optimal play. -/
def IsWinFor (position : Position) (player : Player) : Prop :=
  position.moverWins = decide (position.turn = player)

instance (position : Position) (player : Player) : Decidable (position.IsWinFor player) :=
  inferInstanceAs (Decidable (_ = _))

/-- One for a player who wins under optimal play, else minus one. -/
def optimalScore (position : Position) (player : Player) : Int :=
  if position.IsWinFor player then 1 else -1

theorem isWinFor_turn : position.IsWinFor position.turn ↔ position.moverWins = true := by
  simp [IsWinFor]

theorem isWinFor_opponent :
    position.IsWinFor position.turn.opponent ↔ position.moverWins = false := by
  simp [IsWinFor, (Player.opponent_ne position.turn).symm]

theorem LeadsTo.isWinFor_turn_iff (leads : position.LeadsTo next) :
    next.IsWinFor position.turn ↔ next.moverWins = false := by
  rw [← Player.opponent_opponent position.turn, ← leads.turn_eq]
  exact isWinFor_opponent

theorem LeadsTo.isWinFor_opponent_iff (leads : position.LeadsTo next) :
    next.IsWinFor position.turn.opponent ↔ next.moverWins = true := by
  rw [← leads.turn_eq]
  exact isWinFor_turn

theorem isWinFor_turn_iff_exists (running : position.isOver = false) :
    position.IsWinFor position.turn ↔
      ∃ next, position.LeadsTo next ∧ next.IsWinFor position.turn := by
  rw [isWinFor_turn, moverWins_iff running]
  apply exists_congr
  intro next
  apply and_congr_right
  intro leads
  exact leads.isWinFor_turn_iff.symm

theorem isWinFor_opponent_iff_forall (running : position.isOver = false) :
    position.IsWinFor position.turn.opponent ↔
      ∀ next, position.LeadsTo next → next.IsWinFor position.turn.opponent := by
  rw [isWinFor_opponent, ← Bool.not_eq_true, moverWins_iff running]
  push Not
  apply forall_congr'
  intro next
  apply imp_congr_right
  intro leads
  rw [leads.isWinFor_opponent_iff, ne_eq, Bool.not_eq_false]

theorem winLossScore_of_over (ended : position.isOver = true) :
    winLossScore position player = position.optimalScore player := by
  have won_iff : (some (if position.misere then position.turn else position.turn.opponent) =
      some player) ↔ position.IsWinFor player := by
    rw [IsWinFor, moverWins_of_over ended]
    cases position.misere <;> cases position.turn <;> cases player <;> decide
  simp only [winLossScore, outcome, status_of_over ended, won_iff]
  rfl

theorem optimalScore_le_one (position : Position) (player : Player) :
    position.optimalScore player ≤ 1 := by
  unfold optimalScore
  split <;> decide

theorem neg_one_le_optimalScore (position : Position) (player : Player) :
    -1 ≤ position.optimalScore player := by
  unfold optimalScore
  split <;> decide

theorem isWinFor_iff_of_optimalScore_eq
    (kept : next.optimalScore player = position.optimalScore player) :
    next.IsWinFor player ↔ position.IsWinFor player := by
  unfold optimalScore at kept
  split at kept <;> split at kept <;> simp_all

/-- Nothing better can be reached by a player than what optimal play brings. -/
theorem optimalScore_eq_of_greatest (running : position.isOver = false)
    (leads : position.LeadsTo next)
    (greatest : ∀ other, position.LeadsTo other →
      other.optimalScore position.turn ≤ next.optimalScore position.turn) :
    next.optimalScore position.turn = position.optimalScore position.turn := by
  by_cases wins : position.IsWinFor position.turn
  · rcases (isWinFor_turn_iff_exists running).mp wins with ⟨other, other_leads, kept⟩
    have least := greatest other other_leads
    have most := next.optimalScore_le_one position.turn
    have other_eq : other.optimalScore position.turn = 1 := if_pos kept
    have position_eq : position.optimalScore position.turn = 1 := if_pos wins
    omega
  · have lost : ¬next.IsWinFor position.turn := by
      intro kept
      exact wins ((isWinFor_turn_iff_exists running).mpr ⟨next, leads, kept⟩)
    rw [optimalScore, optimalScore, if_neg lost, if_neg wins]

/-- Nothing worse can be done to the opponent than what optimal play brings. -/
theorem optimalScore_eq_of_least (running : position.isOver = false)
    (leads : position.LeadsTo next)
    (least : ∀ other, position.LeadsTo other →
      next.optimalScore position.turn.opponent ≤ other.optimalScore position.turn.opponent) :
    next.optimalScore position.turn.opponent = position.optimalScore position.turn.opponent := by
  by_cases wins : position.IsWinFor position.turn.opponent
  · have kept := (isWinFor_opponent_iff_forall running).mp wins next leads
    rw [optimalScore, optimalScore, if_pos kept, if_pos wins]
  · have position_eq : position.optimalScore position.turn.opponent = -1 := if_neg wins
    rw [isWinFor_opponent_iff_forall running] at wins
    push Not at wins
    rcases wins with ⟨other, other_leads, lost⟩
    -- The opponent can be beaten, and no score is lower than that of a loss.
    have most := least other other_leads
    have least := next.neg_one_le_optimalScore position.turn.opponent
    have other_eq : other.optimalScore position.turn.opponent = -1 := if_neg lost
    omega

/-- The best move of either player keeps the outcome of the game. -/
theorem optimalScore_eq_of_unbeaten (running : position.isOver = false)
    (leads : position.LeadsTo next)
    (unbeaten : ∀ other, position.LeadsTo other → ¬(Aim.ofMover player position.turn).Improves
      (other.optimalScore player) (next.optimalScore player)) :
    next.optimalScore player = position.optimalScore player := by
  by_cases acting : position.turn = player
  · subst acting
    simp only [Aim.ofMover, if_true, Aim.Improves, not_lt] at unbeaten
    exact optimalScore_eq_of_greatest running leads unbeaten
  · have facing : player = position.turn.opponent := Player.eq_opponent_of_ne (Ne.symm acting)
    subst facing
    simp only [Aim.ofMover, if_neg (Player.opponent_ne position.turn).symm, Aim.Improves,
      not_lt] at unbeaten
    exact optimalScore_eq_of_least running leads unbeaten

theorem successors_ne_nil (running : position.isOver = false) :
    game.successors position position.turn ≠ [] := by
  rw [ne_eq, Game.successors_eq_nil]
  exact legal_ne_nil running

/-- Where the positions that can be reached are worth what optimal play brings, a search finds a
move that keeps the outcome. -/
theorem exists_solve_eq (running : position.isOver = false)
    (worth_eq : ∀ next, position.LeadsTo next →
      game.worth (winLossScore · player) player plies next = next.optimalScore player) :
    ∃ action next, game.play position position.turn action = .ok next ∧
      next.optimalScore player = position.optimalScore player ∧
      game.solve (winLossScore · player) player (plies + 1) position =
        ⟨.int (position.optimalScore player), some action, false⟩ := by
  have movable := successors_ne_nil running
  have holds : (game.solve (winLossScore · player) player (plies + 1) position).HoldsFirstBest
      (Aim.ofMover player position.turn) (game.worth (winLossScore · player) player plies)
      (game.successors position position.turn) :=
    Game.solve_holdsFirstBest (status_of_running running) movable
  rcases holds.exists_mem movable with ⟨entry, mem, score_eq, action_eq, unbeaten⟩
  have played := Game.mem_successors.mp mem
  have leads := leadsTo_of_play played
  have kept : entry.2.optimalScore player = position.optimalScore player := by
    apply optimalScore_eq_of_unbeaten running leads
    rintro other ⟨action, other_played⟩
    have other_mem : (action, other) ∈ game.successors position position.turn :=
      Game.mem_successors.mpr (move_eq_ok.mpr other_played)
    rw [← worth_eq other ⟨action, other_played⟩, ← worth_eq entry.2 leads]
    exact unbeaten (action, other) other_mem
  refine ⟨entry.1, entry.2, played, kept, ?_⟩
  rw [worth_eq entry.2 leads, kept] at score_eq
  have complete : (game.solve (winLossScore · player) player (plies + 1) position).truncated =
      false := Game.truncated_solve
  rcases solve_eq : game.solve (winLossScore · player) player (plies + 1) position with
    ⟨score, stored, truncated⟩
  simp only [solve_eq] at score_eq action_eq complete
  rw [score_eq, action_eq, complete]

theorem isOver_of_total_eq_zero (empty : position.total = 0) : position.isOver = true := by
  by_contra running
  rcases exists_leadsTo_of_running (Bool.eq_false_iff.mpr running) with ⟨next, leads⟩
  have less := leads.total_lt
  omega

/-- Over as many plies as there are objects, the minimax value of wins and losses is the outcome
under optimal play. -/
theorem worth_eq_optimalScore (enough : position.total ≤ plies) :
    game.worth (winLossScore · player) player plies position = position.optimalScore player := by
  induction plies generalizing position with
  | zero => exact winLossScore_of_over (isOver_of_total_eq_zero (by omega))
  | succ plies ih =>
      cases running : position.isOver with
      | true =>
          have ended : game.status position = .over _ := status_of_over running
          simp only [Game.worth, ended]
          exact winLossScore_of_over running
      | false =>
          have worth_eq : ∀ next, position.LeadsTo next →
              game.worth (winLossScore · player) player plies next = next.optimalScore player := by
            intro next leads
            have less := leads.total_lt
            exact ih (by omega)
          rcases exists_solve_eq running worth_eq with ⟨action, next, -, -, solve_eq⟩
          have score_eq := Game.score_solve game (winLossScore · player) player (plies + 1) position
          rw [solve_eq] at score_eq
          exact (Number.int.inj score_eq).symm

theorem winningAmong_eq (closed : position.hasClosedForm = true) (moves : Moves Action)
    (playable : ∀ action ∈ moves.toList,
      ∃ next, game.play position position.turn action = .ok next) :
    position.winningAmong moves =
      .ok (((game.outcomes position position.turn moves.toList).filter
        fun entry => !entry.2.moverWins).map Prod.fst) := by
  induction moves with
  | done => rfl
  | next first rest ih =>
      simp only [Moves.toList_next, List.forall_mem_cons] at playable
      rcases playable.1 with ⟨next, played⟩
      have next_closed := (leadsTo_of_play played).hasClosedForm_eq.trans closed
      have verdict : next.isWinning = .ok next.moverWins := by
        rw [isWinning_eq_verdict next_closed, verdict_eq_moverWins next_closed]
      simp only [winningAmong, played, bind, Except.bind, verdict, ih () playable.2,
        Moves.toList_next, Game.outcomes_cons played]
      cases wins : next.moverWins with
      | true =>
          simp [wins]
          rfl
      | false =>
          simp [wins]
          rfl

/-- The winning actions are those that leave the opponent in a lost position. -/
theorem winningActions_eq (closed : position.hasClosedForm = true) :
    position.winningActions =
      .ok (((game.successors position position.turn).filter
        fun entry => !entry.2.moverWins).map Prod.fst) :=
  winningAmong_eq closed _ fun _ legal => (game.play_isOk _ _ _).mpr legal

/-- A move that keeps a won position won is a winning action. -/
theorem exists_winningActions {action : Action}
    (played : game.play position position.turn action = .ok next)
    (won : position.isWinning = .ok true)
    (kept : next.IsWinFor position.turn ↔ position.IsWinFor position.turn) :
    ∃ winning, position.winningActions = .ok winning ∧ action ∈ winning := by
  have closed : position.hasClosedForm = true := by
    by_contra unknown
    rw [Bool.not_eq_true] at unknown
    have misere : position.misere = true := by
      cases misere : position.misere <;> simp_all [hasClosedForm]
    simp [isWinning, misere, unknown] at won
  have wins : position.moverWins = true := by
    rw [isWinning_eq_verdict closed, verdict_eq_moverWins closed] at won
    exact Except.ok.inj won
  have loses : next.moverWins = false := by
    rw [← (leadsTo_of_play played).isWinFor_turn_iff, kept, isWinFor_turn]
    exact wins
  refine ⟨_, winningActions_eq closed, List.mem_map.mpr ⟨(action, next), ?_, rfl⟩⟩
  rw [List.mem_filter]
  exact ⟨Game.mem_successors.mpr played, by simp [loses]⟩

end Position

open Position

variable {position : Position}

theorem computes_winLoss (player : Player) (position : Position) :
    (Gauge.evaluator game).Computes (· = winLoss) player (winLossScore · player) position := by
  rintro _ rfl
  exact ⟨_, rfl, rfl⟩

theorem total_le_plies {depth : Int} (deep : depth < 0 ∨ position.total ≤ depth) :
    position.total ≤ game.plies depth position := by
  unfold Game.plies
  split
  · omega
  · exact le_rfl

/-- A search that is deep enough solves every variant of Nim. Its score says who wins under optimal
play, and the action it finds for the player to move is legal and keeps the outcome; where the
closed form knows the winning actions, it is one of them. -/
theorem run_solves (method : TreeMethod) {deadline : Deadline} (never : deadline.NeverPasses)
    {depth : Int} (deep : depth < 0 ∨ position.total ≤ depth) (player : Player)
    {effort : Effort (Gauge Position Player)} (fit : effort.memory = winLoss) :
    (method.run game (Gauge.evaluator game) deadline depth player position).Returns effort
      fun result _ =>
        result.score = .int (if position.IsWinFor player then 1 else -1) ∧
        (game.status position = .turn player →
          ∃ action ∈ game.legal position player, ∃ next, result.action = some action ∧
            game.play position player action = .ok next ∧
            (next.IsWinFor player ↔ position.IsWinFor player) ∧
            (position.isWinning = .ok true →
              ∃ winning, position.winningActions = .ok winning ∧ action ∈ winning)) := by
  have enough := total_le_plies deep
  have finite : depth < 0 → game.EndsWithin (game.plies depth position) position := by
    intro unlimited
    apply Game.endsWithin_of_height
    rw [Game.plies, if_neg (not_le.mpr unlimited)]
    rfl
  refine (method.run_completes deadline (computes_winLoss player) finite effort fit).mono ?_
  rintro result after ⟨-, completed⟩
  rcases completed.holds (completed.finished never) with rfl
  constructor
  · rw [Game.score_solve, worth_eq_optimalScore enough]
    rfl
  · intro turn
    rcases status_eq_turn_iff.mp turn with ⟨running, rfl⟩
    rcases plies_eq : game.plies depth position with _ | plies
    · have empty : position.total = 0 := by omega
      rw [isOver_of_total_eq_zero empty] at running
      cases running
    · have worth_eq : ∀ next, position.LeadsTo next →
          game.worth (winLossScore · position.turn) position.turn plies next =
            next.optimalScore position.turn := by
        intro next leads
        have less := leads.total_lt
        exact worth_eq_optimalScore (by omega)
      rcases exists_solve_eq running worth_eq with ⟨action, next, played, same, solve_eq⟩
      have kept := isWinFor_iff_of_optimalScore_eq same
      refine ⟨action, (game.play_isOk _ _ _).mp ⟨next, played⟩, next, ?_, played, kept, ?_⟩
      · rw [solve_eq]
      · exact fun won => exists_winningActions played won kept

/-- Alpha-beta search of any depth, in misère Nim with at most two objects a move. -/
theorem run_solves_misere :
    let start : Position :=
      ⟨[2, 1], .one, some 2, true, by simp, by rintro _ ⟨⟩; exact Nat.two_pos⟩
    Deadline.never.NeverPasses ∧ ((-1 : Int) < 0 ∨ (start.total : Int) ≤ -1) ∧
      (Effort.start winLoss).memory = winLoss ∧
      (TreeMethod.alphaBeta.run game (Gauge.evaluator game) .never (-1) .one start).Returns
        (.start winLoss) fun result _ =>
          result.score = .int (if start.IsWinFor .one then 1 else -1) ∧
          (game.status start = .turn .one →
            ∃ action ∈ game.legal start .one, ∃ next, result.action = some action ∧
              game.play start .one action = .ok next ∧
              (next.IsWinFor .one ↔ start.IsWinFor .one) ∧
              (start.isWinning = .ok true →
                ∃ winning, start.winningActions = .ok winning ∧ action ∈ winning)) :=
  ⟨Deadline.never_neverPasses, .inl (by decide), rfl,
    run_solves .alphaBeta Deadline.never_neverPasses (.inl (by decide)) .one rfl⟩

theorem decisive_winLossScore (player : Player) : game.Decisive (winLossScore · player) where
  neg_one_le position := by
    unfold winLossScore outcome
    split <;> simp
    split <;> decide
  le_one position := by
    unfold winLossScore outcome
    split <;> simp
    split <;> decide
  ended position decided := by
    rcases status : position.status with mover | winner
    · simp [winLossScore, outcome, status] at decided
    · exact ⟨winner, status⟩

theorem endsWithin_total (position : Position) : game.EndsWithin position.total position :=
  Game.endsWithin_of_height rfl

theorem run_result_eq (method : TreeMethod) {deadline : Deadline} (never : deadline.NeverPasses)
    (depth : Int) (player : Player) (position : Position) {effort : Effort (Gauge Position Player)}
    (fit : effort.memory = winLoss) :
    ((method.run game (Gauge.evaluator game) deadline depth player position).run.run effort).1 =
      .ok (game.solve (winLossScore · player) player (game.plies depth position) position) := by
  have finite : depth < 0 → game.EndsWithin (game.plies depth position) position := by
    intro unlimited
    rw [Game.plies, if_neg (not_le.mpr unlimited)]
    exact endsWithin_total position
  have completes := method.run_completes deadline (computes_winLoss player) finite effort fit
  apply (completes.mono _).result_eq
  intro result after completed
  exact completed.2.holds (completed.2.finished never)

/-- Under any rules, what a search finds decided no deeper search overturns. From the depth that
covers the game on, and without limit, neither the score nor the action changes. -/
theorem run_stable (position : Position) (player : Player) :
    ∃ (score : Int → Int) (action : Int → Option Action),
      (∀ (method : TreeMethod) (deadline : Deadline) (depth : Int)
        (effort : Effort (Gauge Position Player)),
        deadline.NeverPasses → effort.memory = winLoss →
          ((method.run game (Gauge.evaluator game) deadline depth player position).run.run
            effort).1 = .ok ⟨.int (score depth), action depth, false⟩) ∧
      (∀ depth deeper, 0 ≤ depth → depth ≤ deeper → score depth ≠ 0 →
        score deeper = score depth) ∧
      ∀ depth : Int, depth < 0 ∨ position.total ≤ depth →
        score depth = score position.total ∧ action depth = action position.total := by
  let best (depth : Int) : Tracker Action :=
    game.solve (winLossScore · player) player (game.plies depth position) position
  refine ⟨fun depth => game.worth (winLossScore · player) player (game.plies depth position)
    position, fun depth => (best depth).action, ?_, ?_, ?_⟩
  · intro method deadline depth effort never fit
    rw [run_result_eq method never depth player position fit, Game.solve_eq_worth]
  · intro depth deeper limited le decided
    apply (decisive_winLossScore player).worth_eq_of_le decided
    rw [Game.plies, Game.plies, if_pos limited, if_pos (limited.trans le)]
    exact Int.toNat_le_toNat le
  · intro depth deep
    have same : best depth = best position.total := by
      have covered : game.plies position.total position = position.total := by
        rw [Game.plies, if_pos (Int.natCast_nonneg _), Int.toNat_natCast]
      simp only [best, covered]
      exact (endsWithin_total position).solve_eq (total_le_plies deep)
    have same_score := congrArg Tracker.score same
    simp only [best, Game.score_solve, Number.int.injEq] at same_score
    exact ⟨same_score, congrArg Tracker.action same⟩

/-- In misère Nim with at most two objects a move, a game of three objects is won for good after
two plies. -/
theorem run_stable_misere :
    let start : Position :=
      ⟨[2, 1], .one, some 2, true, by simp, by rintro _ ⟨⟩; exact Nat.two_pos⟩
    Deadline.never.NeverPasses ∧ (Effort.start winLoss).memory = winLoss ∧ (0 : Int) ≤ 2 ∧
      ∀ (method : TreeMethod) (deeper : Int), 2 ≤ deeper → ∃ action,
        ((method.run game (Gauge.evaluator game) .never deeper .one start).run.run
          (.start winLoss)).1 = .ok ⟨.int 1, action, false⟩ := by
  intro start
  rcases run_stable start .one with ⟨score, action, ran, stable, -⟩
  have never := Deadline.never_neverPasses
  have found := ran .minimax .never 2 (.start winLoss) never rfl
  have won : score 2 = 1 := by
    have shallow : ((TreeMethod.minimax.run game (Gauge.evaluator game) .never 2 .one
        start).run.run (.start winLoss)).1 = .ok ⟨.int 1, some ⟨0, 2⟩, false⟩ := by
      rfl
    rw [shallow] at found
    exact (Number.int.inj (congrArg Tracker.score (Except.ok.inj found))).symm
  refine ⟨never, rfl, by decide, ?_⟩
  intro method deeper le
  refine ⟨action deeper, ?_⟩
  rw [ran method .never deeper (.start winLoss) never rfl,
    stable 2 deeper (by decide) le (by rw [won]; decide), won]

end GameSearch.Nim
