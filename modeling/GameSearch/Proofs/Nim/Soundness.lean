import GameSearch.Proofs.Nim.PerfectPlay
import GameSearch.Proofs.Nim.Solving
import GameSearch.Proofs.Search.Soundness

/-!
# No false claims about Nim

The three evaluators of Nim know different amounts of the game, and what they say is right under the
rules they are made for: wins and losses at the end of a game under any rules, the closed form where
there is one, and the nim-sum under normal play. A search with any evaluator that is right in this
sense is right as well, at any depth.
-/

namespace GameSearch.Nim

variable {Memory : Type} {position next : Position} {player side mover : Player}

/-- Whether an evaluator scores the positions under some rules with integers whose sign can be
trusted: a side with a positive score wins under optimal play, a side with a negative one loses. -/
def SignSound (evaluator : Evaluator Memory Position Player) (valid : Memory → Prop)
    (limit : Option Nat) (misere : Bool) : Prop :=
  ∀ position side memory, position.limit = limit → position.misere = misere → valid memory →
    ∃ (score : Int) (after : Memory),
      evaluator.score position side memory = (.ok (.int score), after) ∧ valid after ∧
        (0 < score → position.IsWinFor side) ∧ (score < 0 → position.IsWinFor side.opponent)

namespace Position

theorem isWinFor_opponent_iff_not :
    position.IsWinFor side.opponent ↔ ¬position.IsWinFor side := by
  unfold IsWinFor
  cases position.moverWins <;> cases position.turn <;> cases side <;> decide

/-- What a player hopes for, as the side with an aim in a search for this player. -/
def IsWinAs (player : Player) : Aim → Position → Prop
  | .greatest, position => position.IsWinFor player
  | .least, position => position.IsWinFor player.opponent

theorem isWinAs_ofMover :
    IsWinAs player (Aim.ofMover player mover) position ↔ position.IsWinFor mover := by
  cases player <;> cases mover <;> rfl

theorem isWinAs_opposite :
    IsWinAs player (Aim.ofMover player mover).opposite position ↔
      position.IsWinFor mover.opponent := by
  cases player <;> cases mover <;> rfl

theorem passesWins (player : Player) : game.PassesWins player (IsWinAs player) where
  mover position mover action next turn played wins := by
    rcases status_eq_turn_iff.mp turn with ⟨running, rfl⟩
    rw [isWinAs_ofMover] at wins ⊢
    exact (isWinFor_turn_iff_exists running).mpr ⟨next, leadsTo_of_play played, wins⟩
  others position mover turn _ wins := by
    rcases status_eq_turn_iff.mp turn with ⟨running, rfl⟩
    rw [isWinAs_opposite]
    apply (isWinFor_opponent_iff_forall running).mpr
    rintro next ⟨action, played⟩
    have mem : (action, next) ∈ game.successors position position.turn :=
      Game.mem_successors.mpr (move_eq_ok.mpr played)
    exact isWinAs_opposite.mp (wins (action, next) mem)

/-- No move changes the rules. -/
theorem rules_eq_of_play {action : Action} (played : game.play position mover action = .ok next) :
    next.limit = position.limit ∧ next.misere = position.misere := by
  rcases play_eq_ok.mp (move_eq_ok.mp played) with
    ⟨-, -, pile, size, -, -, -, -, -, -, limit_eq, misere_eq⟩
  exact ⟨limit_eq, misere_eq⟩

theorem isWinFor_of_optimalScore_pos (positive : 0 < position.optimalScore side) :
    position.IsWinFor side := by
  by_contra lost
  simp [optimalScore, lost] at positive

theorem isWinFor_of_optimalScore_neg (negative : position.optimalScore side < 0) :
    position.IsWinFor side.opponent := by
  rw [isWinFor_opponent_iff_not]
  intro won
  simp [optimalScore, won] at negative

end Position

open Position

theorem winLossScore_of_running (running : position.isOver = false) :
    winLossScore position side = 0 := by
  simp only [winLossScore, outcome, status_of_running running, Option.getD_none]

theorem winLossScore_sound (position : Position) (side : Player) :
    (0 < winLossScore position side → position.IsWinFor side) ∧
      (winLossScore position side < 0 → position.IsWinFor side.opponent) := by
  cases running : position.isOver with
  | true =>
      rw [winLossScore_of_over running]
      exact ⟨isWinFor_of_optimalScore_pos, isWinFor_of_optimalScore_neg⟩
  | false => simp [winLossScore_of_running running]

theorem perfectScore_eq_optimalScore (closed : position.hasClosedForm = true) :
    perfectScore position side = .ok (position.optimalScore side) := by
  have same : position.IsWonFor side ↔ position.IsWinFor side := by
    rw [IsWonFor, IsWinFor, verdict_eq_moverWins closed]
  simp only [perfectScore_eq closed, same, optimalScore]

theorem score_perfect (closed : position.hasClosedForm = true) (side : Player) :
    perfect.score game position side = (.ok (.int (position.optimalScore side)), perfect) := by
  have scored : Number.int <$> perfectScore position side =
      .ok (.int (position.optimalScore side)) := by
    rw [perfectScore_eq_optimalScore closed]
    rfl
  exact congrArg (fun result => (result, perfect)) scored

theorem nimSumScore_of_over (ended : position.isOver = true) :
    nimSumScore position side = winLossScore position side * 1000 := by
  simp only [nimSumScore, winLossScore, outcome, status_of_over ended, Option.getD_some]

/-- In normal play a nim-sum other than zero is a win for the player to move. -/
theorem nimSumScore_sound (normal : position.misere = false) (side : Player) :
    (0 < nimSumScore position side → position.IsWinFor side) ∧
      (nimSumScore position side < 0 → position.IsWinFor side.opponent) := by
  cases running : position.isOver with
  | true =>
      have sound := winLossScore_sound position side
      rw [nimSumScore_of_over running]
      exact ⟨fun positive => sound.1 (by omega), fun negative => sound.2 (by omega)⟩
  | false =>
      have closed : position.hasClosedForm = true := by simp [hasClosedForm, normal]
      have wins : position.nimSum ≠ 0 → position.IsWinFor position.turn := by
        intro nonzero
        rw [isWinFor_turn, ← verdict_eq_moverWins closed]
        simp [verdict, normal, nonzero]
      simp only [nimSumScore, outcome, status_of_running running]
      split
      · rename_i acting
        subst acting
        constructor
        · exact fun positive => wins (by omega)
        · exact fun negative => by omega
      · rename_i idle
        have facing : side.opponent = position.turn := (Player.eq_opponent_of_ne idle).symm
        rw [facing]
        constructor
        · exact fun positive => by omega
        · exact fun negative => wins (by omega)

theorem signSound_winLoss (limit : Option Nat) (misere : Bool) :
    SignSound (Gauge.evaluator game) (· = winLoss) limit misere := by
  rintro position side _ - - rfl
  exact ⟨winLossScore position side, winLoss, rfl, rfl, winLossScore_sound position side⟩

theorem signSound_perfect {limit : Option Nat} {misere : Bool}
    (closed : misere = false ∨ limit = none) :
    SignSound (Gauge.evaluator game) (· = perfect) limit misere := by
  rintro position side _ rfl rfl rfl
  have known : position.hasClosedForm = true := by
    rcases closed with normal | unlimited
    · simp [hasClosedForm, normal]
    · simp [hasClosedForm, unlimited]
  exact ⟨position.optimalScore side, perfect, score_perfect known side, rfl,
    isWinFor_of_optimalScore_pos, isWinFor_of_optimalScore_neg⟩

theorem signSound_nimSum (limit : Option Nat) :
    SignSound (Gauge.evaluator game) (· = nimSum) limit false := by
  rintro position side _ - normal rfl
  exact ⟨nimSumScore position side, nimSum, rfl, rfl, nimSumScore_sound normal side⟩

theorem SignSound.atLeaves {evaluator : Evaluator Memory Position Player} {valid : Memory → Prop}
    (sound : SignSound evaluator valid position.limit position.misere) (player : Player)
    (plies : Nat) :
    game.AtLeaves (evaluator.SoundAt valid player (IsWinAs player)) plies position := by
  let inside (leaf : Position) : Prop :=
    leaf.limit = position.limit ∧ leaf.misere = position.misere
  have start : inside position := ⟨rfl, rfl⟩
  refine Game.atLeaves_of_kept ?_ ?_ start
  · rintro leaf mover action next played ⟨limit_eq, misere_eq⟩
    have kept := rules_eq_of_play played
    exact ⟨kept.1.trans limit_eq, kept.2.trans misere_eq⟩
  · rintro leaf ⟨limit_eq, misere_eq⟩ memory fit
    exact sound leaf player memory limit_eq misere_eq fit

/-- No search makes false claims about a game of Nim. The three evaluators can be trusted under the
rules they are made for, and with an evaluator that can be trusted under the rules of a position a
search of any depth can be trusted too: its score is positive only for a player who wins and
negative only for one who loses, and an action found with a positive score for the player to move
leads to a position this player still wins. -/
theorem run_signSound :
    (∀ limit misere, SignSound (Gauge.evaluator game) (· = winLoss) limit misere) ∧
    (∀ limit misere, misere = false ∨ limit = none →
      SignSound (Gauge.evaluator game) (· = perfect) limit misere) ∧
    (∀ limit, SignSound (Gauge.evaluator game) (· = nimSum) limit false) ∧
    ∀ {Memory : Type} (evaluator : Evaluator Memory Position Player) (valid : Memory → Prop)
      (position : Position), SignSound evaluator valid position.limit position.misere →
      ∀ (method : TreeMethod) (deadline : Deadline) (depth : Int) (player : Player)
        (effort : Effort Memory), deadline.NeverPasses → 0 ≤ depth → valid effort.memory →
        (method.run game evaluator deadline depth player position).Returns effort
          fun result _ => ∃ score : Int, result.score = .int score ∧
            (0 < score → position.IsWinFor player) ∧
            (score < 0 → position.IsWinFor player.opponent) ∧
            (0 < score → game.status position = .turn player → ∀ action,
              result.action = some action →
                ∃ next, game.play position player action = .ok next ∧ next.IsWinFor player) := by
  refine ⟨signSound_winLoss, fun _ _ => signSound_perfect, signSound_nimSum, ?_⟩
  intro Memory evaluator valid position sound method deadline depth player effort never limited fit
  have completes := method.run_sound deadline (passesWins player) limited
    (sound.atLeaves player depth.toNat)
  refine (completes effort fit).mono ?_
  rintro result after ⟨-, completed⟩
  have holds := completed.holds (completed.finished never)
  rcases holds.isInteger with ⟨score, score_eq⟩
  have sign := holds.holds
  have move := holds.action player
  rw [score_eq] at sign move
  refine ⟨score, score_eq, fun positive => ?_, fun negative => ?_, ?_⟩
  · exact sign .greatest (Window.vouches_full_greatest.mpr positive)
  · exact sign .least (Window.vouches_full_least.mpr negative)
  · intro positive turn action action_eq
    have own : Aim.ofMover player player = .greatest := if_pos rfl
    rw [own] at move
    exact move action turn action_eq (Window.vouches_full_greatest.mpr positive)

/-- Two plies of alpha-beta search with the nim-sum, with at most two objects a move. -/
theorem run_signSound_nimSum :
    let start : Position :=
      ⟨[1, 2], .one, some 2, false, by simp, by rintro _ ⟨⟩; exact Nat.two_pos⟩
    SignSound (Gauge.evaluator game) (· = nimSum) start.limit start.misere ∧
      Deadline.never.NeverPasses ∧ (0 : Int) ≤ 2 ∧ (Effort.start nimSum).memory = nimSum ∧
      ∃ action next,
        ((TreeMethod.alphaBeta.run game (Gauge.evaluator game) .never 2 .one start).run.run
          (.start nimSum)).1 = .ok ⟨.int 1, some action, false⟩ ∧
        start.IsWinFor .one ∧ game.play start .one action = .ok next ∧ next.IsWinFor .one := by
  intro start
  have sound : SignSound (Gauge.evaluator game) (· = nimSum) start.limit start.misere :=
    signSound_nimSum _
  have never := Deadline.never_neverPasses
  have ran : ((TreeMethod.alphaBeta.run game (Gauge.evaluator game) .never 2 .one
      start).run.run (.start nimSum)).1 = .ok ⟨.int 1, some ⟨1, 1⟩, false⟩ := by
    dsimp only [start]
    rfl
  rcases run_signSound.2.2.2 (Gauge.evaluator game) (· = nimSum) start sound .alphaBeta .never 2
    .one (.start nimSum) never (by decide) rfl with
    ⟨result, after, finished, score, score_eq, won, -, keeps⟩
  rw [finished, Except.ok.injEq] at ran
  subst ran
  rcases Number.int.inj score_eq with rfl
  rcases keeps (by decide) rfl ⟨1, 1⟩ rfl with ⟨next, played, kept⟩
  refine ⟨sound, never, by decide, rfl, ⟨1, 1⟩, next, ?_, won (by decide), played, kept⟩
  exact congrArg Prod.fst finished

end GameSearch.Nim
