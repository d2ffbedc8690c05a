import GameSearch.Proofs.Agent.Contract
import GameSearch.Proofs.MonteCarlo.Repeat
import GameSearch.Proofs.Search.Pruning

/-!
# Choosing twice with the same playouts

Tree search and greedy search score positions without telling the evaluator that a search starts. With
random playouts, a second choice at the same position therefore goes on with the generator where the
first one has left it, and may come to another action. It comes to the same one if the playouts have
been begun afresh before each choice, or if no playout ever has a choice to make, since a
single action is drawn without the generator.
-/

namespace GameSearch

section

variable {Memory Position Player Action : Type} {game : Game Position Player Action}
  {position : Position} {player : Player} {cap : Option Int} {moves : Nat}

namespace Game

/-- Whether nobody has more than one legal action at any position during the next moves. -/
def Forced (game : Game Position Player Action) : (moves : Nat) → Position → Prop
  | 0, _ => True
  | moves + 1, position => ∀ player, (game.legal position player).toList.length ≤ 1 ∧
      ∀ action next, game.play position player action = .ok next → Forced game moves next

/-- Whether nobody has a choice as long as a playout with a cap may last. -/
def LeavesNoChoice (game : Game Position Player Action) (cap : Option Int)
    (position : Position) : Prop :=
  ∀ moves : Nat, (∀ most, cap = some most → moves ≤ most.toNat) → game.Forced moves position

end Game

namespace Random

variable [DecidableEq Player] [Worded Player] {exhausted : Except Fault Number} {side : Player}

/-- One of at most one outcome is drawn without the generator. -/
theorem Generator.below_of_le_one {sides : Nat} (single : sides ≤ 1) (generator : Generator) :
    generator.below sides = (0, generator) := by
  rw [below, if_pos single]

theorem playout_of_forced (forced : game.Forced moves position) (generator : Generator) :
    (playout game Generator.dice exhausted side moves position generator).2 = generator := by
  induction moves generalizing position with
  | zero =>
      rw [playout]
      split
      · rfl
      · rfl
  | succ moves ih =>
      rcases status : game.status position with player | winner
      · rcases forced player with ⟨single, later⟩
        have drawn : Generator.dice.roll (game.legal position player).toList.toArray.size
            generator = (0, generator) :=
          Generator.below_of_le_one (by simpa using single) generator
        simp only [playout, status, drawn]
        split
        · rfl
        · split
          · rfl
          · rename_i next played
            exact ih (later _ next played)
      · rw [playout_over status]

/-- A playout without choices leaves the generator as it is. -/
theorem boundedPlayout_of_leavesNoChoice (forced : game.LeavesNoChoice cap position)
    (generator : Generator) :
    (boundedPlayout game Generator.dice cap side position generator).2 = generator := by
  cases cap with
  | some most =>
      exact playout_of_forced (forced most.toNat (by rintro _ ⟨⟩; exact le_rfl)) generator
  | none => exact playout_of_forced (forced _ (by simp)) generator

end Random

namespace Gauge

variable [DecidableEq Player] [Worded Player]

/-- In a game that is bound to end, random playouts score integers and keep their seed and cap. -/
theorem scoresIntegers_playout (ends : game.AlwaysEnds) (seed : Nat) (cap : Option Int) :
    (Gauge.evaluator game).ScoresIntegers fun gauge =>
      ∃ generator, gauge = .playout (.fixed seed) cap generator where
  startSearch := by
    rintro _ ⟨generator, rfl⟩
    exact ⟨_, rfl⟩
  score := by
    rintro position side _ ⟨generator, rfl⟩
    rcases Random.exists_boundedPlayout_eq ends Random.Generator.dice cap position generator with
      ⟨winner, after, -, scored⟩
    rcases Random.exists_outcomeScore winner side with ⟨score, score_eq, -⟩
    refine ⟨score, .playout (.fixed seed) cap after, ?_, after, rfl⟩
    simp only [Gauge.evaluator, Gauge.score, scored, score_eq]

/-- Playouts without choices compute a score and stay as they are. -/
theorem exists_computes (ends : game.AlwaysEnds) (seed : Nat) (cap : Option Int)
    (generator : Random.Generator) (player : Player) :
    ∃ value : Position → Int, ∀ leaf, game.LeavesNoChoice cap leaf →
      (Gauge.evaluator game).Computes (· = .playout (.fixed seed) cap generator) player value leaf := by
  have scores (leaf : Position) :=
    (scoresIntegers_playout ends seed cap).score leaf player _ ⟨generator, rfl⟩
  choose value after scored kept using scores
  refine ⟨value, ?_⟩
  rintro leaf forced _ rfl
  refine ⟨after leaf, scored leaf, ?_⟩
  have after_eq : ((Gauge.evaluator game).score leaf player (.playout (.fixed seed) cap generator)).2 =
      .playout (.fixed seed) cap generator := by
    simp only [Gauge.evaluator, Gauge.score, Random.boundedPlayout_of_leavesNoChoice forced]
  rwa [scored leaf] at after_eq

end Gauge

/-- How many plies ahead a strategy scores, if it looks ahead to a depth. -/
def Strategy.plies? : Strategy → Option Nat
  | .singleLevel => some 1
  | .tree _ depth => if 0 ≤ depth then some depth.toNat else none
  | .monteCarlo .. => none

theorem Strategy.endsBy_of_plies? {strategy : Strategy} {plies : Nat}
    (ahead : strategy.plies? = some plies) (deadline : Deadline) : strategy.EndsBy deadline := by
  cases strategy with
  | singleLevel => trivial
  | tree method depth =>
      rw [plies?, Option.ite_none_right_eq_some] at ahead
      exact ahead.1
  | monteCarlo scorer maxIterations => cases ahead

theorem Strategy.not_samples_of_plies? {strategy : Strategy} {plies : Nat}
    (ahead : strategy.plies? = some plies) : ¬strategy.Samples := by
  cases strategy with
  | singleLevel => exact not_false
  | tree method depth => exact not_false
  | monteCarlo scorer maxIterations => cases ahead

variable [DecidableEq Player] [DecidableEq Action] [Worded Action]

/-- A search whose scores leave the memory of its evaluator as it is leaves it as it is. -/
theorem Strategy.memory_pick {strategy : Strategy} {plies : Nat}
    (ahead : strategy.plies? = some plies) {evaluator : Evaluator Memory Position Player}
    {deadline : Deadline} {value : Position → Int} {memory : Memory}
    (movable : (game.legal position player).toList ≠ [])
    (computes : game.AtLeaves (evaluator.Computes (· = memory) player value) plies position) :
    ((strategy.pick game evaluator deadline player position).run.run
      (.start memory)).2.memory = memory := by
  have fit : (Effort.start memory).memory = memory := rfl
  cases strategy with
  | singleLevel =>
      cases ahead
      rcases pickGreedy_returns (computes.2 player) movable fit with ⟨action, after, ran, kept, -⟩
      have scored : ((pickGreedy game evaluator position player).run.run
          (.start memory)).2.memory = memory := by rw [ran, kept]
      rw [pick, map_eq_pure_bind]
      exact SearchM.holds_bind (· = memory) scored fun action => SearchM.keeps_pure (some action)
  | tree method depth =>
      rw [plies?, Option.ite_none_right_eq_some, Option.some.injEq] at ahead
      rcases ahead with ⟨limited, rfl⟩
      have completes : (method.search game evaluator deadline player depth.toNat position).Completes
          deadline (· = memory) _ := method.search_completes computes
      rw [← TreeMethod.run_of_limited limited] at completes
      rcases completes (.start memory) fit with ⟨best, after, ran, kept, -⟩
      have searched : ((method.run game evaluator deadline depth player position).run.run
          (.start memory)).2.memory = memory := by rw [ran, kept]
      have picked : ((method.pick game evaluator deadline depth player position).run.run
          (.start memory)).2.memory = memory :=
        SearchM.holds_bind (· = memory) searched fun _ => method.keeps_report _
      rw [pick, map_eq_pure_bind]
      exact SearchM.holds_bind (· = memory) picked fun action => SearchM.keeps_pure (some action)
  | monteCarlo scorer maxIterations => cases ahead

end

namespace Nim

namespace Position

variable {position : Position} {player : Player} {cap : Option Int}

theorem length_takes (pile first count : Nat) :
    (takes pile first count).toList.length = count := by
  induction count generalizing first with
  | zero => rfl
  | succ count ih => simp [takes, ih]

theorem length_takesFrom_le (first : Nat) (sizes : List Nat) :
    (position.takesFrom first sizes).toList.length ≤ sizes.foldr (· + ·) 0 := by
  induction sizes generalizing first with
  | nil => exact Nat.le_refl _
  | cons size sizes ih =>
      have small := position.most_le size
      have others := ih (first + 1)
      simp only [takesFrom, Moves.toList_append, List.length_append, length_takes,
        List.foldr_cons]
      omega

/-- There are no more legal actions than there are objects. -/
theorem length_legal_le : (game.legal position player).toList.length ≤ position.total := by
  change (position.legal player).toList.length ≤ _
  unfold legal
  split
  · exact length_takesFrom_le 0 position.piles
  · exact Nat.zero_le _

/-- The last object leaves no choice. -/
theorem forced_of_total_le_one (last : position.total ≤ 1) (moves : Nat) :
    game.Forced moves position := by
  induction moves generalizing position with
  | zero => trivial
  | succ moves ih =>
      refine fun player => ⟨length_legal_le.trans last, ?_⟩
      intro action next played
      have less := total_play (move_eq_ok.mp played)
      exact ih (by omega)

/-- A search that sees all moves of a game but the last one leaves no choice to its playouts. -/
theorem atLeaves_leavesNoChoice {plies : Nat} (seen : position.total ≤ plies + 1) :
    game.AtLeaves (game.LeavesNoChoice cap) plies position := by
  induction plies generalizing position with
  | zero => exact fun moves _ => forced_of_total_le_one (by omega) moves
  | succ plies ih =>
      refine ⟨fun stuck moves _ => ?_, ?_⟩
      · cases moves with
        | zero => trivial
        | succ moves =>
            refine fun player => ⟨by rw [stuck player]; exact Nat.zero_le _, ?_⟩
            intro action next played
            have legal := (game.play_isOk position player action).mp ⟨next, played⟩
            rw [Moves.mem_def, stuck player] at legal
            cases legal
      · intro mover action next played
        have less := total_play (move_eq_ok.mp played)
        exact ih (by omega)

end Position

section

variable {strategy : Strategy} {plies : Nat} {position : Position}

/-- Whatever the state of its generator, a look ahead with random playouts picks a legal action. -/
theorem exists_pick (ahead : strategy.plies? = some plies) (running : position.isOver = false)
    {deadline : Deadline} (reports : strategy.Reports deadline) (seed : Nat) (cap : Option Int)
    (generator : Random.Generator) :
    ∃ action after moved,
      (strategy.pick game (Gauge.evaluator game) deadline position.turn position).Yields
        (.start (.playout (.fixed seed) cap generator)) (some action) after ∧
      action ∈ game.legal position position.turn ∧ after.memory = .playout (.fixed seed) cap moved := by
  let begin : Effort (Gauge Position Player) := .start (.playout (.fixed seed) cap generator)
  have fit : ∃ generator, begin.memory = .playout (.fixed seed) cap generator := ⟨generator, rfl⟩
  have picks := strategy.pick_comesTo (Gauge.scoresIntegers_playout alwaysEnds seed cap)
    (Strategy.endsBy_of_plies? ahead deadline) (Position.status_of_running running)
    (Position.legal_ne_nil running) fit
  have looksAhead := Strategy.not_samples_of_plies? ahead
  rcases picks.returns (reports.not_excuses fun samples => absurd samples looksAhead) with
    ⟨_, after, ran, ⟨moved, kept⟩, action, rfl, legal⟩
  exact ⟨action, after, moved, ran, legal, kept⟩

/-- If no score leaves a choice to its playout, a look ahead leaves the generator as it is. -/
theorem memory_pick (ahead : strategy.plies? = some plies) (running : position.isOver = false)
    {cap : Option Int} (forced : game.AtLeaves (game.LeavesNoChoice cap) plies position)
    (deadline : Deadline) (seed : Nat) (generator : Random.Generator) :
    ((strategy.pick game (Gauge.evaluator game) deadline position.turn position).run.run
      (.start (.playout (.fixed seed) cap generator))).2.memory = .playout (.fixed seed) cap generator := by
  rcases Gauge.exists_computes alwaysEnds seed cap generator position.turn with ⟨value, computes⟩
  exact Strategy.memory_pick ahead (Position.legal_ne_nil running) (forced.mono computes)

/-- Two choices in a row, with the same playouts, are both legal actions. They are the same action if
no score leaves a choice to its playout, and with playouts that begin afresh from their seed a
choice is always the same one, whatever they have been used for before. -/
theorem pick_repeats (ahead : strategy.plies? = some plies) (running : position.isOver = false)
    {deadline : Deadline} (reports : strategy.Reports deadline) (seed : Nat) (cap : Option Int)
    (generator : Random.Generator) :
    let gauge : Gauge Position Player := .playout (.fixed seed) cap generator
    let pick := strategy.pick game (Gauge.evaluator game) deadline position.turn position
    (∃ action other first second moved,
      pick.Yields (.start gauge) (some action) first ∧
      pick.Yields (.start first.memory) (some other) second ∧
      action ∈ game.legal position position.turn ∧ other ∈ game.legal position position.turn ∧
      first.memory = .playout (.fixed seed) cap moved ∧
      (game.AtLeaves (game.LeavesNoChoice cap) plies position →
        other = action ∧ second = first)) ∧
    ∃ action after, ∀ history : List (Gauge.Use Position Player),
      pick.Yields (.start (gauge.afterAll game history).restart) (some action) after := by
  intro gauge pick
  constructor
  · rcases exists_pick ahead running reports seed cap generator with
      ⟨action, first, moved, ran, legal, kept⟩
    rcases exists_pick ahead running reports seed cap moved with
      ⟨other, second, later, again, otherLegal, -⟩
    rw [← kept] at again
    refine ⟨action, other, first, second, moved, ran, again, legal, otherLegal, kept, ?_⟩
    intro forced
    have first_run : pick.run.run (.start gauge) = (.ok (some action), first) := ran
    have unmoved : (pick.run.run (.start gauge)).2.memory = gauge :=
      memory_pick ahead running forced deadline seed generator
    rw [first_run] at unmoved
    have memory_eq : first.memory = gauge := unmoved
    rw [memory_eq] at again
    have same : (Except.ok (some action), first) = (Except.ok (some other), second) :=
      ran.symm.trans again
    cases same
    exact ⟨rfl, rfl⟩
  · rcases exists_pick ahead running reports seed cap (.ofSeed seed) with
      ⟨action, after, moved, ran, -, -⟩
    refine ⟨action, after, fun history => ?_⟩
    rw [(Gauge.recovers_playout seed cap generator).restart_afterAll]
    exact ran

end

/-- Two plies of minimax in a game of three moves at most. -/
theorem pick_repeats_minimax :
    let start : Position := ⟨[2, 1], .one, none, false, by simp, by simp⟩
    let strategy : Strategy := .tree .minimax 2
    let gauge : Gauge Position Player := .ofSeeding (.fixed 1) none
    let pick := strategy.pick game (Gauge.evaluator game) .never .one start
    strategy.plies? = some 2 ∧ start.isOver = false ∧ strategy.Reports .never ∧
      game.AtLeaves (game.LeavesNoChoice none) 2 start ∧
      ∃ action first, pick.Yields (.start gauge) (some action) first ∧
        pick.Yields (.start first.memory) (some action) first := by
  intro start strategy gauge pick
  have forced : game.AtLeaves (game.LeavesNoChoice none) 2 start :=
    Position.atLeaves_leavesNoChoice (by decide)
  have ahead : strategy.plies? = some 2 := rfl
  have running : start.isOver = false := rfl
  have reports : strategy.Reports .never := .inl Deadline.never_neverPasses
  rcases pick_repeats ahead running reports 1 none (.ofSeed 1) with
    ⟨⟨action, other, first, second, moved, ran, again, -, -, -, same⟩, -⟩
  rcases same forced with ⟨rfl, rfl⟩
  exact ⟨ahead, running, reports, forced, other, second, ran, again⟩

/-- With a pile of three and the playouts of seed one, a greedy search first takes one object and then
all three. -/
theorem pick_differs :
    ¬∀ (strategy : Strategy) (plies : Nat) (position : Position) (seed : Int) (cap : Option Int)
      (entropy : Random.Entropy) (gauge : Gauge Position Player),
        strategy.plies? = some (plies + 1) → position.isOver = false →
        Gauge.ofSeed (some seed) cap entropy = .ok gauge →
        let pick := strategy.pick game (Gauge.evaluator game) .never position.turn position
        ∀ action other first second, pick.Yields (.start gauge) (some action) first →
          pick.Yields (.start first.memory) (some other) second → other = action := by
  intro claimed
  let start : Position := ⟨[3], .one, none, false, by simp, by simp⟩
  let gauge : Gauge Position Player := .ofSeeding (.fixed 1) none
  let pick := Strategy.singleLevel.pick game (Gauge.evaluator game) .never .one start
  have picked : (pick.run.run (.start gauge)).1.toOption = some (some ⟨0, 1⟩) ∧
      (pick.run.run (.start (pick.run.run (.start gauge)).2.memory)).1.toOption =
        some (some ⟨0, 3⟩) := by
    dsimp only [pick, gauge, start]
    decide +kernel
  have chosen {search : SearchM (Gauge Position Player) (Option Action)}
      {effort : Effort (Gauge Position Player)} {action : Action}
      (answer : (search.run.run effort).1.toOption = some (some action)) :
      search.Yields effort (some action) (search.run.run effort).2 := by
    rcases ran : search.run.run effort with ⟨fault | value, after⟩
    · rw [ran] at answer
      cases answer
    · rw [ran] at answer
      cases answer
      exact ran
  cases claimed .singleLevel 0 start 1 none (fun _ => .ofSeed 0) gauge rfl rfl rfl _ _ _ _
    (chosen picked.1) (chosen picked.2)

end Nim

end GameSearch
