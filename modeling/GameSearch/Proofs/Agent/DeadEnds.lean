import GameSearch.Proofs.Agent.Contract
import GameSearch.Proofs.Contest.Replay
import GameSearch.Proofs.Gauge.Opposite
import GameSearch.Game.Graph

/-!
# Dead ends on the way

A dead end is a position of a running game at which the player to move has no legal action. Minimax and
alpha-beta search score it as it stands, and so would Monte Carlo tree search; but a random playout
that runs into a dead end, or starts in one, is a fault.

So an agent that searches with random playouts refuses to choose not only if there is nothing to choose.
It may also do so because of a dead end further on, and this is the only other reason. The dead end lies
on a line of play that is no longer than the iterations and one playout together can make it.
-/

namespace GameSearch

variable {Memory Position Player Action : Type} {game : Game Position Player Action}
  {start position : Position} {player : Player} {history : List (Player × Action)}
  {cap : Option Int} {fault : Fault}

namespace Game

/-- Whether the game is running and the player to move has no legal action. -/
def DeadEnd (game : Game Position Player Action) (position : Position) (player : Player) : Prop :=
  game.status position = .turn player ∧ (game.legal position player).toList = []

/-- The faults of playouts that begin at most `count` moves after a position: a line of play leads to
a dead end before the cap, or nothing bounds the game. -/
def PlayoutFault [Worded Player] (game : Game Position Player Action) (cap : Option Int)
    (count : Nat) (start : Position) (fault : Fault) : Prop :=
  (∃ history deadEnd player, game.Line start history deadEnd ∧ game.DeadEnd deadEnd player ∧
      (∀ most, cap = some most → history.length < count + most.toNat) ∧
      fault = .stuckPlayout (Worded.plain player)) ∨
    (cap = none ∧ game.height start = none ∧ fault = .unbounded)

/-- The faults of a playout further on are faults of a playout that begins so many moves later. -/
theorem PlayoutFault.later [Worded Player] {count : Nat}
    (faulty : game.PlayoutFault cap 0 position fault) (line : game.Line start history position)
    (short : history.length ≤ count) : game.PlayoutFault cap count start fault := by
  rcases faulty with ⟨rest, deadEnd, player, onward, dead, capped, rfl⟩ | ⟨uncapped, unknown, rfl⟩
  · refine .inl ⟨history ++ rest, deadEnd, player, line.append onward, dead, ?_, rfl⟩
    intro most limited
    have fewer := capped most limited
    rw [List.length_append]
    omega
  · refine .inr ⟨uncapped, ?_, rfl⟩
    cases known : game.height start with
    | none => rfl
    | some moves =>
        rcases line.height_le known with ⟨fewer, fewer_eq, -⟩
        rw [unknown] at fewer_eq
        cases fewer_eq

end Game

/-! ### Playouts -/

section Playout

open GameSearch.Random

variable [DecidableEq Player] [Worded Player]

/-- A playout comes to a score, or it runs into a dead end, or it runs out of moves. -/
theorem playout_cases (game : Game Position Player Action) (dice : Dice Memory)
    (exhausted : Except Fault Number) (side : Player) (moves : Nat) (position : Position)
    (memory : Memory) :
    let result := (playout game dice exhausted side moves position memory).1
    (∃ winner, result = .ok (outcomeScore winner side)) ∨
      (∃ history deadEnd player, game.Line position history deadEnd ∧
        game.DeadEnd deadEnd player ∧ history.length < moves ∧
        result = .error (.stuckPlayout (Worded.plain player))) ∨
      ∃ history last, game.Line position history last ∧ history.length = moves ∧
        result = exhausted := by
  induction moves generalizing position memory with
  | zero =>
      rcases status : game.status position with player | winner
      · exact .inr (.inr ⟨[], position, .start, rfl, by simp only [playout, status]⟩)
      · exact .inl ⟨_, by simp only [playout, status]; rfl⟩
  | succ moves ih =>
      rcases status : game.status position with player | winner
      · by_cases stuck : (game.legal position player).toList = []
        · refine .inr (.inl ⟨[], position, player, .start, ⟨status, stuck⟩, Nat.succ_pos _, ?_⟩)
          simp [playout, status, stuck]
        · rcases roll : dice.roll (game.legal position player).toList.length memory with
            ⟨place, rolled⟩
          have inRange : place < (game.legal position player).toList.length := by
            have drawn := dice.roll_lt _ memory (List.length_pos_iff.mpr stuck)
            rwa [roll] at drawn
          have legal : (game.legal position player).toList[place] ∈ game.legal position player :=
            List.getElem_mem inRange
          rcases Game.play_of_mem_legal legal with ⟨next, played⟩
          rw [playout_turn status roll (List.getElem?_eq_getElem inRange) played]
          have first : game.Line position [(player, (game.legal position player).toList[place])]
              next := .turn .start status played
          rcases ih next rolled with scored | ⟨history, deadEnd, stuckPlayer, line, dead, short, eq⟩ |
            ⟨history, last, line, length_eq, eq⟩
          · exact .inl scored
          · refine .inr (.inl ⟨_, deadEnd, stuckPlayer, first.append line, dead, ?_, eq⟩)
            simpa using short
          · exact .inr (.inr ⟨_, last, first.append line, by simpa using length_eq, eq⟩)
      · exact .inl ⟨_, by simp only [playout, status]; rfl⟩

/-- A playout with no cap of its own is given one move more than the height of the game, and its
patience where the height is not known. -/
theorem boundedPlayout_none (game : Game Position Player Action) (dice : Dice Memory) (side : Player)
    (position : Position) (memory : Memory) :
    boundedPlayout game dice none side position memory =
      playout game dice (.error .unbounded) side
        ((game.height position).elim Game.patience (· + 1)) position memory := by
  cases known : game.height position <;> simp only [boundedPlayout, known, Option.elim]

/-- A playout with its own bound comes to a score, or to a dead end, or nothing bounds the game. -/
theorem boundedPlayout_cases (game : Game Position Player Action) (dice : Dice Memory)
    (cap : Option Int) (side : Player) (position : Position) (memory : Memory) :
    let result := (boundedPlayout game dice cap side position memory).1
    (∃ winner, result = .ok (outcomeScore winner side)) ∨
      ∃ fault, result = .error fault ∧ game.PlayoutFault cap 0 position fault := by
  cases cap with
  | some most =>
      rcases playout_cases game dice (.ok 0) side most.toNat position memory with
        scored | ⟨history, deadEnd, player, line, dead, short, eq⟩ | ⟨_, _, _, _, eq⟩
      · exact .inl scored
      · refine .inr ⟨_, eq, .inl ⟨history, deadEnd, player, line, dead, ?_, rfl⟩⟩
        rintro _ ⟨⟩
        omega
      · exact .inl ⟨none, eq⟩
  | none =>
      rw [boundedPlayout_none]
      rcases playout_cases game dice (.error .unbounded) side
          ((game.height position).elim Game.patience (· + 1)) position memory with
        scored | ⟨history, deadEnd, player, line, dead, -, eq⟩ | ⟨history, last, line, length_eq, eq⟩
      · exact .inl scored
      · exact .inr ⟨_, eq, .inl ⟨history, deadEnd, player, line, dead, by simp, rfl⟩⟩
      · refine .inr ⟨_, eq, .inr ⟨rfl, ?_, rfl⟩⟩
        -- A line of play is never as long as the moves that a known bound allows a playout.
        cases known : game.height position with
        | none => rfl
        | some height =>
            rcases line.height_le known with ⟨fewer, -, le⟩
            simp only [known, Option.elim] at length_eq
            omega

end Playout

/-- Whether a gauge scores with random playouts of the given cap. -/
def Gauge.Samples (cap : Option Int) (gauge : Gauge Position Player) : Prop :=
  ∃ seeding generator, gauge = .playout seeding cap generator

/-- A playout that begins at most `count` moves after a position scores it, or has a fault of such a
playout, and leaves such a gauge. -/
theorem evaluate_playout_comesTo [DecidableEq Player] [Worded Player] {count : Nat}
    {effort : Effort (Gauge Position Player)} (line : game.Line start history position)
    (short : history.length ≤ count) (side : Player)
    (fit : effort.memory.Samples cap) :
    (SearchM.evaluate (Gauge.evaluator game) position side).ComesTo effort
      (fun score after => score.fits = true ∧
        after.memory.Samples cap)
      (game.PlayoutFault cap count start) := by
  rcases effort with ⟨checks, gauge, notes⟩
  rcases fit with ⟨seeding, generator, rfl⟩
  let played := Random.boundedPlayout game Random.Generator.dice cap side position generator
  have ran : (SearchM.evaluate (Gauge.evaluator game) position side).run.run
      ⟨checks, .playout seeding cap generator, notes⟩ =
        (played.1, ⟨checks, .playout seeding cap played.2, notes⟩) := rfl
  rw [SearchM.ComesTo, ran]
  rcases boundedPlayout_cases game Random.Generator.dice cap side position generator with
    ⟨winner, scored⟩ | ⟨fault, failed, faulty⟩
  · rw [show played.1 = .ok (Random.outcomeScore winner side) from scored]
    rcases Random.exists_outcomeScore winner side with ⟨score, score_eq, small⟩
    rw [score_eq]
    exact ⟨Number.fits_of_natAbs_le (by decide) small, seeding, played.2, rfl⟩
  · rw [show played.1 = .error fault from failed]
    exact faulty.later line short

/-! ### Monte Carlo tree search -/

section

variable [DecidableEq Player] [DecidableEq Action] [Worded Player] [Worded Action]
  {deadline : Deadline} {scorer : ChildScorer}
  {effort : Effort (Gauge Position Player)}

theorem iterate_playouts {remaining done : Nat} {tree : SearchTree Position Player Action}
    (explores : tree.Explores game start) (small : tree.size ≤ done + 1)
    (fit : effort.memory.Samples cap) :
    (iterate game (Gauge.evaluator game) deadline scorer remaining done tree).ComesTo effort
      (fun result _ => result.1.Explores game start)
      (game.PlayoutFault cap (done + remaining) start) := by
  induction remaining generalizing done tree effort with
  | zero => exact explores
  | succ remaining ih =>
      rcases explores.toLinked.grows game scorer with ⟨next, leaf, reached, grown, grows⟩
      rcases grows.exists_line explores with ⟨⟨history, line, short⟩, next_small⟩
      rw [iterate, SearchM.comesTo_bind]
      refine SearchM.Returns.comesTo (SearchM.returns_expired.mpr ?_)
      split
      · exact explores
      rw [SearchM.comesTo_bind]
      refine SearchM.Returns.comesTo (SearchM.returns_lift.mpr ⟨_, grown, ?_⟩)
      rw [SearchM.comesTo_bind]
      have begun : history.length ≤ done + (remaining + 1) := by omega
      let asked : Effort (Gauge Position Player) := { effort with checks := effort.checks + 1 }
      have asked_fit : asked.memory.Samples cap := fit
      refine (evaluate_playout_comesTo line begun next.player asked_fit).mono ?_
      rintro reward after ⟨fits, kept⟩
      have floating := (grows.explores explores).floating
      rw [SearchM.comesTo_bind, floating.backup_eq grows.leaf_lt fits]
      refine SearchM.Returns.comesTo (SearchM.returns_lift.mpr ⟨(), rfl, ?_⟩)
      have grown_small : (next.credit leaf reward).size ≤ done + 1 + 1 := by
        rw [SearchTree.size_credit]
        omega
      have rest := @ih _ (done + 1) _ (explores.explores_credit grows reward) grown_small kept
      rwa [Nat.add_assoc, Nat.add_comm 1] at rest

/-- A tree search with random playouts picks a legal action or has a fault of a playout. -/
theorem pickMonteCarlo_playouts {limit : Int} (turn : game.status start = .turn player)
    (movable : (game.legal start player).toList ≠ [])
    (fit : effort.memory.Samples cap) :
    (pickMonteCarlo game (Gauge.evaluator game) deadline scorer (some limit) player start).ComesTo
      effort (fun choice _ => ∃ action, choice = some action ∧ action ∈ game.legal start player)
      (game.PlayoutFault cap limit.toNat start) := by
  obtain ⟨first, available⟩ : ∃ first, game.firstLegal start player = some first := by
    rwa [← Option.ne_none_iff_exists', ne_eq, Game.firstLegal_eq_none]
  have explores : (SearchTree.ofRoot start player : SearchTree Position Player Action).Explores
      game start := SearchTree.explores_ofRoot game start player
  rw [pickMonteCarlo, monteCarlo, SearchM.comesTo_bind, SearchM.comesTo_bind]
  refine (SearchM.returns_startSearch.mpr ?_).comesTo
  have started : ((Gauge.evaluator game).startSearch effort.memory).Samples cap := by
    rcases fit with ⟨seeding, generator, fit⟩
    rw [fit]
    exact ⟨_, _, rfl⟩
  have alone : (SearchTree.ofRoot start player : SearchTree Position Player Action).size ≤ 0 + 1 :=
    le_rfl
  have iterates := @iterate_playouts _ _ _ game start cap _ _ _ _ deadline scorer
    { effort with memory := (Gauge.evaluator game).startSearch effort.memory } limit.toNat 0 _
    explores alone started
  rw [Nat.zero_add] at iterates
  simp only [iterationBound, SearchM.comesTo_bind]
  refine iterates.mono ?_
  rintro ⟨tree, iterations⟩ after explores
  refine (SearchM.returns_note.mpr ?_).comesTo
  refine (SearchM.returns_pure.mpr ?_).comesTo
  exact ((explores.answer_returns turn available).mono fun _ _ answered => answered.2).comesTo

namespace Agent

/-- An agent that searches with random playouts refuses a finished game and a player without legal
actions. Else it answers with a legal action, or it has a fault of a playout: there is a dead end on
a line of play that is shorter than the iterations and the cap together, or nothing bounds the
game. The scorer computes from its arguments alone. -/
theorem pickWith_playouts (game : Game Position Player Action) (name : String)
    (scorer : ChildScorer) (limit : Int) (seeding : Random.Seeding) (cap : Option Int)
    (generator : Random.Generator) (deadline : Deadline) (position : Position) :
    let answer := ((pickWith name (.monteCarlo scorer (some limit)) game (Gauge.evaluator game)
      deadline position).run.run (.start (.playout seeding cap generator))).1
    (∀ winner, game.status position = .over winner →
        answer = .error (.gameOver name (Worded.optional winner))) ∧
      (∀ player, game.DeadEnd position player →
        answer = .error (.noLegalAction name (Worded.plain player))) ∧
      ∀ player, game.status position = .turn player → (game.legal position player).toList ≠ [] →
        (∃ action ∈ game.legal position player, answer = .ok action) ∨
          ∃ fault, answer = .error fault ∧ game.PlayoutFault cap limit.toNat position fault := by
  intro answer
  refine ⟨?_, ?_, ?_⟩
  · intro winner ended
    exact congrArg Prod.fst (pickWith_of_over name ended)
  · rintro player ⟨turn, stuck⟩
    exact congrArg Prod.fst (pickWith_of_stuck name turn stuck)
  · intro player turn movable
    let effort : Effort (Gauge Position Player) := .start (.playout seeding cap generator)
    have fit : effort.memory.Samples cap := ⟨seeding, generator, rfl⟩
    have comes : (pickWith name (.monteCarlo scorer (some limit)) game (Gauge.evaluator game)
        deadline position).ComesTo effort (fun action _ => action ∈ game.legal position player)
          (game.PlayoutFault cap limit.toNat position) := by
      apply pickWith_comesTo name turn movable
      refine (pickMonteCarlo_playouts turn movable fit).mono ?_
      rintro _ after ⟨action, rfl, legal⟩
      exact ⟨action, rfl, fun _ => legal⟩
    rcases comes.cases with ⟨action, after, ran, legal⟩ | ⟨fault, after, ran, faulty⟩
    · exact .inl ⟨action, legal, congrArg Prod.fst ran⟩
    · exact .inr ⟨fault, congrArg Prod.fst ran, faulty⟩

/-- There are no dead ends in Nim, so three iterations with uncapped playouts come to an action. -/
theorem pickWith_playouts_nim :
    let start : Nim.Position := ⟨[2, 1], .one, none, false, by simp, by simp⟩
    Nim.game.status start = .turn .one ∧ (Nim.game.legal start .one).toList ≠ [] ∧
      ∃ action ∈ Nim.game.legal start .one,
        ((pickWith "walker" (.monteCarlo (.uct1 (.real 1)) (some 3)) Nim.game
          (Gauge.evaluator Nim.game) .never start).run.run
            (.start (.ofSeeding (.fixed 7) none))).1 = .ok action := by
  intro start
  have turn : Nim.game.status start = .turn .one := rfl
  have movable : (Nim.game.legal start .one).toList ≠ [] := Nim.alwaysEnds.movable start .one turn
  refine ⟨turn, movable, ?_⟩
  rcases (pickWith_playouts Nim.game "walker" (.uct1 (.real 1)) 3 (.fixed 7) none (.ofSeed 7) .never
    start).2.2 .one turn movable with
    answered | ⟨fault, -, ⟨history, deadEnd, player, -, dead, -, -⟩ | ⟨-, unknown, -⟩⟩
  · exact answered
  · exact absurd dead.2 (Nim.alwaysEnds.movable deadEnd player dead.1)
  · cases unknown

/-- One iteration from a position with a single move, which leads to a dead end: the agent refuses to
choose, although the move is legal. -/
theorem pickWith_blocked :
    ¬∀ (position : Graph.Position) (scorer : ChildScorer) (limit : Int) (seed : Nat)
      (word : String),
      ((pickWith "walker" (.monteCarlo scorer (some limit)) Graph.game
        (Gauge.evaluator Graph.game) .never position).run.run
          (.start (.ofSeeding (.fixed seed) none))).1 = .error (.stuckPlayout word) →
        (∃ winner, Graph.game.status position = .over winner) ∨
          ∃ player, Graph.game.DeadEnd position player := by
  intro claimed
  let nodes : Graph.Entries :=
    [("start", ⟨.turn (.text "ONE"), [("go", "blocked")], none⟩),
      ("blocked", ⟨.turn (.text "TWO"), [], none⟩)]
  let start : Graph.Position := ⟨.ofEntries nodes, "start"⟩
  have turn : Graph.game.status start = .turn (.text "ONE") := rfl
  have legal : (Graph.game.legal start (.text "ONE")).toList = ["go"] := rfl
  have stuck_of_word {answer : Except Fault String}
      (worded : (match answer with
        | .error (.stuckPlayout word) => some word
        | _ => none) = some "TWO") : answer = .error (.stuckPlayout "TWO") := by
    split at worded
    · rw [Option.some.inj worded]
    · cases worded
  have failed : ((pickWith "walker" (.monteCarlo (.uct1 (.real 1)) (some 1)) Graph.game
      (Gauge.evaluator Graph.game) .never start).run.run
        (.start (.ofSeeding (.fixed 0) none))).1 = .error (.stuckPlayout "TWO") := by
    apply stuck_of_word
    dsimp only [start, nodes]
    decide +kernel
  rcases claimed start (.uct1 (.real 1)) 1 0 "TWO" failed with
    ⟨winner, ended⟩ | ⟨player, running, stuck⟩
  · rw [turn] at ended
    cases ended
  · rw [turn, Status.turn.injEq] at running
    rw [← running, legal] at stuck
    cases stuck

end Agent

end

end GameSearch
