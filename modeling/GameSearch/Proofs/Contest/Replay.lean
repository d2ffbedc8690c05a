import GameSearch.Contest.Play
import GameSearch.Proofs.Contest.Line
import GameSearch.Proofs.Search.Returns

/-!
# Replaying games

Whatever the players do, the record of a game is true to it. Its actions, played again from the
start, lead step by step to the position that the game has come to, and each of them was played by
the player whose turn it was. This holds for games that end by themselves, for games that a turn
limit stops and for games that a fault breaks off.

`Game.Line` speaks of the rules alone. `Underway` says by which turns the players bring a game to a
record, and `Ends` says what ends it there. A game is asked for some number of turns; one that a turn
limit or the rules keep shorter never uses them up, and any other may outlast them, however many they
are.
-/

namespace GameSearch

variable {Memory Position Player Action : Type}

variable {game : Game Position Player Action}
  {seats : Player → Option (Seat Memory Position Action)} {maxTurns : Option Int}
  {start : Position} {effort before : Effort Memory} {record : Record Position Player Action}

section Underway

variable [Worded Player] [Worded Action]

/-- The note of a turn. -/
def turnNote (turns : Nat) (player : Player) (name : String) (action : Action) : String :=
  "Turn " ++ toString turns ++ ": " ++ Worded.plain player ++ " (" ++ name ++ ") played " ++
    Worded.plain action

/-- One turn: the limit allows it, and the seat of the player to move chooses an action, which is
played. -/
inductive TakesTurn (game : Game Position Player Action)
    (seats : Player → Option (Seat Memory Position Action)) (maxTurns : Option Int)
    (record : Record Position Player Action) (before : Effort Memory) :
    Record Position Player Action → Effort Memory → Prop where
  | intro {player : Player} {seat : Seat Memory Position Action} {action : Action}
      {after : Effort Memory} {next : Position} (turn : game.status record.position = .turn player)
      (allowed : ∀ limit, maxTurns = some limit → (record.actions.size : Int) < limit)
      (seated : seats player = some seat)
      (chosen : (seat.choose record.position).Yields before action after)
      (played : game.play record.position player action = .ok next) :
      TakesTurn game seats maxTurns record before ⟨next, record.actions.push (player, action)⟩
        (noteGame after (turnNote (record.actions.size + 1) player seat.name action))

/-- The records that the players bring a game to, turn by turn, with the effort spent by then. -/
inductive Underway (game : Game Position Player Action)
    (seats : Player → Option (Seat Memory Position Action)) (maxTurns : Option Int)
    (start : Position) (effort : Effort Memory) :
    Record Position Player Action → Effort Memory → Prop where
  | start : Underway game seats maxTurns start effort ⟨start, #[]⟩ effort
  | turn {record next : Record Position Player Action} {before after : Effort Memory}
      (underway : Underway game seats maxTurns start effort record before)
      (turn : TakesTurn game seats maxTurns record before next after) :
      Underway game seats maxTurns start effort next after

/-- What ends a game that has come to a record: the game is over, the limit stops it, nobody sits
there for the player to move, the seat fails to choose, or its action cannot be played. -/
inductive Ends (game : Game Position Player Action)
    (seats : Player → Option (Seat Memory Position Action)) (maxTurns : Option Int)
    (record : Record Position Player Action) (before : Effort Memory) :
    Except Fault (GameResult Player Action) → Prop where
  | complete {winner : Option Player} (ended : game.status record.position = .over winner) :
      Ends game seats maxTurns record before (.ok ⟨winner, record.actions.toList, true⟩)
  | limit {player : Player} {limit : Int} (turn : game.status record.position = .turn player)
      (limited : maxTurns = some limit) (reached : limit ≤ record.actions.size) :
      Ends game seats maxTurns record before (.ok ⟨none, record.actions.toList, false⟩)
  | unseated {player : Player} (turn : game.status record.position = .turn player)
      (unseated : seats player = none) :
      Ends game seats maxTurns record before (.error (.noAgent (Worded.plain player)))
  | unchosen {player : Player} {seat : Seat Memory Position Action} {fault : Fault}
      {after : Effort Memory} (turn : game.status record.position = .turn player)
      (seated : seats player = some seat)
      (failed : (seat.choose record.position).run.run before = (.error fault, after)) :
      Ends game seats maxTurns record before (.error fault)
  | unplayable {player : Player} {seat : Seat Memory Position Action} {action : Action}
      {fault : Fault} {after : Effort Memory} (turn : game.status record.position = .turn player)
      (seated : seats player = some seat)
      (chosen : (seat.choose record.position).Yields before action after)
      (refused : game.play record.position player action = .error fault) :
      Ends game seats maxTurns record before (.error fault)

/-- Whether a game that is still running at a record, below the limit, has used up the turns it was
asked for. -/
structure Outlasts (game : Game Position Player Action) (maxTurns : Option Int) (turns : Nat)
    (record : Record Position Player Action) (result : Except Fault (GameResult Player Action)) :
    Prop where
  running : ∃ player, game.status record.position = .turn player
  allowed : ∀ limit, maxTurns = some limit → (record.actions.size : Int) < limit
  size_eq : record.actions.size = turns
  result_eq : result = .error .unbounded

theorem TakesTurn.size_le {next : Record Position Player Action} {after : Effort Memory}
    (turn : TakesTurn game seats maxTurns record before next after) {limit : Int}
    (limited : maxTurns = some limit) : next.actions.size ≤ limit := by
  cases turn with
  | intro _ allowed =>
      have less := allowed limit limited
      rw [Array.size_push]
      omega

/-- What playing on does: the game ends, or it goes on after a turn. A game that may go on is given
up only when no turn is left. -/
theorem playOn_cases (game : Game Position Player Action)
    (seats : Player → Option (Seat Memory Position Action)) (maxTurns : Option Int)
    (remaining : Nat) (record : Record Position Player Action) (before : Effort Memory) :
    (∃ result after, playOn game seats maxTurns remaining record before =
        ⟨result, record, after⟩ ∧ Ends game seats maxTurns record before result) ∨
      (∃ fewer next after, remaining = fewer + 1 ∧
        TakesTurn game seats maxTurns record before next after ∧
        playOn game seats maxTurns remaining record before =
          playOn game seats maxTurns fewer next after) ∨
      ∃ player, remaining = 0 ∧ game.status record.position = .turn player ∧
        (∀ limit, maxTurns = some limit → (record.actions.size : Int) < limit) ∧
        playOn game seats maxTurns remaining record before =
          ⟨.error .unbounded, record, before⟩ := by
  rw [playOn]
  rcases status : game.status record.position with player | winner
  · cases limited : maxTurns.filter fun limit => decide (limit ≤ (record.actions.size : Int)) with
    | some limit =>
        left
        simp only [Option.filter_eq_some_iff, decide_eq_true_eq] at limited
        exact ⟨_, _, rfl, .limit status limited.1 limited.2⟩
    | none =>
        simp only [Option.filter_eq_none_iff, decide_eq_true_eq, Int.not_le] at limited
        cases seated : seats player with
        | none =>
            left
            refine ⟨_, before, ?_, .unseated status seated⟩
            simp only [seated]
        | some seat =>
            cases remaining with
            | zero =>
                right
                right
                refine ⟨player, rfl, rfl, limited, ?_⟩
                simp only [seated]
            | succ remaining =>
                rcases chosen : (seat.choose record.position).run.run before with
                  ⟨fault | action, after⟩
                · left
                  refine ⟨_, after, ?_, .unchosen status seated chosen⟩
                  simp only [seated, chosen]
                · rcases played : game.play record.position player action with fault | next
                  · left
                    refine ⟨_, after, ?_, .unplayable status seated chosen played⟩
                    simp only [seated, chosen, played]
                  · right
                    left
                    refine ⟨remaining, _, _, rfl, .intro status limited seated chosen played, ?_⟩
                    simp only [seated, chosen, played]
                    rfl
  · left
    exact ⟨_, _, rfl, .complete status⟩

namespace Underway

theorem line (underway : Underway game seats maxTurns start effort record before) :
    game.Line start record.actions.toList record.position := by
  induction underway with
  | start => exact .start
  | turn _ turn ih =>
      cases turn with
      | intro turn _ _ _ played =>
          rw [Array.toList_push]
          exact .turn ih turn played

theorem size_le (underway : Underway game seats maxTurns start effort record before)
    {limit : Int} (limited : maxTurns = some limit) : record.actions.size ≤ max 0 limit := by
  cases underway with
  | start => exact Int.le_max_left 0 limit
  | turn _ turn => exact Int.le_trans (turn.size_le limited) (Int.le_max_right 0 limit)

/-- A game that a limit or the rules keep short has turns left as long as it may go on. -/
theorem size_ne_turnBound (underway : Underway game seats maxTurns start effort record before)
    (bounded : maxTurns ≠ none ∨ game.height start ≠ none)
    (allowed : ∀ limit, maxTurns = some limit → (record.actions.size : Int) < limit) :
    record.actions.size ≠ turnBound game maxTurns start := by
  intro spent
  cases limited : maxTurns with
  | some limit =>
      have less := allowed limit limited
      simp only [limited, turnBound] at spent
      omega
  | none =>
      obtain ⟨moves, known⟩ := Option.ne_none_iff_exists'.mp (bounded.resolve_left (by simp [limited]))
      rcases underway.line.height_le known with ⟨fewer, -, le⟩
      simp only [limited, known, turnBound, Option.map_some, Option.getD_some] at spent
      rw [Array.length_toList] at le
      omega

end Underway

/-- A game that is played on stays underway until something ends it or it has used up its turns. -/
theorem playOn_underway {remaining turns : Nat}
    (underway : Underway game seats maxTurns start effort record before)
    (enough : record.actions.size + remaining = turns) :
    let played := playOn game seats maxTurns remaining record before
    ∃ last, Underway game seats maxTurns start effort played.record last ∧
      (Ends game seats maxTurns played.record last played.result ∨
        Outlasts game maxTurns turns played.record played.result) := by
  induction remaining generalizing record before with
  | zero =>
      rcases playOn_cases game seats maxTurns 0 record before with
        ⟨result, after, played, ends⟩ | ⟨fewer, next, after, impossible, -⟩ |
        ⟨player, -, turn, allowed, played⟩
      · rw [played]
        exact ⟨before, underway, .inl ends⟩
      · omega
      · rw [played]
        exact ⟨before, underway, .inr ⟨⟨player, turn⟩, allowed, enough, rfl⟩⟩
  | succ remaining ih =>
      rcases playOn_cases game seats maxTurns (remaining + 1) record before with
        ⟨result, after, played, ends⟩ | ⟨fewer, next, after, same, turn, played⟩ |
        ⟨player, impossible, -⟩
      · rw [played]
        exact ⟨before, underway, .inl ends⟩
      · rcases Nat.succ.inj same with rfl
        rw [played]
        apply ih (.turn underway turn)
        cases turn
        rw [Array.size_push]
        omega
      · omega

/-- A game that a limit or the rules keep short goes on until something ends it. -/
theorem playGame_underway (game : Game Position Player Action)
    (seats : Player → Option (Seat Memory Position Action)) (maxTurns : Option Int)
    (start : Position) (effort : Effort Memory)
    (bounded : maxTurns ≠ none ∨ game.height start ≠ none) :
    let played := playGame game seats maxTurns start effort
    ∃ before, Underway game seats maxTurns start effort played.record before ∧
      Ends game seats maxTurns played.record before played.result := by
  intro played
  have goes : ∃ before, Underway game seats maxTurns start effort played.record before ∧
      (Ends game seats maxTurns played.record before played.result ∨
        Outlasts game maxTurns (turnBound game maxTurns start) played.record played.result) :=
    playOn_underway .start (Nat.zero_add _)
  rcases goes with ⟨before, underway, ends | outlasts⟩
  · exact ⟨before, underway, ends⟩
  · exact absurd outlasts.size_eq (underway.size_ne_turnBound bounded outlasts.allowed)

/-- What the result of a game tells about the record that it has come to. -/
structure GameResult.Reports (game : Game Position Player Action) (maxTurns : Option Int)
    (record : Record Position Player Action) (result : GameResult Player Action) : Prop where
  actions_eq : result.actions = record.actions.toList
  turns_eq : result.turns = record.actions.size
  completed_iff : result.completed = true ↔ ∃ winner, game.status record.position = .over winner
  winner_eq : ∀ winner, game.status record.position = .over winner → result.winner = winner
  stopped : result.completed = false → result.winner = none ∧
    ∃ limit, maxTurns = some limit ∧ (result.turns : Int) = max 0 limit

theorem Ends.reports {result : GameResult Player Action}
    (ends : Ends game seats maxTurns record before (.ok result))
    (underway : Underway game seats maxTurns start effort record before) :
    result.Reports game maxTurns record := by
  cases ends with
  | complete ended =>
      constructor
      · rfl
      · exact Array.length_toList
      · simp [ended]
      · simp [ended]
      · simp
  | limit turn limited reached =>
      have fits := underway.size_le limited
      constructor
      · rfl
      · exact Array.length_toList
      · simp [turn]
      · simp [turn]
      · intro _
        refine ⟨rfl, _, limited, ?_⟩
        change (record.actions.toList.length : Int) = _
        rw [Array.length_toList]
        omega

/-- Every game replays, however many turns it is asked for. Its record is one that the players bring
the game to, turn by turn, until something ends it, also where this is a fault, or until all turns
are used up; the actions of the record, played from the start, lead to its position, each of them in
turn. The result, if there is one, reports on the record. Where a limit or the rules keep a game
short, something ends it. -/
theorem playGame_replays (game : Game Position Player Action)
    (seats : Player → Option (Seat Memory Position Action)) (maxTurns : Option Int)
    (start : Position) (effort : Effort Memory) :
    (∀ turns,
      let played := playOn game seats maxTurns turns ⟨start, #[]⟩ effort
      (∃ before, Underway game seats maxTurns start effort played.record before ∧
          (Ends game seats maxTurns played.record before played.result ∨
            Outlasts game maxTurns turns played.record played.result)) ∧
        game.Line start played.record.actions.toList played.record.position ∧
        game.replay start played.record.actions.toList = .ok played.record.position ∧
        ∀ result, played.result = .ok result → result.Reports game maxTurns played.record) ∧
    (maxTurns ≠ none ∨ game.height start ≠ none →
      let played := playGame game seats maxTurns start effort
      ∃ before, Underway game seats maxTurns start effort played.record before ∧
        Ends game seats maxTurns played.record before played.result) := by
  refine ⟨?_, playGame_underway game seats maxTurns start effort⟩
  intro turns played
  have goes : ∃ before, Underway game seats maxTurns start effort played.record before ∧
      (Ends game seats maxTurns played.record before played.result ∨
        Outlasts game maxTurns turns played.record played.result) :=
    playOn_underway .start (Nat.zero_add turns)
  rcases goes with ⟨before, underway, stops⟩
  refine ⟨⟨before, underway, stops⟩, underway.line, underway.line.replay_eq, ?_⟩
  intro result returned
  rcases stops with ends | outlasts
  · apply Ends.reports _ underway
    rw [← returned]
    exact ends
  · cases returned.symm.trans outlasts.result_eq

end Underway

end GameSearch
