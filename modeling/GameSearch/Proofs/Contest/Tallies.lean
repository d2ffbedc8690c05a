import GameSearch.Proofs.Contest.Agreement
import Mathlib.Algebra.Group.Even
import Mathlib.Tactic.Ring

/-!
# What a match comes to

If both agents of a match go by the position, only the seats tell one of its games from another. So a
match repeats two games, the one in which the first agent has the first seat and the one in which it
has the second, and its tally is made up of theirs. Exchanging the agents exchanges the two games,
with the wins of either agent booked for the other.
-/

namespace GameSearch

/-! ### Tallies -/

namespace Verdict

/-- The verdict from the side of the second agent. -/
def exchanged : Verdict → Verdict
  | first => second
  | second => first
  | draw => draw

/-- The tally of a single game. -/
def tally (verdict : Verdict) : Tally := (⟨1, 0, 0, 0⟩ : Tally).count verdict

theorem tally_eq (verdict : Verdict) : verdict.tally =
    ⟨1, [verdict].count .first, [verdict].count .second, [verdict].count .draw⟩ := by
  cases verdict <;> rfl

theorem ofWinner_swap {Player : Type} [DecidableEq Player] (winner : Option Player)
    {seat otherSeat : Player} (distinct : seat ≠ otherSeat) :
    ofWinner winner otherSeat seat = (ofWinner winner seat otherSeat).exchanged := by
  unfold ofWinner
  by_cases won : winner = some seat
  · simp [won, distinct, exchanged]
  · by_cases lost : winner = some otherSeat
    · simp [lost, distinct.symm, exchanged]
    · simp [won, lost, exchanged]

end Verdict

namespace Tally

/-- The tally from the side of the second agent. -/
def exchanged (tally : Tally) : Tally :=
  ⟨tally.games, tally.secondWins, tally.firstWins, tally.draws⟩

/-- The tally of one game that is played so many times and another that is played so many times. -/
def combine (times : Nat) (tally : Tally) (otherTimes : Nat) (other : Tally) : Tally :=
  ⟨times * tally.games + otherTimes * other.games,
    times * tally.firstWins + otherTimes * other.firstWins,
    times * tally.secondWins + otherTimes * other.secondWins,
    times * tally.draws + otherTimes * other.draws⟩

theorem combine_comm (times : Nat) (tally : Tally) (otherTimes : Nat) (other : Tally) :
    combine times tally otherTimes other = combine otherTimes other times tally := by
  simp [combine, Int.add_comm]

theorem exchanged_combine_tally (times otherTimes : Nat) (verdict other : Verdict) :
    (combine times verdict.tally otherTimes other.tally).exchanged =
      combine times verdict.exchanged.tally otherTimes other.exchanged.tally := by
  cases verdict <;> cases other <;> rfl

/-- Every game counts for one of the verdicts. -/
theorem sum_combine_tally (times otherTimes : Nat) (verdict other : Verdict) :
    let tally := combine times verdict.tally otherTimes other.tally
    tally.firstWins + tally.secondWins + tally.draws = tally.games := by
  intro tally
  cases verdict <;> cases other <;> simp only [tally, combine, Verdict.tally, count] <;> omega

theorem foldl_count (verdicts : List Verdict) (tally : Tally) :
    verdicts.foldl count tally =
      ⟨tally.games, tally.firstWins + verdicts.count .first,
        tally.secondWins + verdicts.count .second, tally.draws + verdicts.count .draw⟩ := by
  induction verdicts generalizing tally with
  | nil => simp
  | cons verdict verdicts ih =>
      simp only [List.foldl_cons, ih, List.count_cons]
      cases verdict <;> simp [count] <;> omega

end Tally

/-- How often something occurs in a list that goes back and forth between two items. -/
theorem count_alternating {α : Type} [DecidableEq α] (item other looked : α) (length : Nat) :
    ((List.range length).map fun number => if number % 2 = 1 then other else item).count looked =
      (length + 1) / 2 * [item].count looked + length / 2 * [other].count looked := by
  induction length with
  | zero => simp
  | succ length ih =>
      rw [List.range_succ, List.map_append, List.count_append, ih, List.map_singleton]
      rcases Nat.mod_two_eq_zero_or_one length with even | odd
      · have next : (length + 1 + 1) / 2 = length / 2 + 1 := by omega
        have last : (length + 1) / 2 = length / 2 := by omega
        simp only [even, next, last, zero_ne_one, if_false]
        ring
      · have next : (length + 1 + 1) / 2 = length / 2 + 1 := by omega
        have last : (length + 1) / 2 = length / 2 + 1 := by omega
        simp only [odd, next, last, if_true]
        ring

/-- The tally of games that go back and forth between two verdicts. -/
theorem foldl_count_alternating (verdict other : Verdict) (games : Nat) :
    ((List.range games).map fun number => if number % 2 = 1 then other else verdict).foldl
        Tally.count ⟨games, 0, 0, 0⟩ =
      Tally.combine ((games + 1) / 2) verdict.tally (games / 2) other.tally := by
  have halves : games = (games + 1) / 2 + games / 2 := by omega
  simp only [Tally.foldl_count, count_alternating, Tally.combine, Verdict.tally_eq,
    Tally.mk.injEq]
  refine ⟨?_, ?_, ?_, ?_⟩
  · omega
  · push_cast
    ring
  · push_cast
    ring
  · push_cast
    ring

theorem foldl_count_replicate (verdict other : Verdict) (games : Nat) :
    (List.replicate games verdict).foldl Tally.count ⟨games, 0, 0, 0⟩ =
      Tally.combine games verdict.tally 0 other.tally := by
  rw [Tally.foldl_count]
  cases verdict <;> simp [Tally.combine, Verdict.tally, Tally.count, List.count_replicate]

/-! ### Matches -/

variable {Memory Position Player Action : Type} [DecidableEq Player]

/-- Two players who are given different seats have them, whoever is named first. -/
theorem seatOf_swap {player otherPlayer : Player} (distinct : player ≠ otherPlayer)
    (seat otherSeat : Seat Memory Position Action) :
    seatOf [(otherPlayer, otherSeat), (player, seat)] =
      seatOf [(player, seat), (otherPlayer, otherSeat)] := by
  funext asked
  unfold seatOf
  by_cases here : player = asked
  · have there : otherPlayer ≠ asked := by
      rintro rfl
      exact distinct here
    simp [here, there]
  · simp [here, List.find?_cons]

namespace Pairing

variable [Worded Player] [Worded Action] {pairing : Pairing Memory Position Player Action}
  {game : Game Position Player Action} {start : Position} {invariant : Memory → Prop}
  {effort before : Effort Memory} {straight crossed : GameResult Player Action}

/-- The same match with the second agent as the first. -/
def exchanged (pairing : Pairing Memory Position Player Action) :
    Pairing Memory Position Player Action :=
  { pairing with first := pairing.second, second := pairing.first }

/-- Plays a game in which the agents have the given seats. -/
def playAt (pairing : Pairing Memory Position Player Action) (game : Game Position Player Action)
    (start : Position) (seats : Player × Player) (effort : Effort Memory) :
    Played Memory Position Player Action :=
  playGame game (seatOf [(seats.1, pairing.first), (seats.2, pairing.second)]) pairing.maxTurns
    start effort

/-- Whether the choices of both agents are functions of the position, as long as an invariant of
their memory holds. -/
structure Functional (pairing : Pairing Memory Position Player Action)
    (invariant : Memory → Prop) : Prop where
  first : ∃ choice, pairing.first.GoesBy invariant choice
  second : ∃ choice, pairing.second.GoesBy invariant choice

theorem playNumber_eq (pairing : Pairing Memory Position Player Action)
    (game : Game Position Player Action) (start : Position) (number : Nat)
    (effort : Effort Memory) : pairing.playNumber game start number effort =
      pairing.playAt game start (pairing.seating number) effort := rfl

theorem playAt_exchanged (pairing : Pairing Memory Position Player Action)
    {seats : Player × Player} (distinct : seats.1 ≠ seats.2) :
    pairing.exchanged.playAt game start seats effort =
      pairing.playAt game start seats.swap effort := by
  have same := seatOf_swap distinct.symm pairing.first pairing.second
  simp only [playAt, exchanged, Prod.fst_swap, Prod.snd_swap, same]

namespace Functional

omit [DecidableEq Player] [Worded Player] [Worded Action] in
theorem exchanged (functional : pairing.Functional invariant) :
    pairing.exchanged.Functional invariant :=
  ⟨functional.second, functional.first⟩

/-- A game depends on nothing but the seats. -/
theorem result_playAt (functional : pairing.Functional invariant) (seats : Player × Player)
    (fit : invariant effort.memory) (beforeFit : invariant before.memory) :
    (pairing.playAt game start seats effort).result =
      (pairing.playAt game start seats before).result := by
  rcases functional with ⟨⟨choice, goes⟩, otherChoice, otherGoes⟩
  have both : List.Forall₂ (fun seat choice => seat.1 = choice.1 ∧
      seat.2.GoesBy invariant choice.2)
      [(seats.1, pairing.first), (seats.2, pairing.second)]
      [(seats.1, choice), (seats.2, otherChoice)] :=
    .cons ⟨rfl, goes⟩ (.cons ⟨rfl, otherGoes⟩ .nil)
  exact (playGame_eq_outcome both fit).trans (playGame_eq_outcome both beforeFit).symm

theorem playAt_keeps (functional : pairing.Functional invariant) (seats : Player × Player)
    (fit : invariant effort.memory) :
    invariant (pairing.playAt game start seats effort).effort.memory := by
  rcases functional with ⟨⟨choice, goes⟩, otherChoice, otherGoes⟩
  apply playOn_keeps _ fit
  intro player seat found position before beforeFit
  rcases List.mem_pair.mp (mem_of_seatOf found) with same | same
  · rcases Prod.mk.inj same with ⟨-, rfl⟩
    exact (goes position before beforeFit).2
  · rcases Prod.mk.inj same with ⟨-, rfl⟩
    exact (otherGoes position before beforeFit).2

omit [DecidableEq Player] [Worded Player] [Worded Action] in
/-- Agents of a roster whose choices are functions of the position play such a match. -/
theorem exists_of_choosesBy [DecidableEq Player] [DecidableEq Action] [Worded Player]
    [Worded Action] {pairing : Pairing (Roster Position Player Action) Position Player Action}
    {deadlines : Deadlines} {name otherName : String} {index other : Nat}
    {agent otherAgent : Agent Position Player Action}
    {choice otherChoice : Position → Except Fault Action} {roster : Roster Position Player Action}
    (first_eq : pairing.first = rosterSeat game deadlines name index)
    (second_eq : pairing.second = rosterSeat game deadlines otherName other)
    (at_index : roster[index]? = some agent) (at_other : roster[other]? = some otherAgent)
    (chooses : agent.ChoosesBy game deadlines choice)
    (otherChooses : otherAgent.ChoosesBy game deadlines otherChoice) :
    ∃ invariant, pairing.Functional invariant ∧ invariant roster := by
  rcases chooses with ⟨valid, fit, go⟩
  rcases otherChooses with ⟨otherValid, otherFit, otherGo⟩
  refine ⟨fun roster => roster.Holds index valid ∧ roster.Holds other otherValid, ⟨?_, ?_⟩,
    ⟨agent, at_index, fit⟩, ⟨otherAgent, at_other, otherFit⟩⟩
  · rw [first_eq]
    exact ⟨choice, (rosterSeat_goesBy go).and_right (rosterSeat_keeps otherGo index)⟩
  · rw [second_eq]
    exact ⟨otherChoice, (rosterSeat_goesBy otherGo).and_left (rosterSeat_keeps go other)⟩

/-- From any game on, a match repeats what its games are known to come to. -/
theorem playFrom_returns (functional : pairing.Functional invariant)
    {bout : Nat → GameResult Player Action}
    (played : ∀ number, (pairing.playNumber game start number before).result = .ok (bout number))
    (beforeFit : invariant before.memory) {total : Int} {remaining number : Nat} {tally : Tally}
    (fit : invariant effort.memory) :
    (pairing.playFrom game start total remaining number tally).Returns effort fun result _ =>
      result.games = (List.range' number remaining).map bout ∧
        result.tally = ((List.range' number remaining).map fun number =>
          Verdict.ofWinner (bout number).winner (pairing.seating number).1
            (pairing.seating number).2).foldl Tally.count tally := by
  induction remaining generalizing number tally effort with
  | zero => exact SearchM.returns_pure.mpr ⟨rfl, rfl⟩
  | succ remaining ih =>
      have here : (pairing.playNumber game start number effort).result = .ok (bout number) := by
        rw [← played number]
        exact functional.result_playAt _ fit beforeFit
      apply Pairing.playFrom_succ_returns here
      intro notes
      have kept : invariant (pairing.playNumber game start number effort).effort.memory :=
        functional.playAt_keeps _ fit
      refine SearchM.Returns.mono (ih (by exact kept)) ?_
      rintro rest after ⟨games_eq, tally_eq⟩
      simp only [List.range'_succ, List.map_cons, List.foldl_cons]
      exact ⟨congrArg _ games_eq, tally_eq⟩

/-- A match between agents who go by the position repeats two games, and its tally is made up of
their tallies. -/
theorem play_returns (functional : pairing.Functional invariant) (fit : invariant effort.memory)
    (direct : (pairing.playAt game start pairing.players effort).result = .ok straight)
    (turned : (pairing.playAt game start pairing.players.swap effort).result = .ok crossed)
    (games : Nat) :
    let verdict := Verdict.ofWinner straight.winner pairing.players.1 pairing.players.2
    let other := Verdict.ofWinner crossed.winner pairing.players.2 pairing.players.1
    (pairing.play game start games).Returns effort fun result _ =>
      result.games = ((List.range games).map fun number =>
        if pairing.alternate ∧ number % 2 = 1 then crossed else straight) ∧
      result.tally = if pairing.alternate
        then .combine ((games + 1) / 2) verdict.tally (games / 2) other.tally
        else .combine games verdict.tally 0 other.tally := by
  intro verdict other
  have played (number : Nat) : (pairing.playNumber game start number effort).result =
      .ok (if pairing.alternate ∧ number % 2 = 1 then crossed else straight) := by
    rw [playNumber_eq, seating]
    split
    · exact turned
    · exact direct
  have verdict_eq (number : Nat) : Verdict.ofWinner
      (if pairing.alternate ∧ number % 2 = 1 then crossed else straight).winner
      (pairing.seating number).1 (pairing.seating number).2 =
        if pairing.alternate ∧ number % 2 = 1 then other else verdict := by
    rw [seating]
    split <;> rfl
  refine (functional.playFrom_returns played fit fit).mono ?_
  rintro result after ⟨games_eq, tally_eq⟩
  rw [Int.toNat_natCast, ← List.range_eq_range'] at games_eq tally_eq
  refine ⟨games_eq, ?_⟩
  simp only [tally_eq, verdict_eq]
  cases pairing.alternate with
  | true => simpa using foldl_count_alternating verdict other games
  | false => simpa using foldl_count_replicate verdict other games

end Functional

/-- What a match comes to between two agents who go by the position. All games are counted. If the
agents swap seats every other game, then half of the games, rounded up, go like the one in which the
first agent has the first seat, and the others like the one in which it has the second; if they do
not, all games go like the former. So for an even number of games with swapped seats the agents may
be exchanged, which exchanges their wins and leaves the draws. -/
theorem play_tallies (distinct : pairing.players.1 ≠ pairing.players.2)
    (functional : pairing.Functional invariant) (fit : invariant effort.memory)
    (direct : (pairing.playAt game start pairing.players effort).result = .ok straight)
    (turned : (pairing.playAt game start pairing.players.swap effort).result = .ok crossed)
    (games : Nat) :
    let first := (Verdict.ofWinner straight.winner pairing.players.1 pairing.players.2).tally
    let second := (Verdict.ofWinner crossed.winner pairing.players.2 pairing.players.1).tally
    ∃ result after, (pairing.play game start games).Yields effort result after ∧
      result.games.length = games ∧ result.tally.games = games ∧
      result.tally.firstWins + result.tally.secondWins + result.tally.draws = games ∧
      (pairing.alternate = true →
        result.tally = .combine ((games + 1) / 2) first (games / 2) second) ∧
      (pairing.alternate = false → result.tally = .combine games first 0 second) ∧
      (pairing.alternate = true → Even games → ∃ other last,
        (pairing.exchanged.play game start games).Yields effort other last ∧
          other.tally = result.tally.exchanged) := by
  intro first second
  rcases functional.play_returns fit direct turned games with
    ⟨result, after, ran, games_eq, tally_eq⟩
  have counted : result.tally.games = games ∧ result.tally.firstWins + result.tally.secondWins +
      result.tally.draws = result.tally.games := by
    cases alternate : pairing.alternate with
    | true =>
        rw [tally_eq, if_pos alternate]
        refine ⟨?_, Tally.sum_combine_tally _ _ _ _⟩
        simp only [Tally.combine, Verdict.tally_eq]
        omega
    | false =>
        rw [tally_eq, alternate, if_neg Bool.false_ne_true]
        refine ⟨?_, Tally.sum_combine_tally _ _ _ _⟩
        simp [Tally.combine, Verdict.tally_eq]
  refine ⟨result, after, ran, ?_, counted.1, counted.2.trans counted.1, ?_, ?_, ?_⟩
  · simp [games_eq]
  · intro alternate
    rw [tally_eq, if_pos alternate]
  · intro alternate
    rw [tally_eq, alternate, if_neg Bool.false_ne_true]
  · intro alternate even
    have again : (pairing.exchanged.playAt game start pairing.players effort).result =
        .ok crossed := by
      rw [playAt_exchanged pairing distinct]
      exact turned
    have back : (pairing.exchanged.playAt game start pairing.players.swap effort).result =
        .ok straight := by
      rw [playAt_exchanged pairing distinct.symm]
      exact direct
    have alternateBack : pairing.exchanged.alternate = true := alternate
    rcases functional.exchanged.play_returns fit again back games with
      ⟨other, last, ranBack, -, other_eq⟩
    refine ⟨other, last, ranBack, ?_⟩
    have half : (games + 1) / 2 = games / 2 := by
      rcases even with ⟨count, rfl⟩
      omega
    rw [other_eq, if_pos alternateBack, tally_eq, if_pos alternate, half,
      Tally.exchanged_combine_tally, Tally.combine_comm]
    simp only [exchanged, ← Verdict.ofWinner_swap _ distinct, ← Verdict.ofWinner_swap _ distinct.symm]

end Pairing

theorem eq_ok_of_report {Player Action : Type} {outcome : Except Fault (GameResult Player Action)}
    {result : GameResult Player Action} (report : outcome.toOption.map (fun result =>
      (result.winner, result.actions, result.completed)) =
        some (result.winner, result.actions, result.completed)) : outcome = .ok result := by
  cases outcome with
  | error fault => cases report
  | ok other =>
      rcases other with ⟨winner, actions, completed⟩
      cases report
      rfl

/-- Four games of Nim with three turns at most, between an agent that counts and one that looks for
the end. Moving first, the one that counts wins on the last turn; moving second, it runs out of
turns. -/
theorem Pairing.play_tallies_greedy :
    let sums : Nim.NimAgent := .searcher "sums" .singleLevel Nim.nimSum false
    let ends : Nim.NimAgent := .searcher "ends" .singleLevel Nim.winLoss false
    let start : Nim.Position := ⟨[1, 1, 2], .one, none, false, by simp, by simp⟩
    let pairing := Tournament.rivals (fun _ => .never) "sums" "ends" (some 3)
    let straight : GameResult Nim.Player Nim.Action :=
      ⟨some .one, [(.one, ⟨2, 2⟩), (.two, ⟨0, 1⟩), (.one, ⟨1, 1⟩)], true⟩
    let crossed : GameResult Nim.Player Nim.Action :=
      ⟨none, [(.one, ⟨0, 1⟩), (.two, ⟨2, 1⟩), (.one, ⟨1, 1⟩)], false⟩
    ∃ invariant, pairing.players.1 ≠ pairing.players.2 ∧ pairing.Functional invariant ∧
      invariant #[sums, ends] ∧
      (pairing.playAt Nim.game start pairing.players (.start #[sums, ends])).result =
        .ok straight ∧
      (pairing.playAt Nim.game start pairing.players.swap (.start #[sums, ends])).result =
        .ok crossed ∧
      ∃ result after, (pairing.play Nim.game start 4).Yields (.start #[sums, ends]) result after ∧
        result.games.length = 4 ∧ result.tally = ⟨4, 2, 0, 2⟩ ∧
        ∃ other last,
          (pairing.exchanged.play Nim.game start 4).Yields (.start #[sums, ends]) other last ∧
            other.tally = ⟨4, 0, 2, 2⟩ := by
  intro sums ends start pairing straight crossed
  have sums_chooses : sums.ChoosesBy Nim.game (fun _ => .never) _ :=
    Agent.choosesBy_of_steady (.rule _ _) Nim.game .never _ _ _
  have ends_chooses : ends.ChoosesBy Nim.game (fun _ => .never) _ :=
    Agent.choosesBy_of_steady (.rule _ _) Nim.game .never _ _ _
  obtain ⟨invariant, functional, fit⟩ : ∃ invariant, pairing.Functional invariant ∧
      invariant #[sums, ends] := by
    have seated : pairing.first = rosterSeat Nim.game (fun _ => .never) "sums" 0 := rfl
    have facing : pairing.second = rosterSeat Nim.game (fun _ => .never) "ends" 1 := rfl
    exact Functional.exists_of_choosesBy seated facing rfl rfl sums_chooses ends_chooses
  have distinct : pairing.players.1 ≠ pairing.players.2 := by decide
  have direct : (pairing.playAt Nim.game start pairing.players (.start #[sums, ends])).result =
      .ok straight := eq_ok_of_report (by decide +kernel)
  have turned : (pairing.playAt Nim.game start pairing.players.swap
      (.start #[sums, ends])).result = .ok crossed := eq_ok_of_report (by decide +kernel)
  rcases play_tallies distinct functional fit direct turned 4 with
    ⟨result, after, ran, length_eq, -, -, tally_eq, -, exchanged⟩
  rcases exchanged rfl (by decide) with ⟨other, last, ranBack, other_eq⟩
  have counts : result.tally = ⟨4, 2, 0, 2⟩ := tally_eq rfl
  refine ⟨invariant, distinct, functional, fit, direct, turned, result, after, ran, length_eq,
    counts, other, last, ranBack, ?_⟩
  rw [other_eq, counts]
  rfl

end GameSearch
