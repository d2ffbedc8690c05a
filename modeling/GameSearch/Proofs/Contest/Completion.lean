import GameSearch.Config.Scalar
import GameSearch.Proofs.Agent.Dependable
import GameSearch.Proofs.Config.Buildable
import GameSearch.Proofs.Contest.Agreement
import GameSearch.Proofs.Contest.Run

/-!
# Tournaments that run to completion

Nothing can break an accepted tournament off whose agents all answer: its agents can be built and
registered, its game can be set up, every choice is a legal action, every game ends by itself or at
its turn limit, and so every matchup is played.

Whether all agents answer depends on more than each description by itself. An agent that goes by
the closed form finds none in misère play with a limit on what may be taken, one that samples cannot
sum up the nim-sums of huge piles, and no check of a tournament rules this out. The clock matters as
well: a search that nothing else bounds ends only if its deadline passes.
-/

namespace GameSearch

section Game

variable {Memory Position Player Action : Type} {game : Game Position Player Action}
  {seats : Player → Option (Seat Memory Position Action)}
  {invariant : Record Position Player Action → Memory → Prop} [Worded Player] [Worded Action]

/-- A game with a turn limit is played to its end or to the limit. -/
theorem playOn_stops (upholds : Upholds game seats invariant) {limit : Int} {remaining : Nat}
    {record : Record Position Player Action} {effort : Effort Memory}
    (enough : limit ≤ record.actions.size + remaining) (holds : invariant record effort.memory) :
    ∃ result last after, playOn game seats (some limit) remaining record effort =
      ⟨.ok result, last, after⟩ ∧ invariant last after.memory := by
  induction remaining generalizing record effort with
  | zero =>
      rw [playOn]
      rcases status : game.status record.position with player | winner
      · have stopped : (some limit).filter
            (fun limit => decide (limit ≤ (record.actions.size : Int))) = some limit := by
          simpa using enough
        simp only [stopped]
        exact ⟨_, record, _, rfl, holds⟩
      · exact ⟨_, record, _, rfl, holds⟩
  | succ remaining ih =>
      rw [playOn]
      rcases status : game.status record.position with player | winner
      · cases filtered : (some limit).filter
            (fun limit => decide (limit ≤ (record.actions.size : Int))) with
        | some reached =>
            exact ⟨_, record, _, rfl, holds⟩
        | none =>
            rcases upholds record player effort status holds with
              ⟨seat, seated, action, after, chosen, next, played, kept⟩
            simp only [seated, chosen, played]
            apply ih
            · simp only [Array.size_push]
              omega
            · exact kept
      · exact ⟨_, record, _, rfl, holds⟩

/-- A game that is bound to end is played to its end or to its turn limit. -/
theorem playGame_returns (upholds : Upholds game seats invariant) (maxTurns : Option Int)
    {start : Position} {moves : Nat} {effort : Effort Memory}
    (known : game.height start = some moves) (holds : invariant ⟨start, #[]⟩ effort.memory) :
    ∃ result last after, playGame game seats maxTurns start effort = ⟨.ok result, last, after⟩ ∧
      invariant last after.memory := by
  cases maxTurns with
  | none =>
      rcases playGame_ends upholds known holds with ⟨winner, last, after, played, -, kept⟩
      exact ⟨_, last, after, played, kept⟩
  | some limit =>
      apply playOn_stops upholds _ holds
      simp only [turnBound, List.size_toArray, List.length_nil]
      omega

end Game

/-- A loop over a list returns if its body does, with a memory that still meets the condition. -/
theorem SearchM.returns_mapM {Memory α β : Type} {holds : Memory → Prop}
    {body : α → SearchM Memory β} {items : List α}
    (each : ∀ item ∈ items, ∀ effort, holds effort.memory →
      (body item).Returns effort fun _ after => holds after.memory)
    {effort : Effort Memory} (fit : holds effort.memory) :
    (items.mapM body).Returns effort fun _ after => holds after.memory := by
  induction items generalizing effort with
  | nil =>
      rw [List.mapM_nil]
      exact returns_pure.mpr fit
  | cons item items ih =>
      rw [List.forall_mem_cons] at each
      rw [List.mapM_cons, returns_bind]
      refine (each.1 effort fit).mono ?_
      intro value between kept
      rw [returns_bind]
      refine (ih each.2 kept).mono ?_
      intro values after still
      exact returns_pure.mpr still

open Config (TournamentSpec AgentSpec StrategySpec Reader)

/-- A sound description whose search is limited, by itself or by a deadline, is one of a bounded
search. -/
theorem Config.StrategySpec.Sound.endsBy {spec : StrategySpec} (sound : spec.Sound)
    {deadline : Deadline}
    (bounded : spec.Unlimited → ∃ check, 0 < check ∧ deadline.passed check = true) :
    spec.build.EndsBy deadline := by
  cases spec with
  | singleLevel => trivial
  | minimax depth | alphaBeta depth => exact Int.le_trans (by decide) sound
  | uct1 exploration maxIterations =>
      cases maxIterations with
      | none => exact .inr (bounded trivial)
      | some limit => exact .inl (Option.some_ne_none limit)

namespace Tournament

variable {spec : TournamentSpec} {deadlines : Deadlines} {start : Nim.Position}
  {closed light : Bool} {size : Nat} {first second : Entrant} {effort : Effort NimRoster}
  {roster : NimRoster}

/-- Whether a roster has some number of agents, all of which answer. -/
structure Staffed (deadlines : Deadlines) (closed light : Bool) (size : Nat) (roster : NimRoster) :
    Prop where
  size_eq : roster.size = size
  ready : ∀ agent ∈ roster, Nim.Ready deadlines closed light agent

theorem Staffed.set {agent : Nim.NimAgent} (staffed : Staffed deadlines closed light size roster)
    (ready : Nim.Ready deadlines closed light agent) (index : Nat) :
    Staffed deadlines closed light size (roster.setIfInBounds index agent) := by
  constructor
  · rw [Array.size_setIfInBounds, staffed.size_eq]
  · intro other mem
    rcases Array.mem_or_eq_of_mem_setIfInBounds mem with old | rfl
    · exact staffed.ready other old
    · exact ready

/-- What a game keeps up: the position is covered as the agents need it, and all agents answer. -/
def Continues (deadlines : Deadlines) (closed light : Bool) (size : Nat)
    (record : Record Nim.Position Nim.Player Nim.Action) (roster : NimRoster) : Prop :=
  Nim.Covered closed light record.position ∧ Staffed deadlines closed light size roster

theorem upholds_continues {seats : Nim.Player → Option (Seat NimRoster Nim.Position Nim.Action)}
    (seated : ∀ player, ∃ name index, index < size ∧
      seats player = some (rosterSeat Nim.game deadlines name index)) :
    Upholds Nim.game seats (Continues deadlines closed light size) := by
  rintro record player effort turn ⟨covered, staffed⟩
  rcases seated player with ⟨name, index, bound, seat_eq⟩
  have present : index < effort.memory.size := by rwa [staffed.size_eq]
  have ready := staffed.ready effort.memory[index] (Array.getElem_mem present)
  rcases ready.choose_returns covered turn effort.checks with
    ⟨action, after, notes, chosen, legal, still⟩
  rcases (Nim.game.play_isOk _ _ _).mpr legal with ⟨next, played⟩
  have ran : ((rosterSeat Nim.game deadlines name index).choose record.position).run.run effort =
      _ := run_rosterSeat (Array.getElem?_eq_getElem present)
  rw [chosen] at ran
  refine ⟨_, seat_eq, action, _, ran, next, played, ?_, staffed.set still index⟩
  exact Nim.staysIn_covered closed light _ _ _ _ covered played

/-- Every player has one of two opposite seats. -/
theorem seatOf_opposite {Memory : Type} (player mover : Nim.Player)
    (seat other : Seat Memory Nim.Position Nim.Action) :
    seatOf [(player, seat), (player.opponent, other)] mover = some seat ∨
      seatOf [(player, seat), (player.opponent, other)] mover = some other := by
  cases player <;> cases mover <;> simp [seatOf, Nim.Player.opponent]

theorem playGame_staffed (covered : Nim.Covered closed light start)
    (first_lt : first.index < size) (second_lt : second.index < size) (number : Nat)
    (staffed : Staffed deadlines closed light size effort.memory) :
    (playGame spec deadlines start first second number).Returns effort fun _ after =>
      Staffed deadlines closed light size after.memory := by
  let sit (entrant : Entrant) := rosterSeat Nim.game deadlines entrant.title entrant.index
  have upholds : Upholds Nim.game (seatOf [(firstSeat number, sit first),
      ((firstSeat number).opponent, sit second)]) (Continues deadlines closed light size) := by
    apply upholds_continues
    intro mover
    rcases seatOf_opposite (firstSeat number) mover (sit first) (sit second) with found | found
    · exact ⟨first.title, first.index, first_lt, found⟩
    · exact ⟨second.title, second.index, second_lt, found⟩
  have fit : Continues deadlines closed light size ⟨start, #[]⟩ effort.memory := ⟨covered, staffed⟩
  rcases playGame_returns upholds spec.maxTurns rfl fit with
    ⟨result, last, after, played, -, kept⟩
  refine ⟨result.winner, after, ?_, kept⟩
  change ((GameSearch.playGame Nim.game _ spec.maxTurns start effort).result.map (·.winner),
    (GameSearch.playGame Nim.game _ spec.maxTurns start effort).effort) = _
  rw [played]
  rfl

theorem playGames_staffed (covered : Nim.Covered closed light start)
    (first_lt : first.index < size) (second_lt : second.index < size) {remaining number : Nat}
    {matchup : Matchup} (staffed : Staffed deadlines closed light size effort.memory) :
    (playGames spec deadlines start first second remaining number matchup).Returns effort
      fun _ after => Staffed deadlines closed light size after.memory := by
  induction remaining generalizing number matchup effort with
  | zero => exact SearchM.returns_pure.mpr staffed
  | succ remaining ih =>
      rw [playGames, SearchM.returns_bind]
      refine (playGame_staffed covered first_lt second_lt number staffed).mono ?_
      exact fun winner after kept => ih kept

theorem playMatchup_staffed (covered : Nim.Covered closed light start)
    (first_lt : first.index < size) (second_lt : second.index < size)
    (staffed : Staffed deadlines closed light size effort.memory) :
    (playMatchup spec deadlines start (first, second)).Returns effort fun _ after =>
      Staffed deadlines closed light size after.memory := by
  simp only [playMatchup, SearchM.returns_bind]
  refine (playGames_staffed covered first_lt second_lt staffed).mono ?_
  intro matchup after kept
  simp only [SearchM.returns_note, SearchM.returns_pure]
  exact kept

variable {registered : Registry Nim.Position Nim.Player Nim.Action}

theorem index_lt_of_mem_entrants {entrant : Entrant} (mem : entrant ∈ entrants registered) :
    entrant.index < registered.entries.length := by
  rcases List.mem_map.mp mem with ⟨⟨entry, index⟩, indexed, rfl⟩
  exact (List.mem_zipIdx' indexed).1

/-- A tournament between agents that answer returns its results. -/
theorem playAll_returns (covered : Nim.Covered closed light start)
    (ready : ∀ entry ∈ registered.entries, Nim.Ready deadlines closed light entry.2) :
    (playAll spec deadlines start registered).Returns
      (.start (registered.entries.map (·.2)).toArray) fun results _ =>
        results.names = registered.names := by
  have staffed : Staffed deadlines closed light registered.entries.length
      (registered.entries.map (·.2)).toArray := by
    constructor
    · simp
    · intro agent mem
      rcases List.mem_map.mp (List.mem_toArray.mp mem) with ⟨entry, listed, rfl⟩
      exact ready entry listed
  have each : ∀ pair ∈ pairs (entrants registered), ∀ effort : Effort NimRoster,
      Staffed deadlines closed light registered.entries.length effort.memory →
        (playMatchup spec deadlines start pair).Returns effort fun _ after =>
          Staffed deadlines closed light registered.entries.length after.memory := by
    rintro ⟨first, second⟩ mem effort staffed
    exact playMatchup_staffed covered (index_lt_of_mem_entrants (left_mem_of_mem_pairs mem))
      (index_lt_of_mem_entrants (right_mem_of_mem_pairs mem)) staffed
  simp only [playAll, SearchM.returns_bind, SearchM.returns_note]
  refine (SearchM.returns_mapM each staffed).mono ?_
  intro matchups after _
  exact SearchM.returns_pure.mpr rfl

/-! ### Registration -/

theorem register_eq_ok {earlier : Registry Nim.Position Nim.Player Nim.Action} {name : String}
    (agent : Nim.NimAgent) (new : name ∉ earlier.names) :
    ∃ registered, earlier.register name agent = .ok registered ∧
      registered.entries = earlier.entries ++ [(name, agent)] := by
  rw [Registry.register, dif_neg new]
  exact ⟨_, rfl, rfl⟩

/-- Agents with distinct names that can be built are registered. -/
theorem exists_registry {gauges : Nim.GaugeTable} {entropies : Entropies}
    (holds : Nim.NimAgent → Prop) (nodup : (spec.agents.map (·.name)).Nodup)
    (built : ∀ agent ∈ spec.agents, ∀ entropy,
      ∃ player, agent.build gauges entropy = .ok player ∧ holds player) :
    ∃ registered, registry spec gauges entropies = .ok registered ∧
      ∀ entry ∈ registered.entries, holds entry.2 := by
  have added : ∀ (agents : List AgentSpec)
      (earlier : Registry Nim.Position Nim.Player Nim.Action),
      (earlier.names ++ agents.map (·.name)).Nodup →
      (∀ agent ∈ agents, ∀ entropy,
        ∃ player, agent.build gauges entropy = .ok player ∧ holds player) →
      (∀ entry ∈ earlier.entries, holds entry.2) →
      ∃ registered, agents.foldlM (fun registry agent =>
          agent.register gauges (entropies registry.entries.length) registry) earlier =
        .ok registered ∧ ∀ entry ∈ registered.entries, holds entry.2 := by
    intro agents
    induction agents with
    | nil => exact fun earlier _ _ held => ⟨earlier, rfl, held⟩
    | cons agent agents ih =>
        intro earlier nodup built held
        rw [List.forall_mem_cons] at built
        rcases built with ⟨here, others⟩
        rcases here (entropies earlier.entries.length) with ⟨player, player_eq, fit⟩
        have new : agent.name ∉ earlier.names := by
          intro mem
          have apart := (List.nodup_append.mp nodup).2.2 _ mem agent.name (by simp)
          exact apart rfl
        rcases register_eq_ok player new with ⟨next, registered, entries_eq⟩
        have step : agent.register gauges (entropies earlier.entries.length) earlier =
            .ok next := by
          rw [AgentSpec.register, player_eq]
          exact registered
        rw [List.foldlM_cons, step]
        apply ih next _ others
        · rw [entries_eq]
          exact List.forall_mem_append.mpr ⟨held, List.forall_mem_singleton.mpr fit⟩
        · rw [names_register step, List.append_assoc]
          exact nodup
  exact added spec.agents .empty nodup built nofun

/-! ### Accepted tournaments -/

/-- Whether the game of a tournament is one that the agents can score: it has a closed form if an
agent goes by it, and light piles if an agent sums up nim-sums. -/
structure Scorable (spec : TournamentSpec) : Prop where
  closedForm : (∃ agent ∈ spec.agents, agent.evaluator = "perfect") →
    ¬(spec.game.misere = true ∧ spec.game.maxTake ≠ none)
  light : (∃ agent ∈ spec.agents, agent.evaluator = "nim_sum" ∧ agent.strategy.build.Samples) →
    ∀ size ∈ spec.game.piles, size < 2 ^ Nim.lightBits

/-- Whether the agents of a tournament can do with some deadlines: each of these passes some day if
an agent searches until it does, and whoever is cut short by one can say so. -/
structure Paced (spec : TournamentSpec) (deadlines : Deadlines) : Prop where
  passes : (∃ agent ∈ spec.agents, agent.strategy.Unlimited) →
    ∀ count, ∃ check, 0 < check ∧ (deadlines count).passed check = true
  reports : ∀ agent ∈ spec.agents, ∀ count, agent.strategy.build.Reports (deadlines count)

variable {Raw : Type} {reader : Reader Raw} {raw : Raw} {entropies : Entropies} {clock : Clock}

/-- The agents of an accepted tournament are built and registered, and all of them answer if what
their gauges call for is there. -/
theorem exists_ready (accepted : TournamentSpec.read reader raw = .ok spec)
    (known : ∀ agent ∈ spec.agents, agent.evaluator ∈ Nim.gauges.map Prod.fst)
    (called : ∀ agent ∈ spec.agents, agent.evaluator = "perfect" → closed = true)
    (counted : ∀ agent ∈ spec.agents, agent.evaluator = "nim_sum" →
      agent.strategy.build.Samples → light = true) (paced : Paced spec deadlines) :
    ∃ registered, registry spec Nim.gauges entropies = .ok registered ∧
      ∀ entry ∈ registered.entries, Nim.Ready deadlines closed light entry.2 := by
  apply exists_registry _ (TournamentSpec.nodup_names accepted)
  intro agent mem entropy
  obtain ⟨summed, sums, needs⟩ : ∃ summed : Bool, (agent.strategy.build.Samples → summed = true) ∧
      (agent.evaluator = "nim_sum" → summed = true → light = true) := by
    by_cases samples : agent.strategy.build.Samples
    · exact ⟨true, fun _ => rfl, fun key _ => counted agent mem key samples⟩
    · exact ⟨false, fun sampled => absurd sampled samples, nofun⟩
  rcases Nim.dependable_of_get? (known agent mem) (called agent mem) needs with
    ⟨make, found, dependable⟩
  rcases dependable entropy with ⟨gauge, made, dependable⟩
  refine ⟨.searcher agent.name agent.strategy.build gauge agent.omniscient, ?_, ?_⟩
  · simp only [AgentSpec.build, found, made]
    rfl
  · apply Nim.Ready.searcher _ (paced.reports agent mem) sums dependable
    intro count
    apply (TournamentSpec.sound_agents accepted agent mem).endsBy
    exact fun unlimited => paced.passes ⟨agent, mem, unlimited⟩ count

theorem exists_results (accepted : TournamentSpec.read reader raw = .ok spec)
    (known : ∀ agent ∈ spec.agents, agent.evaluator ∈ Nim.gauges.map Prod.fst)
    (scorable : Scorable spec) (paced : Paced spec (clock spec.moveTime)) :
    ∃ results, (run spec Nim.gauges entropies clock).1 = .ok results := by
  rcases (TournamentSpec.sound_game accepted).exists_build with ⟨start, built, closedForm⟩
  have called : ∀ agent ∈ spec.agents, agent.evaluator = "perfect" →
      start.hasClosedForm = true :=
    fun agent mem perfect => closedForm.mpr (scorable.closedForm ⟨agent, mem, perfect⟩)
  have piles_eq : start.piles.map Int.ofNat = spec.game.piles :=
    congrArg Nim.Layout.sizes (Nim.Position.ofSizes_eq_ok.mp built)
  have counted : ∀ agent ∈ spec.agents, agent.evaluator = "nim_sum" →
      agent.strategy.build.Samples →
        decide (∀ size ∈ start.piles, size < 2 ^ Nim.lightBits) = true := by
    intro agent mem nimSum samples
    have light := scorable.light ⟨agent, mem, nimSum, samples⟩
    rw [← piles_eq, List.forall_mem_map] at light
    apply decide_eq_true
    intro size mem
    apply Int.ofNat_lt.mp
    rw [Nat.cast_pow]
    exact light size mem
  have registers : ∃ registered, registry spec Nim.gauges entropies = .ok registered ∧ _ :=
    exists_ready accepted known called counted paced
  rcases registers with ⟨registered, registry_eq, ready⟩
  have plays : (playAll spec (clock spec.moveTime) start registered).Returns _ _ :=
    playAll_returns ⟨id, of_decide_eq_true⟩ ready
  rcases plays with ⟨results, after, played, -⟩
  refine ⟨results, ?_⟩
  simp only [run, registry_eq, built, played]

/-- An accepted tournament runs to completion if its gauges are known, its agents can score its
positions, and the clock lets them come to an end. It returns results in which every two agents have
met, whatever the system gives to the gauges. -/
theorem returns_results (accepted : TournamentSpec.read reader raw = .ok spec)
    (known : ∀ agent ∈ spec.agents, agent.evaluator ∈ Nim.gauges.map Prod.fst)
    (scorable : Scorable spec) (paced : Paced spec (clock spec.moveTime)) :
    ∃ results, (run spec Nim.gauges entropies clock).1 = .ok results ∧ results.RoundRobin ∧
      results.names = spec.agents.map (·.name) := by
  rcases exists_results accepted known scorable paced with ⟨results, returned⟩
  exact ⟨results, returned, roundRobin_of_run returned⟩

/-- A greedy agent as a configuration describes it. -/
def greedyAgent (name evaluator : String) : Config.Value :=
  .record [("name", .text name), ("strategy", .record [("variant", .text "single_level")]),
    ("evaluator", .text evaluator)]

/-- A game with two objects, of which one may be taken at a time, between an agent that goes by the
closed form and one that samples until its time is up. -/
def singlesValue (misere : Bool) : Config.Value :=
  .record [("agents", .list [greedyAgent "perfect" "perfect",
      .record [("name", .text "sampler"), ("strategy", .record [("variant", .text "uct1")]),
        ("evaluator", .text "win_loss")]]),
    ("games_per_matchup", .number (.int 1)),
    ("game", .record [("piles", .list [.number (.int 2)]), ("max_take", .number (.int 1)),
      ("misere", .bool misere)])]

def singlesSpec (misere : Bool) : TournamentSpec :=
  ⟨[⟨"perfect", .singleLevel, "perfect", false⟩, ⟨"sampler", .uct1 1 none, "win_loss", false⟩], 1, 1,
    none, ⟨[2], some 1, misere⟩⟩

theorem read_singlesValue (misere : Bool) :
    TournamentSpec.read .lax (singlesValue misere) = .ok (singlesSpec misere) := by
  have agents : TournamentSpec.readAgents .lax (.list [greedyAgent "perfect" "perfect",
      .record [("name", .text "sampler"), ("strategy", .record [("variant", .text "uct1")]),
        ("evaluator", .text "win_loss")]]) = .ok (singlesSpec misere).agents :=
    TournamentSpec.readAgents_eq_ok.mpr ⟨rfl, by simp [singlesSpec]⟩
  refine TournamentSpec.read_eq_ok.mpr ⟨_, rfl, by simp, ?_, rfl, rfl, rfl, rfl⟩
  exact Config.Entries.read_eq_ok.mpr (.inl ⟨_, rfl, agents⟩)

theorem known_singlesSpec (misere : Bool) :
    ∀ agent ∈ (singlesSpec misere).agents, agent.evaluator ∈ Nim.gauges.map Prod.fst := by
  simp [singlesSpec, Nim.gauges]

/-- A clock by which the third question of a search comes too late. -/
def briskClock : Clock := fun _ _ => .atCheck 3

/-- In normal play the tournament runs to completion. -/
theorem returns_results_singles :
    TournamentSpec.read .lax (singlesValue false) = .ok (singlesSpec false) ∧
    (∀ agent ∈ (singlesSpec false).agents, agent.evaluator ∈ Nim.gauges.map Prod.fst) ∧
    Scorable (singlesSpec false) ∧ Paced (singlesSpec false) (briskClock 1) ∧
    ∃ results, (run (singlesSpec false) Nim.gauges plainEntropies briskClock).1 = .ok results ∧
      results.RoundRobin ∧ results.names = ["perfect", "sampler"] := by
  have scorable : Scorable (singlesSpec false) := by
    constructor
    · rintro - ⟨⟨⟩, -⟩
    · simp [singlesSpec]
  have paced : Paced (singlesSpec false) (briskClock 1) := by
    constructor
    · exact fun _ _ => ⟨3, by decide, rfl⟩
    · simp only [singlesSpec, List.forall_mem_cons]
      exact ⟨fun _ => .inr ⟨_, rfl⟩, fun _ => .inr ⟨_, rfl⟩, List.forall_mem_nil _⟩
  exact ⟨read_singlesValue false, known_singlesSpec false, scorable, paced,
    returns_results (read_singlesValue false) (known_singlesSpec false) scorable paced⟩

/-- In misère play the same tournament is accepted as well, and it is broken off by the first choice
of the agent that goes by the closed form. -/
theorem run_singles_misere :
    TournamentSpec.read .lax (singlesValue true) = .ok (singlesSpec true) ∧
    (∀ agent ∈ (singlesSpec true).agents, agent.evaluator ∈ Nim.gauges.map Prod.fst) ∧
    (run (singlesSpec true) Nim.gauges plainEntropies briskClock).1 = .error .noClosedForm :=
  ⟨read_singlesValue true, known_singlesSpec true, rfl⟩

end Tournament

end GameSearch
