import GameSearch.Proofs.Config.Lawful
import GameSearch.Proofs.Contest.Completion

/-!
# Accepted configurations are stable

A value that is accepted in one of its guises is kept in one form: texts are trimmed, numbers are
numbers, and absent fields have their defaults. That form is accepted again and means the same. So
reading the dump of an accepted description gives the description, at every level of it: the scalars
first, then the strategies, agents and games, and the tournament at last.

This holds for every library that keeps its laws. White space is what the character database calls
so; trimming leaves the separators among the control characters alone.
-/

namespace GameSearch.Config

variable {Raw : Type} {reader : Reader Raw} {plain : Value → Raw} {raw : Raw}

namespace StrategySpec

variable {spec : StrategySpec}

/-- Whether the exploration of a strategy is not negative, if it has one. -/
def Explores : StrategySpec → Prop
  | uct1 exploration _ => 0 ≤ exploration
  | _ => True

/-- Whether the exploration of a strategy is finite, if it has one. -/
def Finite : StrategySpec → Prop
  | uct1 exploration _ => Double.IsFinite exploration
  | _ => True

theorem explores_of_read (accepted : read reader raw = .ok spec) : spec.Explores := by
  rcases read_eq_ok.mp accepted with ⟨fields, -, -, filled, -⟩
  cases spec with
  | singleLevel => trivial
  | minimax depth => trivial
  | alphaBeta depth => trivial
  | uct1 exploration maxIterations =>
      change 0 ≤ exploration
      apply Entries.read_holds _ _ filled.1
      · rintro _ ⟨⟩
        decide +kernel
      · intro raw exploration bounded
        exact of_decide_eq_true (Checked.require_eq_ok.mp bounded).2

theorem read_dump (lawful : reader.Lawful plain) (sound : spec.Sound) (explores : spec.Explores)
    (finite : spec.Finite) : read reader (plain spec.dump) = .ok spec := by
  refine read_eq_ok.mpr ⟨_, lawful.entries_plain _ _ (by cases spec <;> simp), ?_, ?_,
    by cases spec <;> simp [variant, Variant.fieldNames]⟩
  · exact ⟨_, Entries.get?_plain plain _ _, lawful.word?_plain _⟩
  cases spec with
  | singleLevel => trivial
  | minimax depth => exact Entries.read_plain rfl (lawful.positive_plain sound)
  | alphaBeta depth => exact Entries.read_plain rfl (lawful.positive_plain sound)
  | uct1 exploration maxIterations =>
      have explored : (reader.double (plain (.number (.real exploration)))).require
          (fun exploration => decide (0 ≤ exploration)) (fun _ => .greaterThanEqual) =
          .ok exploration :=
        Checked.require_eq_ok.mpr ⟨lawful.double_plain exploration finite, decide_eq_true explores⟩
      constructor
      · exact Entries.read_plain rfl explored
      · exact Entries.read_plain rfl (lawful.optional_plain sound)

end StrategySpec

namespace AgentSpec

variable {spec : AgentSpec}

/-- An agent as it is after reading: with a name, and its texts trimmed. -/
structure Kept (spec : AgentSpec) : Prop where
  name_ne : spec.name ≠ ""
  name_trimmed : Text.Trimmed Text.isSpace spec.name.toList
  evaluator_trimmed : Text.Trimmed Text.isSpace spec.evaluator.toList
  sound : spec.strategy.Sound
  explores : spec.strategy.Explores

theorem kept_of_read (lawful : reader.Lawful plain) (accepted : read reader raw = .ok spec) :
    spec.Kept := by
  have sound := sound_of_read accepted
  rcases read_eq_ok.mp accepted with ⟨fields, -, -, name_eq, strategy_eq, evaluator_eq, -⟩
  rcases Entries.read_eq_ok.mp name_eq with ⟨rawName, -, named⟩ | ⟨-, ⟨⟩⟩
  rcases Entries.read_eq_ok.mp strategy_eq with ⟨rawStrategy, -, described⟩ | ⟨-, ⟨⟩⟩
  rcases Entries.read_eq_ok.mp evaluator_eq with ⟨rawKey, -, keyed⟩ | ⟨-, ⟨⟩⟩
  rcases Checked.require_eq_ok.mp named with ⟨text_eq, filled⟩
  exact {
    name_ne := by simpa using filled
    name_trimmed := lawful.trimmed_of_text rawName spec.name text_eq
    evaluator_trimmed := lawful.trimmed_of_text rawKey spec.evaluator keyed
    sound := sound
    explores := StrategySpec.explores_of_read described }

theorem Kept.read_dump (kept : spec.Kept) (lawful : reader.Lawful plain)
    (finite : spec.strategy.Finite) : read reader (plain spec.dump) = .ok spec := by
  refine read_eq_ok.mpr ⟨_, lawful.entries_plain _ _ (by simp), by simp, ?_, ?_, ?_, ?_⟩
  · have named := lawful.text_plain spec.name kept.name_trimmed
    exact Entries.read_plain rfl (Checked.require_eq_ok.mpr ⟨named, by simpa using kept.name_ne⟩)
  · exact Entries.read_plain rfl (StrategySpec.read_dump lawful kept.sound kept.explores finite)
  · exact Entries.read_plain rfl (lawful.text_plain spec.evaluator kept.evaluator_trimmed)
  · exact Entries.read_plain rfl (lawful.bool_plain spec.omniscient)

end AgentSpec

namespace GameSpec

variable {spec : GameSpec}

theorem Sound.read_dump (sound : spec.Sound) (lawful : reader.Lawful plain) :
    read reader (plain spec.dump) = .ok spec := by
  have piles_read : readPiles reader
      (plain (.list (spec.piles.map fun size => .number (.int size)))) = .ok spec.piles := by
    refine Checked.require_eq_ok.mpr ⟨?_, by simpa using sound.piles_nonneg⟩
    apply lawful.list_plain _ (List.length_pos_of_ne_nil sound.piles_ne_nil)
    exact fun size _ => lawful.integer_plain size
  refine read_eq_ok.mpr ⟨_, lawful.entries_plain _ _ (by simp), by simp, ?_, ?_, ?_⟩
  · exact Entries.read_plain rfl piles_read
  · exact Entries.read_plain rfl (lawful.optional_plain sound.one_le_maxTake)
  · exact Entries.read_plain rfl (lawful.bool_plain spec.misere)

/-- The position of a sound description is laid out as described. -/
theorem Sound.exists_layout (sound : spec.Sound) : ∃ start, spec.build = .ok start ∧
    start.layout = ⟨spec.piles, .one, spec.maxTake, spec.misere⟩ := by
  rcases sound.exists_build with ⟨start, built, -⟩
  exact ⟨start, built, Nim.Position.ofSizes_eq_ok.mp built⟩

end GameSpec

namespace TournamentSpec

variable {spec : TournamentSpec}

/-- Whether all doubles of a description are finite. -/
structure Finite (spec : TournamentSpec) : Prop where
  moveTime : Double.IsFinite spec.moveTime
  strategies : ∀ agent ∈ spec.agents, agent.strategy.Finite

theorem kept_agents (lawful : reader.Lawful plain) (accepted : read reader raw = .ok spec) :
    ∀ agent ∈ spec.agents, agent.Kept := by
  intro agent mem
  rcases accepted_agents accepted with ⟨rawAgents, given⟩
  rcases Reader.exists_of_mem_list (readAgents_eq_ok.mp given).1 mem with ⟨rawAgent, read_eq⟩
  exact AgentSpec.kept_of_read lawful read_eq

theorem readAgents_dump (lawful : reader.Lawful plain) (accepted : read reader raw = .ok spec)
    (finite : spec.Finite) :
    readAgents reader (plain (.list (spec.agents.map AgentSpec.dump))) = .ok spec.agents := by
  rcases accepted_agents accepted with ⟨rawAgents, given⟩
  rcases readAgents_eq_ok.mp given with ⟨listed, nodup⟩
  refine readAgents_eq_ok.mpr ⟨?_, nodup⟩
  apply lawful.list_plain _ (Reader.le_length_of_list listed)
  intro agent mem
  exact (kept_agents lawful accepted agent mem).read_dump lawful (finite.strategies agent mem)

theorem moveTime_pos (accepted : read reader raw = .ok spec) : 0 < spec.moveTime := by
  rcases read_eq_ok.mp accepted with ⟨fields, -, -, -, -, moveTime_eq, -⟩
  apply Entries.read_holds _ _ moveTime_eq
  · rintro _ ⟨⟩
    decide +kernel
  · intro raw seconds bounded
    exact of_decide_eq_true (Checked.require_eq_ok.mp bounded).2

theorem one_le_maxTurns (accepted : read reader raw = .ok spec) :
    ∀ turns, spec.maxTurns = some turns → 1 ≤ turns := by
  rcases read_eq_ok.mp accepted with ⟨fields, -, -, -, -, -, maxTurns_eq, -⟩
  exact fun turns given => Entries.one_le_of_optional maxTurns_eq given

/-- The dump of an accepted description is accepted and describes the same. -/
theorem read_dump (lawful : reader.Lawful plain) (accepted : read reader raw = .ok spec)
    (finite : spec.Finite) : read reader (plain spec.dump) = .ok spec := by
  have timed : (reader.double (plain (.number (.real spec.moveTime)))).require
      (fun seconds => decide (0 < seconds)) (fun _ => .greaterThan) = .ok spec.moveTime :=
    Checked.require_eq_ok.mpr ⟨lawful.double_plain spec.moveTime finite.moveTime,
      decide_eq_true (moveTime_pos accepted)⟩
  refine read_eq_ok.mpr ⟨_, lawful.entries_plain _ _ (by simp), by simp, ?_, ?_, ?_, ?_, ?_⟩
  · exact Entries.read_plain rfl (readAgents_dump lawful accepted finite)
  · exact Entries.read_plain rfl (lawful.positive_plain (one_le_gamesPerMatchup accepted))
  · exact Entries.read_plain rfl timed
  · exact Entries.read_plain rfl (lawful.optional_plain (one_le_maxTurns accepted))
  · exact Entries.read_plain rfl ((sound_game accepted).read_dump lawful)

theorem exists_registry_named (accepted : read reader raw = .ok spec) {gauges : Nim.GaugeTable}
    (known : ∀ agent ∈ spec.agents, ∃ make, gauges.get? agent.evaluator = some make ∧
      ∀ entropy, ∃ gauge, make entropy = .ok gauge) (entropies : Tournament.Entropies) :
    ∃ registered, Tournament.registry spec gauges entropies = .ok registered ∧
      registered.names = spec.agents.map (·.name) := by
  have built : ∀ agent ∈ spec.agents, ∀ entropy,
      ∃ player, agent.build gauges entropy = .ok player ∧ True := by
    intro agent mem entropy
    rcases known agent mem with ⟨make, found, makes⟩
    rcases makes entropy with ⟨gauge, made⟩
    refine ⟨.searcher agent.name agent.strategy.build gauge agent.omniscient, ?_, trivial⟩
    simp only [AgentSpec.build, found, made]
    rfl
  rcases Tournament.exists_registry (fun _ => True) (nodup_names accepted) built with
    ⟨registered, registry_eq, -⟩
  exact ⟨registered, registry_eq, Tournament.names_registry registry_eq⟩

/-- Whatever a lawful library accepts, it describes agents with names, which are trimmed and
distinct, and a starting position. The agents are registered under their names, in order, in any
table that has their gauges, and, as long as its doubles are finite, the dump of the description is
accepted and describes the same tournament. -/
theorem accepted_stable (lawful : reader.Lawful plain) (accepted : read reader raw = .ok spec) :
    (∀ agent ∈ spec.agents,
      agent.name ≠ "" ∧ Text.Trimmed Text.isSpace agent.name.toList) ∧
    (spec.agents.map (·.name)).Nodup ∧
    (∃ start, spec.game.build = .ok start ∧
      start.layout = ⟨spec.game.piles, .one, spec.game.maxTake, spec.game.misere⟩) ∧
    (∀ gauges : Nim.GaugeTable,
      (∀ agent ∈ spec.agents, ∃ make, gauges.get? agent.evaluator = some make ∧
        ∀ entropy, ∃ gauge, make entropy = .ok gauge) →
      ∀ entropies, ∃ registered, Tournament.registry spec gauges entropies = .ok registered ∧
        registered.names = spec.agents.map (·.name)) ∧
    (spec.Finite → read reader (plain spec.dump) = .ok spec) := by
  refine ⟨?_, nodup_names accepted, (sound_game accepted).exists_layout, ?_,
    read_dump lawful accepted⟩
  · intro agent mem
    have kept := kept_agents lawful accepted agent mem
    exact ⟨kept.name_ne, kept.name_trimmed⟩
  · exact fun gauges known => exists_registry_named accepted known

/-- Two agents and a game in other guises: names with white space around them, numbers as texts and
as doubles, booleans as words and numbers. -/
def guisedValue : Value :=
  .record [("agents", .list [
      .record [("name", .text " deep "), ("evaluator", .text "win_loss\n"),
        ("strategy", .record [("variant", .text "minimax"), ("search_depth", .text " +0_3.0 ")])],
      .record [("name", .text "deeper"), ("evaluator", .text "nim_sum"), ("omniscient", .text "Yes"),
        ("strategy", .record [("variant", .text "uct1"), ("exploration", .number (.int 2)),
          ("max_iterations", .bool true)])]]),
    ("move_time", .bool true),
    ("game", .record [("piles", .list [.text "03", .bool true]), ("max_take", .null),
      ("misere", .number (.int 1))])]

/-- What it describes. -/
def guisedSpec : TournamentSpec :=
  ⟨[⟨"deep", .minimax 3, "win_loss", false⟩,
    ⟨"deeper", .uct1 (Number.toFloat (.int 2)) (some 1), "nim_sum", true⟩], 2, 1, none,
    ⟨[3, 1], none, true⟩⟩

theorem read_guisedValue : read .lax guisedValue = .ok guisedSpec := by
  refine read_eq_ok.mpr ⟨_, rfl, by simp, ?_, rfl, rfl, rfl, rfl⟩
  refine Entries.read_eq_ok.mpr (.inl ⟨_, rfl, ?_⟩)
  exact readAgents_eq_ok.mpr ⟨rfl, by simp [guisedSpec]⟩

/-- Its agents are registered under the names without white space, and its dump describes the same. -/
theorem accepted_stable_guised :
    Reader.lax.Lawful id ∧ read .lax guisedValue = .ok guisedSpec ∧ guisedSpec.Finite ∧
    (∃ registered, Tournament.registry guisedSpec Nim.gauges Tournament.plainEntropies =
      .ok registered ∧ registered.names = ["deep", "deeper"]) ∧
    read .lax guisedSpec.dump = .ok guisedSpec := by
  have finite : guisedSpec.Finite := by
    constructor
    · exact ⟨1, by decide +kernel⟩
    · simp only [guisedSpec, List.forall_mem_cons]
      exact ⟨trivial, ⟨2, by decide +kernel⟩, List.forall_mem_nil _⟩
  rcases accepted_stable Reader.lawful_lax read_guisedValue with ⟨-, -, -, registers, dumped⟩
  refine ⟨Reader.lawful_lax, read_guisedValue, finite, registers Nim.gauges ?_ _, dumped finite⟩
  simp only [guisedSpec, List.forall_mem_cons]
  exact ⟨⟨_, rfl, fun _ => ⟨_, rfl⟩⟩, ⟨_, rfl, fun _ => ⟨_, rfl⟩⟩, List.forall_mem_nil _⟩

/-- An agent whose name begins with a separator, as a configuration describes it. -/
def separatedValue : Value :=
  .record [("agents", .list [Tournament.greedyAgent "\x1cdeep" "win_loss",
    Tournament.greedyAgent "deeper" "win_loss"])]

def separatedSpec : TournamentSpec :=
  ⟨[⟨"\x1cdeep", .singleLevel, "win_loss", false⟩, ⟨"deeper", .singleLevel, "win_loss", false⟩],
    2, 1, none, .default⟩

/-- The separator is blank, but a lawful library does not trim it. -/
theorem accepted_separated :
    Reader.lax.Lawful id ∧ read .lax separatedValue = .ok separatedSpec ∧
    ∃ agent ∈ separatedSpec.agents, ¬Text.Trimmed Text.isBlank agent.name.toList := by
  refine ⟨Reader.lawful_lax, ?_, _, List.mem_cons_self, ?_⟩
  · refine read_eq_ok.mpr ⟨_, rfl, by simp, ?_, rfl, rfl, rfl, rfl⟩
    refine Entries.read_eq_ok.mpr (.inl ⟨_, rfl, ?_⟩)
    exact readAgents_eq_ok.mpr ⟨rfl, by simp [separatedSpec]⟩
  · intro trimmed
    have first := trimmed.first '\x1c' rfl
    exact absurd first (by decide)

end TournamentSpec

end GameSearch.Config
