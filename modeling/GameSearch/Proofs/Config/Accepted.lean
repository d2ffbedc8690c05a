import GameSearch.Config.Tournament
import Mathlib.Data.List.Nodup

/-!
# Accepted configurations

A configuration is accepted if all its parts are. What is known of a field holds of every value that
reading it can give and of its default. This does not depend on the library that reads the parts.
-/

namespace GameSearch.Config

variable {Raw α β γ : Type} {reader : Reader Raw} {raw : Raw}

namespace Checked

theorem both_eq_ok {combine : α → β → γ} {first : Checked α} {second : Checked β} {value : γ} :
    both combine first second = .ok value ↔
      ∃ left right, first = .ok left ∧ second = .ok right ∧ combine left right = value := by
  cases first <;> cases second <;> simp [both]

theorem map_eq_ok {change : α → β} {result : Checked α} {value : β} :
    result.map change = .ok value ↔ ∃ read, result = .ok read ∧ change read = value := by
  cases result <;> simp [Except.map]

theorem require_eq_ok {holds : α → Bool} {cause : α → Cause} {result : Checked α} {value : α} :
    result.require holds cause = .ok value ↔ result = .ok value ∧ holds value = true := by
  cases result with
  | error problems => simp [require]
  | ok read =>
      rw [require, Except.ok.injEq]
      constructor
      · intro accepted
        split at accepted
        · cases accepted
          exact ⟨rfl, ‹_›⟩
        · cases accepted
      · rintro ⟨rfl, held⟩
        exact if_pos held

theorem under_eq_ok {step : Step} {result : Checked α} {value : α} :
    result.under step = .ok value ↔ result = .ok value := by
  cases result <;> simp [under, Except.mapError]

end Checked

namespace Entries

variable {fields : Entries Raw} {name : String} {default? : Option α} {read : Raw → Checked α}
  {known : List String} {value : α}

theorem read_eq_ok : fields.read name default? read = .ok value ↔
    (∃ raw, fields.get? name = some raw ∧ read raw = .ok value) ∨
      (fields.get? name = none ∧ default? = some value) := by
  unfold Entries.read
  cases fields.get? name with
  | some raw => simp [Checked.under_eq_ok]
  | none => cases default? <;> simp [Checked.under_eq_ok, Checked.refuse]

/-- What holds of the default and of all that can be read holds of the field. -/
theorem read_holds {holds : α → Prop} (ofDefault : ∀ value, default? = some value → holds value)
    (ofRead : ∀ raw value, read raw = .ok value → holds value)
    (accepted : fields.read name default? read = .ok value) : holds value := by
  rcases read_eq_ok.mp accepted with ⟨raw, -, given⟩ | ⟨-, absent⟩
  · exact ofRead raw value given
  · exact ofDefault value absent

/-- An accepted record has no fields but the known ones. -/
theorem close_eq_ok {result : Checked α} : fields.close known result = .ok value ↔
    result = .ok value ∧ ∀ field ∈ fields, field.1 ∈ known := by
  unfold close
  simp only [List.isEmpty_iff, List.filter_eq_nil_iff, decide_eq_true_eq, Decidable.not_not]
  split
  · exact (and_iff_left ‹_›).symm
  · constructor
    · intro accepted
      obtain ⟨_, _, -, refused, -⟩ := Checked.both_eq_ok.mp accepted
      cases refused
    · rintro ⟨-, closed⟩
      contradiction

end Entries

theorem Reader.one_le_of_positive {number : Int} (accepted : reader.positive raw = .ok number) :
    1 ≤ number :=
  of_decide_eq_true (Checked.require_eq_ok.mp accepted).2

theorem Reader.literal_eq_ok {word : String} :
    reader.literal word raw = .ok () ↔ reader.word? raw = some word := by
  simp [literal, Checked.refuse]

theorem Variant.ofName?_eq_some_iff {name : String} {variant : Variant} :
    ofName? name = some variant ↔ name = variant.name := by
  constructor
  · intro named
    have matched := List.find?_some named
    exact (beq_iff_eq.mp matched).symm
  · rintro rfl
    cases variant <;> rfl

/-- The fields that descriptions of a kind of strategies may have. -/
def Variant.fieldNames : Variant → List String
  | singleLevel => ["variant"]
  | minimax | alphaBeta => ["variant", "search_depth"]
  | uct1 => ["variant", "exploration", "max_iterations"]

namespace StrategySpec

variable {fields : Entries Raw} {spec : StrategySpec}

/-- What a description says is what the fields of its kind hold. -/
def Fills (reader : Reader Raw) (fields : Entries Raw) : StrategySpec → Prop
  | singleLevel => True
  | minimax depth | alphaBeta depth =>
      fields.read "search_depth" (some 4) reader.positive = .ok depth
  | uct1 exploration maxIterations =>
      fields.read "exploration" (some 1) (fun raw =>
        (reader.double raw).require (fun exploration => decide (0 ≤ exploration))
          fun _ => .greaterThanEqual) = .ok exploration ∧
      fields.read "max_iterations" (some none) (reader.optional reader.positive) =
        .ok maxIterations

theorem readEntries_eq_ok {variant : Variant} : variant.readEntries reader fields = .ok spec ↔
    spec.variant = variant ∧
    fields.read "variant" (some ()) (reader.literal variant.name) = .ok () ∧
    Fills reader fields spec ∧ ∀ field ∈ fields, field.1 ∈ variant.fieldNames := by
  constructor
  · intro accepted
    cases variant with
    | singleLevel =>
        rcases Entries.close_eq_ok.mp accepted with ⟨described, known⟩
        rcases Checked.map_eq_ok.mp described with ⟨_, tagged, rfl⟩
        exact ⟨rfl, tagged, trivial, known⟩
    | minimax =>
        rcases Entries.close_eq_ok.mp accepted with ⟨described, known⟩
        rcases Checked.both_eq_ok.mp described with ⟨_, depth, tagged, depth_eq, rfl⟩
        exact ⟨rfl, tagged, depth_eq, known⟩
    | alphaBeta =>
        rcases Entries.close_eq_ok.mp accepted with ⟨described, known⟩
        rcases Checked.both_eq_ok.mp described with ⟨_, depth, tagged, depth_eq, rfl⟩
        exact ⟨rfl, tagged, depth_eq, known⟩
    | uct1 =>
        rcases Entries.close_eq_ok.mp accepted with ⟨described, known⟩
        rcases Checked.both_eq_ok.mp described with
          ⟨exploration, maxIterations, explored, limited, rfl⟩
        rcases Checked.both_eq_ok.mp explored with ⟨_, exploration, tagged, exploration_eq, rfl⟩
        exact ⟨rfl, tagged, ⟨exploration_eq, limited⟩, known⟩
  · rintro ⟨rfl, tagged, filled, known⟩
    cases spec with
    | singleLevel =>
        exact Entries.close_eq_ok.mpr ⟨Checked.map_eq_ok.mpr ⟨(), tagged, rfl⟩, known⟩
    | minimax depth =>
        refine Entries.close_eq_ok.mpr ⟨?_, known⟩
        exact Checked.both_eq_ok.mpr ⟨(), depth, tagged, filled, rfl⟩
    | alphaBeta depth =>
        refine Entries.close_eq_ok.mpr ⟨?_, known⟩
        exact Checked.both_eq_ok.mpr ⟨(), depth, tagged, filled, rfl⟩
    | uct1 exploration maxIterations =>
        refine Entries.close_eq_ok.mpr ⟨Checked.both_eq_ok.mpr ?_, known⟩
        refine ⟨exploration, maxIterations, Checked.both_eq_ok.mpr ?_, filled.2, rfl⟩
        exact ⟨(), exploration, tagged, filled.1, rfl⟩

/-- An accepted strategy names its kind and has the known fields of that only, and each of them is
accepted. -/
theorem read_eq_ok : read reader raw = .ok spec ↔ ∃ fields : Entries Raw,
    reader.entries .modelAttributesType raw = .ok fields ∧
    (∃ tag, fields.get? "variant" = some tag ∧ reader.word? tag = some spec.variant.name) ∧
    Fills reader fields spec ∧ ∀ field ∈ fields, field.1 ∈ spec.variant.fieldNames := by
  constructor
  · intro accepted
    unfold read at accepted
    split at accepted
    · cases accepted
    rename_i fields record
    split at accepted
    · cases accepted
    rename_i tag tagged
    split at accepted
    · rename_i variant named
      rcases Option.bind_eq_some_iff.mp named with ⟨name, word, named⟩
      rcases readEntries_eq_ok.mp (Checked.under_eq_ok.mp accepted) with ⟨rfl, -, filled, known⟩
      rw [Variant.ofName?_eq_some_iff.mp named] at word
      exact ⟨fields, record, ⟨tag, tagged, word⟩, filled, known⟩
    · cases accepted
  · rintro ⟨fields, record, ⟨tag, tagged, word⟩, filled, known⟩
    have literal : fields.read "variant" (some ()) (reader.literal spec.variant.name) = .ok () :=
      Entries.read_eq_ok.mpr (.inl ⟨tag, tagged, Reader.literal_eq_ok.mpr word⟩)
    simp only [read, record, tagged, word, Option.bind_some, Variant.ofName?_eq_some_iff.mpr rfl]
    exact Checked.under_eq_ok.mpr (readEntries_eq_ok.mpr ⟨rfl, literal, filled, known⟩)

end StrategySpec

/-- An accepted agent has the known fields only, and each of them is accepted. -/
theorem AgentSpec.read_eq_ok {spec : AgentSpec} : read reader raw = .ok spec ↔
    ∃ fields : Entries Raw, reader.entries .modelType raw = .ok fields ∧
    (∀ field ∈ fields, field.1 ∈ ["name", "strategy", "evaluator", "omniscient"]) ∧
    fields.read "name" none (fun raw =>
      (reader.text raw).require (fun name => !name.isEmpty) fun _ => .stringTooShort) =
        .ok spec.name ∧
    fields.read "strategy" none (StrategySpec.read reader) = .ok spec.strategy ∧
    fields.read "evaluator" none reader.text = .ok spec.evaluator ∧
    fields.read "omniscient" (some false) reader.bool = .ok spec.omniscient := by
  unfold read
  constructor
  · intro accepted
    cases record : reader.entries .modelType raw with
    | error problems =>
        rw [record] at accepted
        cases accepted
    | ok fields =>
        simp only [record, Entries.close_eq_ok, Checked.both_eq_ok] at accepted
        obtain ⟨⟨_, omniscient, ⟨_, evaluator, ⟨name, strategy, name_eq, strategy_eq, rfl⟩,
          evaluator_eq, rfl⟩, omniscient_eq, rfl⟩, known⟩ := accepted
        exact ⟨fields, rfl, known, name_eq, strategy_eq, evaluator_eq, omniscient_eq⟩
  · rintro ⟨fields, record, known, name_eq, strategy_eq, evaluator_eq, omniscient_eq⟩
    simp only [record, Entries.close_eq_ok, name_eq, strategy_eq, evaluator_eq, omniscient_eq]
    exact ⟨rfl, known⟩

/-- An accepted game has the known fields only, and each of them is accepted. -/
theorem GameSpec.read_eq_ok {spec : GameSpec} : read reader raw = .ok spec ↔
    ∃ fields : Entries Raw, reader.entries .modelType raw = .ok fields ∧
    (∀ field ∈ fields, field.1 ∈ ["piles", "max_take", "misere"]) ∧
    fields.read "piles" (some default.piles) (readPiles reader) = .ok spec.piles ∧
    fields.read "max_take" (some none) (reader.optional reader.positive) = .ok spec.maxTake ∧
    fields.read "misere" (some false) reader.bool = .ok spec.misere := by
  unfold read
  constructor
  · intro accepted
    cases record : reader.entries .modelType raw with
    | error problems =>
        rw [record] at accepted
        cases accepted
    | ok fields =>
        simp only [record, Entries.close_eq_ok, Checked.both_eq_ok] at accepted
        obtain ⟨⟨_, misere, ⟨piles, maxTake, piles_eq, maxTake_eq, rfl⟩, misere_eq, rfl⟩, known⟩ :=
          accepted
        exact ⟨fields, rfl, known, piles_eq, maxTake_eq, misere_eq⟩
  · rintro ⟨fields, record, known, piles_eq, maxTake_eq, misere_eq⟩
    simp only [record, Entries.close_eq_ok, piles_eq, maxTake_eq, misere_eq]
    exact ⟨rfl, known⟩

namespace TournamentSpec

variable {spec : TournamentSpec} {agents : List AgentSpec}

theorem duplicates_eq_nil_iff {names : List String} : duplicates names = [] ↔ names.Nodup := by
  rw [duplicates, ← List.length_eq_zero_iff, List.length_mergeSort, List.length_eq_zero_iff,
    List.eq_nil_iff_forall_not_mem, List.nodup_iff_count_le_one]
  simp only [List.mem_eraseDups, List.mem_filter, decide_eq_true_eq, not_and, Nat.not_lt]
  constructor
  · intro single name
    by_cases mem : name ∈ names
    · exact single name mem
    · rw [List.count_eq_zero_of_not_mem mem]
      exact Nat.zero_le 1
  · intro single name _
    exact single name

theorem readAgents_eq_ok : readAgents reader raw = .ok agents ↔
    reader.list 2 (AgentSpec.read reader) raw = .ok agents ∧ (agents.map (·.name)).Nodup := by
  rw [readAgents, Checked.require_eq_ok, List.isEmpty_iff, duplicates_eq_nil_iff]

/-- An accepted tournament has the known fields only, and each of them is accepted. -/
theorem read_eq_ok : read reader raw = .ok spec ↔ ∃ fields : Entries Raw,
    reader.entries .modelType raw = .ok fields ∧
    (∀ field ∈ fields,
      field.1 ∈ ["agents", "games_per_matchup", "move_time", "max_turns", "game"]) ∧
    fields.read "agents" none (readAgents reader) = .ok spec.agents ∧
    fields.read "games_per_matchup" (some 2) reader.positive = .ok spec.gamesPerMatchup ∧
    fields.read "move_time" (some 1) (fun raw =>
      (reader.double raw).require (fun seconds => decide (0 < seconds)) fun _ => .greaterThan) =
        .ok spec.moveTime ∧
    fields.read "max_turns" (some none) (reader.optional reader.positive) = .ok spec.maxTurns ∧
    fields.read "game" (some .default) (GameSpec.read reader) = .ok spec.game := by
  unfold read
  constructor
  · intro accepted
    cases record : reader.entries .modelType raw with
    | error problems =>
        rw [record] at accepted
        cases accepted
    | ok fields =>
        simp only [record, Entries.close_eq_ok, Checked.both_eq_ok] at accepted
        obtain ⟨⟨_, game, ⟨_, maxTurns, ⟨_, moveTime, ⟨agents, games, agents_eq, games_eq, rfl⟩,
          moveTime_eq, rfl⟩, maxTurns_eq, rfl⟩, game_eq, rfl⟩, known⟩ := accepted
        exact ⟨fields, rfl, known, agents_eq, games_eq, moveTime_eq, maxTurns_eq, game_eq⟩
  · rintro ⟨fields, record, known, agents_eq, games_eq, moveTime_eq, maxTurns_eq, game_eq⟩
    simp only [record, Entries.close_eq_ok, agents_eq, games_eq, moveTime_eq, maxTurns_eq, game_eq]
    exact ⟨rfl, known⟩

theorem one_le_gamesPerMatchup (accepted : read reader raw = .ok spec) :
    1 ≤ spec.gamesPerMatchup := by
  rcases read_eq_ok.mp accepted with ⟨fields, -, -, -, games, -⟩
  apply Entries.read_holds _ _ games
  · rintro _ ⟨⟩
    decide
  · intro raw number positive
    exact Reader.one_le_of_positive positive

end TournamentSpec

end GameSearch.Config
