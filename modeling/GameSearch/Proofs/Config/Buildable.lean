import GameSearch.Proofs.Config.Accepted
import GameSearch.Proofs.Nim.Execution

/-!
# Accepted configurations can be built

What an accepted description describes exists: a search to a depth looks at least one ply ahead, a
limit on iterations allows one of them, and a game has a pile, no negative pile and a limit of at
least one object on what may be taken.
-/

namespace GameSearch.Config

variable {Raw α : Type} {reader : Reader Raw} {raw : Raw}

/-- Values that are accepted together are accepted one by one. -/
theorem Checked.mem_of_all {results : List (Checked α)} {values : List α} {value : α}
    (accepted : Checked.all results = .ok values) (mem : value ∈ values) :
    .ok value ∈ results := by
  induction results generalizing values with
  | nil =>
      cases accepted
      cases mem
  | cons result results ih =>
      rcases both_eq_ok.mp accepted with ⟨first, rest, rfl, rest_eq, rfl⟩
      rcases List.mem_cons.mp mem with rfl | later
      · exact List.mem_cons_self
      · exact List.mem_cons_of_mem _ (ih rest_eq later)

namespace Reader

variable {read : Raw → Checked α}

theorem list_eq_ok {least : Nat} {items : List α} : reader.list least read raw = .ok items ↔
    ∃ raws, reader.items raw = .ok raws ∧ Checked.all (raws.zipIdx.map fun item =>
      (read item.1).under (.index item.2)) = .ok items ∧ least ≤ items.length := by
  rw [list]
  cases reader.items raw with
  | error problems => simp
  | ok raws => simp [Checked.require_eq_ok]

/-- An item of an accepted list has been read from a value. -/
theorem exists_of_mem_list {least : Nat} {items : List α} {item : α}
    (accepted : reader.list least read raw = .ok items) (mem : item ∈ items) :
    ∃ raw, read raw = .ok item := by
  rcases list_eq_ok.mp accepted with ⟨raws, -, all_eq, -⟩
  rcases List.mem_map.mp (Checked.mem_of_all all_eq mem) with ⟨⟨raw, index⟩, -, item_eq⟩
  exact ⟨raw, Checked.under_eq_ok.mp item_eq⟩

theorem le_length_of_list {least : Nat} {items : List α}
    (accepted : reader.list least read raw = .ok items) : least ≤ items.length := by
  rcases list_eq_ok.mp accepted with ⟨-, -, -, enough⟩
  exact enough

/-- An optional value that is there has been read. -/
theorem eq_ok_of_optional {item : α} (accepted : reader.optional read raw = .ok (some item)) :
    read raw = .ok item := by
  unfold optional at accepted
  split at accepted
  · cases accepted
  · rcases Checked.map_eq_ok.mp accepted with ⟨found, read_eq, found_eq⟩
    cases found_eq
    exact read_eq

end Reader

namespace Entries

variable {fields : Entries Raw} {name : String}

theorem one_le_of_positive {default number : Int} (default_pos : 1 ≤ default)
    (accepted : fields.read name (some default) reader.positive = .ok number) : 1 ≤ number := by
  apply read_holds _ _ accepted
  · rintro _ ⟨⟩
    exact default_pos
  · intro raw number positive
    exact Reader.one_le_of_positive positive

theorem one_le_of_optional {number? : Option Int} {number : Int}
    (accepted : fields.read name (some none) (reader.optional reader.positive) = .ok number?)
    (given : number? = some number) : 1 ≤ number := by
  revert given
  apply read_holds _ _ accepted
  · rintro _ ⟨⟩ ⟨⟩
  · rintro raw _ positive rfl
    exact Reader.one_le_of_positive (Reader.eq_ok_of_optional positive)

end Entries

namespace StrategySpec

variable {spec : StrategySpec}

/-- Whether the numbers of a description are at least one. -/
def Sound : StrategySpec → Prop
  | singleLevel => True
  | minimax depth | alphaBeta depth => 1 ≤ depth
  | uct1 _ maxIterations => ∀ limit, maxIterations = some limit → 1 ≤ limit

/-- Whether nothing but its deadline bounds the strategy described. -/
def Unlimited : StrategySpec → Prop
  | uct1 _ none => True
  | _ => False

theorem sound_of_read (accepted : read reader raw = .ok spec) : spec.Sound := by
  rcases read_eq_ok.mp accepted with ⟨fields, -, -, filled, -⟩
  cases spec with
  | singleLevel => trivial
  | minimax depth => exact Entries.one_le_of_positive (by decide) filled
  | alphaBeta depth => exact Entries.one_le_of_positive (by decide) filled
  | uct1 exploration maxIterations =>
      exact fun limit given => Entries.one_le_of_optional filled.2 given

end StrategySpec

theorem AgentSpec.sound_of_read {spec : AgentSpec} (accepted : read reader raw = .ok spec) :
    spec.strategy.Sound := by
  rcases read_eq_ok.mp accepted with ⟨fields, -, -, -, strategy_eq, -⟩
  apply Entries.read_holds _ _ strategy_eq
  · rintro _ ⟨⟩
  · exact fun raw strategy given => StrategySpec.sound_of_read given

namespace GameSpec

variable {spec : GameSpec}

/-- Whether a description is one of a position. -/
structure Sound (spec : GameSpec) : Prop where
  piles_ne_nil : spec.piles ≠ []
  piles_nonneg : ∀ size ∈ spec.piles, 0 ≤ size
  one_le_maxTake : ∀ most, spec.maxTake = some most → 1 ≤ most

theorem sound_default : default.Sound :=
  ⟨by decide, by decide, nofun⟩

theorem sound_of_read (accepted : read reader raw = .ok spec) : spec.Sound := by
  rcases read_eq_ok.mp accepted with ⟨fields, -, -, piles_eq, maxTake_eq, -⟩
  have piled : spec.piles ≠ [] ∧ ∀ size ∈ spec.piles, 0 ≤ size := by
    generalize spec.piles = piles at piles_eq
    apply Entries.read_holds _ _ piles_eq
    · rintro _ ⟨⟩
      exact ⟨sound_default.piles_ne_nil, sound_default.piles_nonneg⟩
    · intro raw sizes given
      rcases Checked.require_eq_ok.mp given with ⟨listed, nonneg⟩
      constructor
      · exact List.ne_nil_of_length_pos (Reader.le_length_of_list listed)
      · simpa using nonneg
  exact ⟨piled.1, piled.2, fun most given => Entries.one_le_of_optional maxTake_eq given⟩

/-- The position of a sound description exists, and it has a closed form unless the description
combines misère play with a limit. -/
theorem Sound.exists_build (sound : spec.Sound) : ∃ start, spec.build = .ok start ∧
    (start.hasClosedForm = true ↔ ¬(spec.misere = true ∧ spec.maxTake ≠ none)) := by
  have nonneg : (spec.piles.map Int.toNat).map Int.ofNat = spec.piles := by
    rw [List.map_map]
    conv_rhs => rw [← List.map_id spec.piles]
    apply List.map_congr_left
    intro size mem
    exact Int.toNat_of_nonneg (sound.piles_nonneg size mem)
  have limited : (spec.maxTake.map Int.toNat).map Int.ofNat = spec.maxTake := by
    cases given : spec.maxTake with
    | none => rfl
    | some most =>
        have := sound.one_le_maxTake most given
        simp only [Option.map_some, Int.ofNat_eq_natCast, Option.some.injEq]
        omega
  have positive : ∀ most, spec.maxTake.map Int.toNat = some most → 0 < most := by
    intro most given
    rcases Option.map_eq_some_iff.mp given with ⟨limit, limit_eq, rfl⟩
    have := sound.one_le_maxTake limit limit_eq
    omega
  let start : Nim.Position := ⟨spec.piles.map Int.toNat, .one, spec.maxTake.map Int.toNat,
    spec.misere, by simpa using sound.piles_ne_nil, positive⟩
  refine ⟨start, Nim.Position.ofSizes_eq_ok.mpr ?_, ?_⟩
  · simp only [Nim.Position.layout, start, nonneg, limited]
  · simp only [Nim.Position.hasClosedForm, start]
    cases spec.maxTake <;> simp

end GameSpec

namespace TournamentSpec

variable {spec : TournamentSpec}

theorem sound_game (accepted : read reader raw = .ok spec) : spec.game.Sound := by
  rcases read_eq_ok.mp accepted with ⟨fields, -, -, -, -, -, -, game_eq⟩
  apply Entries.read_holds _ _ game_eq
  · rintro _ ⟨⟩
    exact GameSpec.sound_default
  · exact fun raw game given => GameSpec.sound_of_read given

theorem accepted_agents (accepted : read reader raw = .ok spec) :
    ∃ raw, readAgents reader raw = .ok spec.agents := by
  rcases read_eq_ok.mp accepted with ⟨fields, -, -, agents_eq, -⟩
  rcases Entries.read_eq_ok.mp agents_eq with ⟨raw, -, given⟩ | ⟨-, absent⟩
  · exact ⟨raw, given⟩
  · cases absent

theorem nodup_names (accepted : read reader raw = .ok spec) : (spec.agents.map (·.name)).Nodup := by
  rcases accepted_agents accepted with ⟨raw, given⟩
  exact (readAgents_eq_ok.mp given).2

theorem sound_agents (accepted : read reader raw = .ok spec) :
    ∀ agent ∈ spec.agents, agent.strategy.Sound := by
  intro agent mem
  rcases accepted_agents accepted with ⟨raw, given⟩
  rcases Reader.exists_of_mem_list (readAgents_eq_ok.mp given).1 mem with ⟨raw, read_eq⟩
  exact AgentSpec.sound_of_read read_eq

end TournamentSpec

end GameSearch.Config
