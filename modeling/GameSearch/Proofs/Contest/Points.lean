import GameSearch.Proofs.Contest.RoundRobin
import GameSearch.Proofs.Number.Half
import Mathlib.Algebra.Order.BigOperators.Group.List

/-!
# Points

Every game of a matchup brings one point: to the winner, or half of it to either side. So whatever
matchups there are, what all agents have gained comes to the games that they have played.

Points are counted in halves here, as integers; the doubles that add them up are exact as long as
these integers fit into the mantissa.
-/

namespace GameSearch

/-- What two distinct items come to one way and the other, summed over all of them, is the sum over
their pairs. -/
theorem sum_pairs {α : Type} [DecidableEq α] {items : List α} (nodup : items.Nodup)
    (value : α → α → Int) :
    (items.map fun item =>
        (items.map fun other => if other = item then 0 else value item other).sum).sum =
      ((pairs items).map fun pair => value pair.1 pair.2 + value pair.2 pair.1).sum := by
  induction items with
  | nil => rfl
  | cons item items ih =>
      rw [List.nodup_cons] at nodup
      have onward : (items.map fun other => if other = item then 0 else value item other) =
          items.map (value item) := by
        apply List.map_congr_left
        intro other mem
        rw [if_neg]
        rintro rfl
        exact nodup.1 mem
      have backward : (items.map fun other => if item = other then 0 else value other item) =
          items.map fun other => value other item := by
        apply List.map_congr_left
        intro other mem
        rw [if_neg]
        rintro rfl
        exact nodup.1 mem
      simp only [List.map_cons, List.sum_cons, if_true, onward, List.sum_map_add, backward,
        ih nodup.2, pairs, List.map_append, List.sum_append, List.map_map, Function.comp_def]
      omega

theorem sum_filterMap {α β : Type} (items : List α) (find : α → Option β) (value : β → Int) :
    ((items.filterMap find).map value).sum =
      (items.map fun item => ((find item).map value).getD 0).sum := by
  induction items with
  | nil => rfl
  | cons item items ih =>
      rw [List.filterMap_cons, List.map_cons, List.sum_cons, ← ih]
      cases find item with
      | none => simp
      | some found => simp

theorem sum_half {α : Type} {items : List α} {half : α → Rat} {whole : α → Int}
    (half_eq : ∀ item, half item = whole item / 2) :
    (items.map half).sum = (items.map whole).sum / 2 := by
  induction items with
  | nil => simp
  | cons item items ih =>
      rw [List.map_cons, List.map_cons, List.sum_cons, List.sum_cons, ih, half_eq]
      push_cast
      ring

namespace Matchup

variable {matchup : Matchup}

/-- Whether no count of a matchup is negative. -/
structure Counted (matchup : Matchup) : Prop where
  wins_nonneg : 0 ≤ matchup.wins
  draws_nonneg : 0 ≤ matchup.draws
  losses_nonneg : 0 ≤ matchup.losses

instance (matchup : Matchup) : Decidable matchup.Counted :=
  decidable_of_iff (0 ≤ matchup.wins ∧ 0 ≤ matchup.draws ∧ 0 ≤ matchup.losses)
    ⟨fun nonneg => ⟨nonneg.1, nonneg.2.1, nonneg.2.2⟩,
      fun counted => ⟨counted.wins_nonneg, counted.draws_nonneg, counted.losses_nonneg⟩⟩

theorem Counted.flipped (counted : matchup.Counted) : matchup.flipped.Counted :=
  ⟨counted.losses_nonneg, counted.draws_nonneg, counted.wins_nonneg⟩

/-- Whether no count is negative or reaches two to the power of 52. -/
def Modest (matchup : Matchup) : Prop :=
  ∀ count ∈ [matchup.wins, matchup.draws, matchup.losses], 0 ≤ count ∧ count < 2 ^ 52

instance (matchup : Matchup) : Decidable matchup.Modest :=
  inferInstanceAs (Decidable (∀ count ∈ [matchup.wins, matchup.draws, matchup.losses], _))

theorem modest_iff : matchup.Modest ↔ (0 ≤ matchup.wins ∧ matchup.wins < 2 ^ 52) ∧
    (0 ≤ matchup.draws ∧ matchup.draws < 2 ^ 52) ∧
      0 ≤ matchup.losses ∧ matchup.losses < 2 ^ 52 := by
  simp [Modest]

theorem Modest.counted (modest : matchup.Modest) : matchup.Counted := by
  rw [modest_iff] at modest
  exact ⟨modest.1.1, modest.2.1.1, modest.2.2.1⟩

theorem Modest.flipped (modest : matchup.Modest) : matchup.flipped.Modest := by
  rw [modest_iff] at modest ⊢
  exact ⟨modest.2.2, modest.2.1, modest.1⟩

/-- What the first agent has gained: a point for every win and half a point for every draw. -/
def worth (matchup : Matchup) : Rat := matchup.wins + matchup.draws / 2

/-- What the first agent has gained, in half points. -/
def halves (matchup : Matchup) : Int := 2 * matchup.wins + matchup.draws

theorem worth_eq (matchup : Matchup) : matchup.worth = matchup.halves / 2 := by
  rw [worth, halves]
  push_cast
  ring

/-- Both sides together gain one point for every game. -/
theorem halves_add_flipped (matchup : Matchup) :
    matchup.halves + matchup.flipped.halves = 2 * matchup.games := by
  simp only [halves, flipped, games]
  ring

theorem games_flipped (matchup : Matchup) : matchup.flipped.games = matchup.games := by
  simp only [games, flipped]
  ring

theorem Counted.halves_nonneg (counted : matchup.Counted) : 0 ≤ matchup.halves := by
  have := counted.wins_nonneg
  have := counted.draws_nonneg
  rw [halves]
  omega

theorem Counted.halves_le (counted : matchup.Counted) : matchup.halves ≤ 2 * matchup.games := by
  have := counted.draws_nonneg
  have := counted.losses_nonneg
  rw [halves, games]
  omega

/-- The points for one matchup are exact. -/
theorem Counted.stands_points (counted : matchup.Counted)
    (small : matchup.halves < Double.wholeBound) :
    Double.Stands (-1) (Float.ofInt matchup.wins + 0.5 * Float.ofInt matchup.draws).toModel.unpack
      matchup.halves := by
  have wins_nonneg := counted.wins_nonneg
  obtain ⟨draws, draws_eq⟩ := Int.eq_ofNat_of_zero_le counted.draws_nonneg
  rw [halves, draws_eq] at small ⊢
  have won : Double.Stands (-1) (Float.ofInt matchup.wins).toModel.unpack (2 * matchup.wins) :=
    Double.stands_twice (by omega)
  have drawn := Double.stands_half (show draws < Double.wholeBound by omega)
  exact Double.stands_add Double.moderate_half won drawn (by omega)

end Matchup

namespace Results

variable {results : Results} {first second name : String} {matchup : Matchup}

/-- What an agent has gained in all its matchups. -/
def worth (results : Results) (name : String) : Rat :=
  ((results.matchupsOf name).map Matchup.worth).sum

/-- What an agent has gained in all its matchups, in half points. -/
def halves (results : Results) (name : String) : Int :=
  ((results.matchupsOf name).map Matchup.halves).sum

theorem worth_eq (results : Results) (name : String) :
    results.worth name = results.halves name / 2 :=
  sum_half Matchup.worth_eq

/-- The matchups between the agents, once for each two of them. -/
def met (results : Results) : List Matchup :=
  (pairs results.names).filterMap fun pair => results.matchup? pair.1 pair.2

/-- If everybody has met everybody once, these are all matchups. -/
theorem RoundRobin.met_eq (roundRobin : results.RoundRobin) : results.met = results.matchups := by
  rw [met, ← roundRobin.paired, List.filterMap_map]
  calc results.matchups.filterMap
        ((fun pair => results.matchup? pair.1 pair.2) ∘
          fun matchup => (matchup.first, matchup.second))
      = results.matchups.filterMap some := by
        apply List.filterMap_congr
        intro matchup mem
        exact roundRobin.matchup?_eq mem
    _ = results.matchups := List.filterMap_some

/-- A matchup that is found is one of the matchups, from either side. -/
theorem mem_of_matchup? (found : results.matchup? first second = some matchup) :
    matchup ∈ results.matchups ∨ matchup.flipped ∈ results.matchups := by
  rcases List.exists_of_findSome?_eq_some found with ⟨listed, mem, seen⟩
  split at seen
  · cases seen
    exact .inl mem
  · split at seen
    · cases seen
      exact .inr mem
    · cases seen

theorem exists_of_mem_matchupsOf (mem : matchup ∈ results.matchupsOf name) :
    ∃ other, results.matchup? name other = some matchup := by
  rcases List.mem_filterMap.mp mem with ⟨other, -, found⟩
  split at found
  · cases found
  · exact ⟨other, found⟩

theorem counted_of_mem_matchupsOf (counted : ∀ matchup ∈ results.matchups, matchup.Counted)
    (mem : matchup ∈ results.matchupsOf name) : matchup.Counted := by
  rcases exists_of_mem_matchupsOf mem with ⟨other, found⟩
  rcases mem_of_matchup? found with straight | twisted
  · exact counted matchup straight
  · exact (counted matchup.flipped twisted).flipped

/-- An agent has at most one matchup with everybody else. -/
theorem length_matchupsOf_lt (mem : name ∈ results.names) :
    (results.matchupsOf name).length < results.names.length := by
  rw [matchupsOf, List.length_filterMap_lt_length_iff_exists]
  exact ⟨name, mem, if_pos rfl⟩

/-- An agent that plays some number of games against each of the others gains no more points than
that. -/
theorem halves_le {games : Int} (counted : ∀ matchup ∈ results.matchups, matchup.Counted)
    (games_eq : ∀ matchup ∈ results.matchups, matchup.games = games) (nonneg : 0 ≤ games)
    (mem : name ∈ results.names) :
    results.halves name ≤ 2 * ((results.names.length - 1) * games) := by
  have each : ∀ halves ∈ (results.matchupsOf name).map Matchup.halves, halves ≤ 2 * games := by
    rw [List.forall_mem_map]
    intro matchup there
    rcases exists_of_mem_matchupsOf there with ⟨other, found⟩
    have le := (counted_of_mem_matchupsOf counted there).halves_le
    rcases mem_of_matchup? found with straight | twisted
    · rwa [games_eq matchup straight] at le
    · rwa [← matchup.games_flipped, games_eq matchup.flipped twisted] at le
  have bound := List.sum_le_card_nsmul _ _ each
  have others : ((results.matchupsOf name).length : Int) ≤ results.names.length - 1 := by
    have := length_matchupsOf_lt mem
    omega
  rw [List.length_map, nsmul_eq_mul] at bound
  calc results.halves name ≤ (results.matchupsOf name).length * (2 * games) := bound
    _ ≤ (results.names.length - 1) * (2 * games) :=
        mul_le_mul_of_nonneg_right others (by omega)
    _ = 2 * ((results.names.length - 1) * games) := by ring

/-- The points of an agent are exact as long as twice their sum fits into the mantissa. -/
theorem stands_points (counted : ∀ matchup ∈ results.matchups, matchup.Counted)
    (small : results.halves name < Double.wholeBound) :
    Double.Stands (-1) (results.points name).toModel.unpack (results.halves name) := by
  have of_mem : ∀ matchup ∈ results.matchupsOf name, matchup.Counted :=
    fun _ mem => counted_of_mem_matchupsOf counted mem
  have nonneg : ∀ matchup ∈ results.matchupsOf name, 0 ≤ matchup.halves :=
    fun matchup mem => (of_mem matchup mem).halves_nonneg
  have stands : ∀ matchup ∈ results.matchupsOf name, Double.Stands (-1)
      (Float.ofInt matchup.wins + 0.5 * Float.ofInt matchup.draws).toModel.unpack
        matchup.halves := by
    intro matchup mem
    apply (of_mem matchup mem).stands_points
    have le : matchup.halves ≤ results.halves name := by
      apply List.single_le_sum
      · simpa using nonneg
      · exact List.mem_map_of_mem mem
    omega
  have zero : Double.Stands (-1) (0 : Float).toModel.unpack 0 := rfl
  have summed := Double.stands_foldl Double.moderate_half stands nonneg zero le_rfl
    (by rwa [zero_add])
  rwa [zero_add] at summed

theorem extent_points (counted : ∀ matchup ∈ results.matchups, matchup.Counted)
    (small : results.halves name < Double.wholeBound) :
    Extent.ofFloat (results.points name) = .finite (results.worth name) := by
  rw [worth_eq, Double.extent_eq_half_iff]
  exact stands_points counted small

/-- What is counted in the matchups of all agents comes to what is counted from both sides of the
matchups between two of them. -/
theorem sum_matchupsOf (nodup : results.names.Nodup) (value : Matchup → Int) :
    (results.names.map fun name => ((results.matchupsOf name).map value).sum).sum =
      (results.met.map fun matchup => value matchup + value matchup.flipped).sum := by
  have each : ∀ name ∈ results.names, ((results.matchupsOf name).map value).sum =
      (results.names.map fun other => if other = name then 0
        else ((results.matchup? name other).map value).getD 0).sum := by
    intro name _
    rw [matchupsOf, sum_filterMap]
    congr 1
    apply List.map_congr_left
    intro other _
    split <;> rfl
  have shared : ∀ pair ∈ pairs results.names,
      ((results.matchup? pair.1 pair.2).map value).getD 0 +
          ((results.matchup? pair.2 pair.1).map value).getD 0 =
        ((results.matchup? pair.1 pair.2).map fun matchup =>
          value matchup + value matchup.flipped).getD 0 := by
    rintro ⟨first, second⟩ mem
    rw [results.matchup?_swap (ne_of_mem_pairs nodup mem)]
    cases results.matchup? first second <;> rfl
  rw [List.map_congr_left each, sum_pairs nodup, List.map_congr_left shared, met, sum_filterMap]

/-- All agents together have gained one point for every game between two of them. -/
theorem sum_halves (nodup : results.names.Nodup) :
    (results.names.map results.halves).sum = 2 * (results.met.map Matchup.games).sum := by
  calc (results.names.map results.halves).sum
      = (results.met.map fun matchup => matchup.halves + matchup.flipped.halves).sum :=
        sum_matchupsOf nodup Matchup.halves
    _ = 2 * (results.met.map Matchup.games).sum := by
        simp only [Matchup.halves_add_flipped, List.sum_map_mul_left]

theorem sum_worth (nodup : results.names.Nodup) :
    (results.names.map results.worth).sum = (results.met.map Matchup.games).sum := by
  rw [sum_half results.worth_eq, sum_halves nodup]
  push_cast
  rw [mul_div_cancel_left₀ _ two_ne_zero]

theorem halves_nonneg (counted : ∀ matchup ∈ results.matchups, matchup.Counted) (name : String) :
    0 ≤ results.halves name := by
  apply List.sum_nonneg
  rw [List.forall_mem_map]
  intro matchup mem
  exact (counted_of_mem_matchupsOf counted mem).halves_nonneg

/-- Adding up the points of all agents is exact as long as twice their games fit into the
mantissa. -/
theorem extent_sum_points (counted : ∀ matchup ∈ results.matchups, matchup.Counted)
    (nodup : results.names.Nodup)
    (small : 2 * (results.met.map Matchup.games).sum < Double.wholeBound) :
    Extent.ofFloat ((results.names.map results.points).foldl (· + ·) 0) =
      .finite ((results.met.map Matchup.games).sum : Int) := by
  have nonneg := halves_nonneg counted
  have sum_eq := sum_halves nodup
  have stands : ∀ name ∈ results.names,
      Double.Stands (-1) (results.points name).toModel.unpack (results.halves name) := by
    intro name mem
    apply stands_points counted
    have le : results.halves name ≤ (results.names.map results.halves).sum := by
      apply List.single_le_sum
      · simpa using fun name _ => nonneg name
      · exact List.mem_map_of_mem mem
    omega
  have zero : Double.Stands (-1) (0 : Float).toModel.unpack 0 := rfl
  have summed := Double.stands_foldl Double.moderate_half stands (fun name _ => nonneg name) zero
    le_rfl (by omega)
  rw [zero_add, sum_eq, ← Double.extent_eq_half_iff] at summed
  rw [List.foldl_map, summed]
  push_cast
  rw [mul_div_cancel_left₀ _ two_ne_zero]

end Results

end GameSearch
