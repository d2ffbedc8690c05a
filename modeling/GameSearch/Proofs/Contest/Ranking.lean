import GameSearch.Proofs.Contest.BothSides
import GameSearch.Proofs.Number.Comparison
import GameSearch.Proofs.Number.Printed
import Mathlib.Data.Prod.Lex

/-!
# The ranking

The standings are the agents sorted by their points and then by their wins. Points are never
undefined, so that this is a linear order of levels; sorting is stable, so that agents of one level
stay in the order in which they are named.

Points are compared as the doubles they are. As long as they are exact, a row prints the points that
follow from the wins and draws it prints.
-/

namespace GameSearch

theorem Double.Unsigned.defined {double : Float}
    (unsigned : Double.Unsigned double.toModel.unpack) : Extent.ofFloat double ≠ .undefined := by
  rw [Double.extent_eq]
  revert unsigned
  generalize double.toModel.unpack = unpacked
  intro unsigned
  cases unpacked with
  | notANumber => exact unsigned.elim
  | infinity => cases unsigned; exact nofun
  | zero => exact nofun
  | finite => cases unsigned; exact nofun

namespace Matchup

variable {matchup : Matchup}

theorem Modest.unsigned_points (modest : matchup.Modest) :
    Double.Unsigned (Float.ofInt matchup.wins + 0.5 * Float.ofInt matchup.draws).toModel.unpack := by
  rw [modest_iff] at modest
  obtain ⟨⟨wins_nonneg, wins_small⟩, ⟨draws_nonneg, draws_small⟩, -⟩ := modest
  have bound : (2 : Int) ^ 52 < Double.wholeBound := by decide
  apply Double.unsigned_add
  · exact Double.unsigned_ofInt wins_nonneg (wins_small.trans bound)
  · apply Double.unsigned_halved
    exact Double.unsigned_ofInt draws_nonneg (draws_small.trans bound)

end Matchup

/-- What the rank of a row depends on: its points, then its wins. -/
noncomputable def Standing.level (standing : Standing) : EReal ×ₗ Int :=
  toLex ((Extent.ofFloat standing.points).place, standing.score.wins)

/-- A row of the table of standings. -/
def Standing.line (standing : Standing) (nameWidth : Nat) : String :=
  Results.standingLine nameWidth (toString standing.rank) standing.name
    (toString standing.score.wins) (toString standing.score.draws)
    (toString standing.score.losses) (Double.fixed 1 standing.points)

/-- Half of an integer that is not negative, with one decimal place. -/
def halvesText (halves : Int) : String :=
  toString (halves / 2) ++ (if halves % 2 = 0 then ".0" else ".5")

theorem halvesText_natCast (halves : Nat) : halvesText halves =
    toString (halves / 2) ++ (if halves % 2 = 0 then ".0" else ".5") := by
  have whole : (halves : Int) / 2 = (halves / 2 : Nat) := by omega
  have even_iff : (halves : Int) % 2 = 0 ↔ halves % 2 = 0 := by omega
  simp only [halvesText, whole, even_iff]
  rfl

namespace Results

variable {results : Results} {name upper lower : String}

/-- What the rank of an agent depends on: its points, then its wins. -/
noncomputable def level (results : Results) (name : String) : EReal ×ₗ Int :=
  toLex ((Extent.ofFloat (results.points name)).place, (results.total name).wins)

theorem unsigned_points (modest : ∀ matchup ∈ results.matchups, matchup.Modest) (name : String) :
    Double.Unsigned (results.points name).toModel.unpack := by
  apply Double.unsigned_foldl
  · intro matchup mem
    rcases exists_of_mem_matchupsOf mem with ⟨other, found⟩
    rcases mem_of_matchup? found with straight | twisted
    · exact (modest matchup straight).unsigned_points
    · exact (modest matchup.flipped twisted).flipped.unsigned_points
  · rfl

/-- One agent may stand above another one if its level is not lower. -/
theorem mayPrecede_iff (modest : ∀ matchup ∈ results.matchups, matchup.Modest) :
    results.mayPrecede upper lower = true ↔ results.level lower ≤ results.level upper := by
  have upperDefined := (unsigned_points modest upper).defined
  have lowerDefined := (unsigned_points modest lower).defined
  simp only [mayPrecede, level, Prod.Lex.toLex_le_toLex]
  by_cases same : Extent.ofFloat (results.points upper) = Extent.ofFloat (results.points lower)
  · rw [if_pos ((Double.beq_iff_same _ _).mpr ⟨same, upperDefined⟩), same]
    simp
  · have different : (Extent.ofFloat (results.points lower)).place ≠
        (Extent.ofFloat (results.points upper)).place := by
      intro place_eq
      exact same (Extent.place_injective lowerDefined upperDefined place_eq).symm
    rw [if_neg (fun beq => same ((Double.beq_iff_same _ _).mp beq).1), decide_eq_true_iff,
      Double.lt_iff_less, Extent.less_iff lowerDefined upperDefined]
    simp [different]

theorem mayPrecede_trans (modest : ∀ matchup ∈ results.matchups, matchup.Modest)
    (first second third : String) (before : results.mayPrecede first second = true)
    (after : results.mayPrecede second third = true) :
    results.mayPrecede first third = true := by
  rw [mayPrecede_iff modest] at before after ⊢
  exact after.trans before

theorem mayPrecede_total (modest : ∀ matchup ∈ results.matchups, matchup.Modest)
    (first second : String) :
    (results.mayPrecede first second || results.mayPrecede second first) = true := by
  rw [Bool.or_eq_true, mayPrecede_iff modest, mayPrecede_iff modest]
  exact le_total _ _

theorem ranking_pairwise (modest : ∀ matchup ∈ results.matchups, matchup.Modest) :
    results.ranking.Pairwise fun upper lower => results.level lower ≤ results.level upper := by
  have sorted := List.pairwise_mergeSort (mayPrecede_trans modest) (mayPrecede_total modest)
    results.names
  exact sorted.imp (mayPrecede_iff modest).mp

/-- Agents of one level keep their order. -/
theorem ranking_stable (modest : ∀ matchup ∈ results.matchups, matchup.Modest)
    (before : [upper, lower].Sublist results.names)
    (same : results.level upper = results.level lower) :
    [upper, lower].Sublist results.ranking := by
  apply List.pair_sublist_mergeSort (mayPrecede_trans modest) (mayPrecede_total modest) _ before
  exact (mayPrecede_iff modest).mpr same.ge

theorem ranks_standings (results : Results) :
    results.standings.map Standing.rank = List.range' 1 results.names.length := by
  calc results.standings.map Standing.rank
      = (results.ranking.zipIdx.map Prod.snd).map (1 + ·) := by
        rw [standings, List.map_map, List.map_map]
        apply List.map_congr_left
        intro entry _
        exact Nat.add_comm entry.2 1
    _ = List.range' 1 results.names.length := by
        rw [List.zipIdx_map_snd, List.map_add_range', results.ranking_perm.length_eq]

/-- What the table of standings says above its rows. -/
def standingsHead (nameWidth : Nat) : List String :=
  ["Standings", Text.repeated (6 + nameWidth + 24) '=',
    standingLine nameWidth "Rank" "Agent" "W" "D" "L" "Pts",
    Text.repeated (6 + nameWidth + 24) '-']

/-- The width of the names in the table of standings. -/
def nameWidth (results : Results) : Nat := columnWidth 15 (results.names.map (·.length + 2))

theorem standingsTable_eq (nonempty : results.names ≠ []) :
    results.standingsTable = .ok ("\n".intercalate (standingsHead results.nameWidth ++
      results.standings.map fun standing => standing.line results.nameWidth)) := by
  rw [standingsTable, if_neg (by simpa using nonempty)]
  rfl

theorem fixed_points (modest : ∀ matchup ∈ results.matchups, matchup.Modest)
    (nodup : results.names.Nodup) (mem : name ∈ results.names)
    (small : 2 * (results.total name).wins + (results.total name).draws < 2 ^ 53) :
    Double.fixed 1 (results.points name) =
      halvesText (2 * (results.total name).wins + (results.total name).draws) := by
  have counted : ∀ matchup ∈ results.matchups, matchup.Counted :=
    fun matchup mem => (modest matchup mem).counted
  rw [← halves_eq_total nodup mem] at small ⊢
  have stands := stands_points counted small
  obtain ⟨halves, halves_eq⟩ := Int.eq_ofNat_of_zero_le (halves_nonneg counted name)
  rw [halves_eq] at stands ⊢
  rw [Double.fixed_halves (unsigned_points modest name) stands, halvesText_natCast]

theorem level_standing {standing : Standing} (mem : standing ∈ results.standings) :
    standing.level = results.level standing.name := by
  obtain ⟨-, score_eq, points_eq⟩ := exists_of_mem_standings mem
  rw [Standing.level, level, score_eq, points_eq]

/-- The standings are the agents, each of them once and with the ranks in order, sorted by points
and then by wins; agents with the same points and wins stand in the order of their names. The table
shows the rows of the standings, with points that are exactly one for a win and a half for a draw
while they stay below two to the power of 52. -/
theorem standings_ranked (modest : ∀ matchup ∈ results.matchups, matchup.Modest)
    (nonempty : results.names ≠ []) (nodup : results.names.Nodup) :
    (results.standings.map Standing.name).Perm results.names ∧
    results.standings.map Standing.rank = List.range' 1 results.names.length ∧
    (∀ standing ∈ results.standings, Extent.ofFloat standing.points ≠ .undefined ∧
      standing.points = results.points standing.name ∧
      standing.score = results.total standing.name) ∧
    (results.standings.Pairwise fun upper lower => lower.level ≤ upper.level) ∧
    (∀ first second, [first, second].Sublist results.names →
      results.level first = results.level second →
        [first, second].Sublist (results.standings.map Standing.name)) ∧
    results.standingsTable = .ok ("\n".intercalate (standingsHead results.nameWidth ++
      results.standings.map fun standing => standing.line results.nameWidth)) ∧
    ∀ standing ∈ results.standings,
      2 * standing.score.wins + standing.score.draws < 2 * 2 ^ 52 →
        standing.line results.nameWidth = standingLine results.nameWidth (toString standing.rank)
          standing.name (toString standing.score.wins) (toString standing.score.draws)
          (toString standing.score.losses)
          (halvesText (2 * standing.score.wins + standing.score.draws)) := by
  refine ⟨?_, results.ranks_standings, ?_, ?_, ?_, standingsTable_eq nonempty, ?_⟩
  · rw [names_standings]
    exact results.ranking_perm
  · intro standing mem
    obtain ⟨-, score_eq, points_eq⟩ := exists_of_mem_standings mem
    rw [points_eq]
    exact ⟨(unsigned_points modest _).defined, rfl, score_eq⟩
  · have ordered := ranking_pairwise modest
    rw [← names_standings, List.pairwise_map] at ordered
    apply ordered.imp_of_mem
    intro upper lower upperMem lowerMem le
    rwa [level_standing upperMem, level_standing lowerMem]
  · intro first second before same
    rw [names_standings]
    exact ranking_stable modest before same
  · intro standing mem small
    obtain ⟨named, score_eq, points_eq⟩ := exists_of_mem_standings mem
    rw [score_eq] at small
    rw [Standing.line, points_eq, score_eq, fixed_points modest nodup named (by omega)]

/-- Two agents of one level, a better one and a worse one. -/
def levelResults : Results :=
  ⟨[⟨"A", "B", 0, 1, 0⟩, ⟨"C", "A", 1, 0, 0⟩, ⟨"B", "C", 0, 0, 1⟩, ⟨"A", "D", 1, 0, 0⟩,
    ⟨"B", "D", 1, 0, 0⟩, ⟨"D", "C", 0, 1, 0⟩], ["A", "B", "C", "D"]⟩

theorem standings_ranked_level :
    (∀ matchup ∈ levelResults.matchups, matchup.Modest) ∧ levelResults.names ≠ [] ∧
      levelResults.names.Nodup ∧ (levelResults.standings.map Standing.name).Perm ["A", "B", "C", "D"] ∧
      levelResults.standings.map Standing.rank = [1, 2, 3, 4] ∧
      ["A", "B"].Sublist (levelResults.standings.map Standing.name) := by
  have modest : ∀ matchup ∈ levelResults.matchups, matchup.Modest := by decide
  have nonempty : levelResults.names ≠ [] := by decide
  have nodup : levelResults.names.Nodup := by decide
  have ranked := standings_ranked modest nonempty nodup
  have points : levelResults.points "A" = levelResults.points "B" := by
    rfl
  have wins : (levelResults.total "A").wins = (levelResults.total "B").wins := by decide
  have same : levelResults.level "A" = levelResults.level "B" := by
    rw [level, level, points, wins]
  exact ⟨modest, nonempty, nodup, ranked.1, ranked.2.1,
    ranked.2.2.2.2.1 "A" "B" (by decide) same⟩

/-- One matchup, with points that are not a double. -/
def roundedResults : Results := ⟨[⟨"A", "B", 2 ^ 52 - 1, 3, 0⟩], ["A", "B"]⟩

/-- The first row shows points that do not follow from the wins and draws that it shows. -/
theorem line_ne_rounded :
    roundedResults.names ≠ [] ∧ roundedResults.names.Nodup ∧
      (∀ matchup ∈ roundedResults.matchups, matchup.Modest) ∧
      (roundedResults.standings.map fun standing => (standing.name, standing.score,
        Double.fixed 1 standing.points)) =
          [("A", ⟨2 ^ 52 - 1, 3, 0⟩, "4503599627370496.0"), ("B", ⟨0, 3, 2 ^ 52 - 1⟩, "1.5")] ∧
      halvesText (2 * (2 ^ 52 - 1) + 3) = "4503599627370496.5" := by
  have ranked : roundedResults.ranking = ["A", "B"] :=
    List.mergeSort_of_pairwise (by decide +kernel)
  rw [standings, ranked]
  decide +kernel

end Results

end GameSearch
