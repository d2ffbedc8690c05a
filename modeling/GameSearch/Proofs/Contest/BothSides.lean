import GameSearch.Proofs.Contest.Points

/-!
# Results from both sides

However the matchups are listed, the two agents of a matchup see the same games: what one of them
has won the other one has lost. So the table of wins, draws and losses is its own transpose once
every cell is read backwards, and the standings distribute one point for every game.

The points are sums of doubles. They are exact while they stay below two to the power of 52, whatever
single counts they come from, and may be rounded to whole points from there on.
-/

namespace GameSearch

/-- A cell of the table as the other agent sees it: what stands between the strokes, the other way
around. -/
def mirrored (cell : String) : String :=
  String.ofList (['/'].intercalate (cell.toList.splitOn '/').reverse)

theorem stroke_not_mem_digits (value : Nat) : '/' ∉ (Nat.repr value).toList := by
  intro mem
  rw [Nat.repr, String.toList_ofList] at mem
  exact absurd (Nat.isDigit_of_mem_toDigits (by decide) (by decide) mem) (by decide)

theorem stroke_not_mem_toString (value : Int) : '/' ∉ (toString value).toList := by
  cases value with
  | ofNat value => exact stroke_not_mem_digits value
  | negSucc value =>
      change '/' ∉ ("-" ++ Nat.repr (value + 1)).toList
      rw [String.toList_append, List.mem_append]
      rintro (sign | digits)
      · revert sign
        decide
      · exact stroke_not_mem_digits _ digits

namespace Matchup

/-- The counts of a matchup, as they are written in its cell. -/
def fields (matchup : Matchup) : List (List Char) :=
  [matchup.wins, matchup.draws, matchup.losses].map fun count => (toString count).toList

theorem cell_eq (matchup : Matchup) :
    matchup.cell = String.ofList (['/'].intercalate matchup.fields) := by
  rw [← String.toList_inj]
  simp [cell, fields, List.intercalate]

theorem splitOn_cell (matchup : Matchup) :
    matchup.cell.toList.splitOn '/' = matchup.fields := by
  rw [cell_eq, String.toList_ofList]
  apply List.splitOn_intercalate
  · rw [fields, List.forall_mem_map]
    intro count _
    exact stroke_not_mem_toString count
  · simp [fields]

theorem fields_flipped (matchup : Matchup) : matchup.flipped.fields = matchup.fields.reverse := rfl

theorem cell_flipped (matchup : Matchup) : matchup.flipped.cell = mirrored matchup.cell := by
  rw [mirrored, splitOn_cell, ← fields_flipped, ← cell_eq]

end Matchup

namespace Results

variable {results : Results} {name : String}

/-- Transposing the table reverses its cells; where nobody has played, both sides say the same. -/
theorem cell_swap (results : Results) (row column : String) :
    results.cell column row = mirrored (results.cell row column) := by
  unfold cell
  by_cases same : row = column
  · rw [if_pos same, if_pos same.symm]
    decide +kernel
  · rw [if_neg same, if_neg (Ne.symm same), results.matchup?_swap same]
    cases results.matchup? row column with
    | none => decide +kernel
    | some matchup => exact matchup.cell_flipped

/-- The text of the table of wins, draws and losses with the given cells. -/
def grid (results : Results) (cell : String → String → String) : String :=
  let width := columnWidth 10 (results.names.map String.length)
  let columns (cells : List String) : String :=
    String.join (cells.map fun cell => Text.alignRight width cell ++ "  ")
  let rows := results.names.map fun row =>
    Text.alignLeft width row ++ "  " ++ columns (results.names.map (cell row))
  "\n".intercalate (["Tournament Results (W/D/L from row's perspective)",
    Text.repeated 50 '=', Text.repeated (width + 2) ' ' ++ columns results.names] ++ rows)

theorem winTable_eq (nonempty : results.names ≠ []) :
    results.winTable = .ok (results.grid results.cell) := by
  rw [winTable, if_neg (by simpa using nonempty), grid]

/-! ### The totals of the standings -/

theorem foldl_add (matchups : List Matchup) (score : Score) :
    matchups.foldl Score.add score =
      ⟨score.wins + (matchups.map Matchup.wins).sum, score.draws + (matchups.map Matchup.draws).sum,
        score.losses + (matchups.map Matchup.losses).sum⟩ := by
  induction matchups generalizing score with
  | nil => simp
  | cons matchup matchups ih =>
      rw [List.foldl_cons, ih, Score.add]
      simp only [List.map_cons, List.sum_cons, add_assoc]

/-- An agent whose name stands in the list once is credited with every matchup once. -/
theorem total_eq (nodup : results.names.Nodup) (mem : name ∈ results.names) :
    results.total name = ⟨((results.matchupsOf name).map Matchup.wins).sum,
      ((results.matchupsOf name).map Matchup.draws).sum,
      ((results.matchupsOf name).map Matchup.losses).sum⟩ := by
  have once : results.names.filter (· = name) = [name] := by
    rw [List.filter_eq, List.count_eq_one_of_mem nodup mem, List.replicate_one]
  rw [total, once, List.flatMap_singleton, foldl_add]
  simp only [zero_add]

theorem halves_eq_total (nodup : results.names.Nodup) (mem : name ∈ results.names) :
    results.halves name = 2 * (results.total name).wins + (results.total name).draws := by
  rw [total_eq nodup mem]
  change ((results.matchupsOf name).map fun matchup => 2 * matchup.wins + matchup.draws).sum = _
  simp only [List.sum_map_add, List.sum_map_mul_left]

theorem worth_eq_total (nodup : results.names.Nodup) (mem : name ∈ results.names) :
    results.worth name = (results.total name).wins + ((results.total name).draws / 2 : Rat) := by
  rw [worth_eq, halves_eq_total nodup mem]
  push_cast
  ring

theorem standings_eq (results : Results) :
    results.standings.map (fun standing => (standing.name, standing.score, standing.points)) =
      results.ranking.map fun name => (name, results.total name, results.points name) := by
  rw [standings, List.map_map, ← List.zipIdx_map_fst 0 results.ranking, List.map_map,
    List.zipIdx_map_fst]
  rfl

theorem ranking_perm (results : Results) : results.ranking.Perm results.names :=
  List.mergeSort_perm results.names results.mayPrecede

theorem names_standings (results : Results) :
    results.standings.map Standing.name = results.ranking := by
  have rows := congrArg (List.map Prod.fst) results.standings_eq
  simpa only [List.map_map, Function.comp_def, List.map_id'] using rows

/-- What is added up over the rows of the standings is added up over the agents. -/
theorem sum_standings {α : Type} [AddCommMonoid α] (results : Results) (value : Score → α) :
    (results.standings.map fun standing => value standing.score).sum =
      (results.names.map fun name => value (results.total name)).sum := by
  have scores : results.standings.map Standing.score = results.ranking.map results.total := by
    have rows := congrArg (List.map fun row => row.2.1) results.standings_eq
    simpa only [List.map_map, Function.comp_def] using rows
  calc (results.standings.map fun standing => value standing.score).sum
      = (results.ranking.map fun name => value (results.total name)).sum := by
        have values := congrArg (fun scores => (scores.map value).sum) scores
        simpa only [List.map_map, Function.comp_def] using values
    _ = (results.names.map fun name => value (results.total name)).sum :=
        (results.ranking_perm.map _).sum_eq

theorem exists_of_mem_standings {standing : Standing} (mem : standing ∈ results.standings) :
    standing.name ∈ results.names ∧ standing.score = results.total standing.name ∧
      standing.points = results.points standing.name := by
  have row := List.mem_map_of_mem
    (f := fun standing => (standing.name, standing.score, standing.points)) mem
  rw [results.standings_eq, List.mem_map] at row
  obtain ⟨name, ranked, same⟩ := row
  simp only [Prod.mk.injEq] at same
  obtain ⟨rfl, score_eq, points_eq⟩ := same
  exact ⟨results.ranking_perm.subset ranked, score_eq.symm, points_eq.symm⟩

/-- Whatever one agent has won another one has lost. -/
theorem sum_wins (nodup : results.names.Nodup) :
    (results.standings.map fun standing => standing.score.wins).sum =
      (results.standings.map fun standing => standing.score.losses).sum := by
  have counts : ∀ name ∈ results.names,
      (results.total name).wins = ((results.matchupsOf name).map Matchup.wins).sum ∧
        (results.total name).losses = ((results.matchupsOf name).map Matchup.losses).sum := by
    intro name mem
    rw [total_eq nodup mem]
    exact ⟨rfl, rfl⟩
  rw [sum_standings results Score.wins, sum_standings results Score.losses,
    List.map_congr_left fun name mem => (counts name mem).1,
    List.map_congr_left fun name mem => (counts name mem).2, sum_matchupsOf nodup,
    sum_matchupsOf nodup]
  congr 1
  apply List.map_congr_left
  intro matchup _
  exact add_comm matchup.wins matchup.losses

/-- All rows together show one point for every game. -/
theorem sum_standings_worth (nodup : results.names.Nodup) :
    (results.standings.map fun standing =>
      (standing.score.wins + standing.score.draws / 2 : Rat)).sum =
        ((results.met.map Matchup.games).sum : Int) := by
  rw [sum_standings results fun score => (score.wins + score.draws / 2 : Rat), ← sum_worth nodup]
  congr 1
  apply List.map_congr_left
  intro name mem
  exact (worth_eq_total nodup mem).symm

theorem points_eq_total (counted : ∀ matchup ∈ results.matchups, matchup.Counted)
    (nodup : results.names.Nodup) (mem : name ∈ results.names)
    (small : ((results.total name).wins + (results.total name).draws / 2 : Rat) < 2 ^ 52) :
    Extent.ofFloat (results.points name) =
      .finite ((results.total name).wins + (results.total name).draws / 2) := by
  rw [← worth_eq_total nodup mem] at small ⊢
  apply extent_points counted
  rw [worth_eq, div_lt_iff₀ two_pos] at small
  have bound : (results.halves name : Rat) < (2 ^ 53 : Int) := by
    push_cast
    linarith
  exact_mod_cast bound

/-- Both agents of a matchup see the same games. For counts that are not negative and below two to
the power of 52, the table of wins, draws and losses is its own transpose read backwards, as many
games are won as are lost, and the standings share out one point for every game between two agents.
The computed points are what the standings say, and so is their sum, while they stay below that
bound too. -/
theorem seen_from_both_sides (nonempty : results.names ≠ []) (nodup : results.names.Nodup) :
    (∀ first second, first ≠ second →
      results.matchup? second first = (results.matchup? first second).map Matchup.flipped) ∧
    ((∀ matchup ∈ results.matchups, matchup.Modest) →
      results.winTable = .ok (results.grid results.cell) ∧
      (∀ row column, results.cell column row = mirrored (results.cell row column)) ∧
      (results.standings.map Standing.name).Perm results.names ∧
      (results.standings.map fun standing => standing.score.wins).sum =
        (results.standings.map fun standing => standing.score.losses).sum ∧
      (results.standings.map fun standing =>
        (standing.score.wins + standing.score.draws / 2 : Rat)).sum =
          ((results.met.map Matchup.games).sum : Int) ∧
      (∀ standing ∈ results.standings,
        (standing.score.wins + standing.score.draws / 2 : Rat) < 2 ^ 52 →
          Extent.ofFloat (results.points standing.name) =
            .finite (standing.score.wins + standing.score.draws / 2)) ∧
      ((results.met.map Matchup.games).sum < 2 ^ 52 →
        Extent.ofFloat ((results.names.map results.points).foldl (· + ·) 0) =
          .finite ((results.met.map Matchup.games).sum : Int))) := by
  constructor
  · intro first second distinct
    exact results.matchup?_swap distinct
  intro modest
  have counted : ∀ matchup ∈ results.matchups, matchup.Counted :=
    fun matchup mem => (modest matchup mem).counted
  refine ⟨winTable_eq nonempty, results.cell_swap, ?_, sum_wins nodup,
    sum_standings_worth nodup, ?_, ?_⟩
  · rw [names_standings]
    exact results.ranking_perm
  · intro standing mem small
    obtain ⟨named, score_eq, -⟩ := exists_of_mem_standings mem
    rw [score_eq] at small ⊢
    exact points_eq_total counted nodup named small
  · intro small
    apply extent_sum_points counted nodup
    have bound : (2 : Int) * 2 ^ 52 = Double.wholeBound := by decide
    omega

/-- Missing, repeated, turned and foreign matchups. -/
def untidyResults : Results :=
  ⟨[⟨"A", "B", 3, 1, 0⟩, ⟨"C", "A", 0, 2, 2⟩, ⟨"B", "A", 9, 9, 9⟩, ⟨"A", "D", 7, 0, 0⟩],
    ["A", "B", "C"]⟩

theorem seen_from_both_sides_untidy :
    untidyResults.names ≠ [] ∧ untidyResults.names.Nodup ∧
      (∀ matchup ∈ untidyResults.matchups, matchup.Modest) ∧
      untidyResults.cell "B" "A" = mirrored "3/1/0" ∧
      Extent.ofFloat ((untidyResults.names.map untidyResults.points).foldl (· + ·) 0) =
        .finite (8 : Int) := by
  have nonempty : untidyResults.names ≠ [] := by decide
  have nodup : untidyResults.names.Nodup := by decide
  have modest : ∀ matchup ∈ untidyResults.matchups, matchup.Modest := by decide
  have met : (untidyResults.met.map Matchup.games).sum = 8 := by decide
  have seen := (seen_from_both_sides nonempty nodup).2 modest
  have summed := seen.2.2.2.2.2.2 (by rw [met]; decide)
  rw [met] at summed
  exact ⟨nonempty, nodup, modest, seen.2.1 "A" "B", summed⟩

/-- Counts that are all below two to the power of 52, with a sum that is not. -/
def overflowingResults : Results :=
  ⟨[⟨"A", "B", 2 ^ 52 - 1, 3, 0⟩, ⟨"A", "C", 0, 1, 0⟩], ["A", "B", "C"]⟩

/-- Beyond that bound the points of an agent may differ from what its row of the standings says, and
their sum from the number of games. -/
theorem points_ne_standings_overflowing :
    overflowingResults.names ≠ [] ∧ overflowingResults.names.Nodup ∧
      (∀ matchup ∈ overflowingResults.matchups, matchup.Modest) ∧
      overflowingResults.total "A" = ⟨2 ^ 52 - 1, 4, 0⟩ ∧
      Extent.ofFloat (overflowingResults.points "A") ≠ .finite ((2 ^ 52 - 1 : Int) + (4 : Int) / 2) ∧
      (overflowingResults.met.map Matchup.games).sum = 2 ^ 52 + 3 ∧
      Extent.ofFloat ((overflowingResults.names.map overflowingResults.points).foldl (· + ·) 0) ≠
        .finite ((2 ^ 52 + 3 : Int) : Rat) := by
  decide +kernel

end Results

end GameSearch
