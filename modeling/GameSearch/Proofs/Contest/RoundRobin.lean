import GameSearch.Contest.Tournament
import GameSearch.Proofs.Search.Memory
import Mathlib.Data.List.Nodup

/-!
# Everybody meets everybody

A tournament that returns results has played one matchup for every two of its agents, in the order
in which the agents are named. Since no name occurs twice, a matchup is found again from either side
by the two names.
-/

namespace GameSearch

open Config (TournamentSpec AgentSpec)

/-! ### Pairs -/

section

variable {α β : Type} {items : List α} {first second : α}

theorem pairs_map (change : α → β) (items : List α) :
    pairs (items.map change) = (pairs items).map (Prod.map change change) := by
  induction items with
  | nil => rfl
  | cons item items ih =>
      simp only [List.map_cons, pairs, ih, List.map_append, List.map_map]
      rfl

/-- Two items are paired as they stand in the list. -/
theorem mem_pairs_iff : (first, second) ∈ pairs items ↔ [first, second].Sublist items := by
  induction items with
  | nil => simp [pairs]
  | cons item items ih =>
      simp only [pairs, List.mem_append, List.mem_map, Prod.mk.injEq, ih]
      constructor
      · rintro (⟨other, mem, rfl, rfl⟩ | sublist)
        · exact (List.singleton_sublist.mpr mem).cons_cons item
        · exact sublist.cons item
      · intro sublist
        cases sublist with
        | cons _ sublist => exact .inr sublist
        | cons_cons _ sublist => exact .inl ⟨second, List.singleton_sublist.mp sublist, rfl, rfl⟩

theorem mem_pairs_of_lt {low high : Nat} (less : low < high) (at_low : items[low]? = some first)
    (at_high : items[high]? = some second) : (first, second) ∈ pairs items := by
  induction items generalizing low high with
  | nil => simp at at_low
  | cons item items ih =>
      obtain ⟨high, rfl⟩ : ∃ before, high = before + 1 := ⟨high - 1, by omega⟩
      rw [List.getElem?_cons_succ] at at_high
      rw [pairs, List.mem_append]
      cases low with
      | zero =>
          left
          rw [List.getElem?_cons_zero, Option.some.injEq] at at_low
          subst at_low
          exact List.mem_map_of_mem (List.mem_of_getElem? at_high)
      | succ low =>
          right
          exact ih (by omega) at_low at_high

theorem left_mem_of_mem_pairs (mem : (first, second) ∈ pairs items) : first ∈ items :=
  (mem_pairs_iff.mp mem).subset (by simp)

theorem right_mem_of_mem_pairs (mem : (first, second) ∈ pairs items) : second ∈ items :=
  (mem_pairs_iff.mp mem).subset (by simp)

theorem ne_of_mem_pairs (nodup : items.Nodup) (mem : (first, second) ∈ pairs items) :
    first ≠ second := by
  have both := nodup.sublist (mem_pairs_iff.mp mem)
  simpa using both

/-- Distinct items are paired one way or the other. -/
theorem mem_pairs_or (distinct : first ≠ second) (mem : first ∈ items) (other : second ∈ items) :
    (first, second) ∈ pairs items ∨ (second, first) ∈ pairs items := by
  rcases List.getElem?_of_mem mem with ⟨low, at_low⟩
  rcases List.getElem?_of_mem other with ⟨high, at_high⟩
  rcases Nat.lt_trichotomy low high with less | rfl | greater
  · exact .inl (mem_pairs_of_lt less at_low at_high)
  · rw [at_low, Option.some.injEq] at at_high
    exact absurd at_high distinct
  · exact .inr (mem_pairs_of_lt greater at_high at_low)

theorem mem_pairs_cons {item : α} :
    (first, second) ∈ pairs (item :: items) ↔
      (first = item ∧ second ∈ items) ∨ (first, second) ∈ pairs items := by
  simp only [pairs, List.mem_append, List.mem_map, Prod.mk.injEq]
  apply or_congr_left
  constructor
  · rintro ⟨other, mem, rfl, rfl⟩
    exact ⟨rfl, mem⟩
  · rintro ⟨rfl, mem⟩
    exact ⟨second, mem, rfl, rfl⟩

theorem swap_not_mem_pairs (nodup : items.Nodup) (mem : (first, second) ∈ pairs items) :
    (second, first) ∉ pairs items := by
  induction items with
  | nil => cases mem
  | cons item items ih =>
      rw [List.nodup_cons] at nodup
      rw [mem_pairs_cons] at mem ⊢
      rcases mem with ⟨rfl, mem⟩ | mem
      · rintro (⟨rfl, -⟩ | swapped)
        · exact nodup.1 mem
        · exact nodup.1 (right_mem_of_mem_pairs swapped)
      · rintro (⟨rfl, -⟩ | swapped)
        · exact nodup.1 (right_mem_of_mem_pairs mem)
        · exact ih nodup.2 mem swapped

theorem nodup_pairs (nodup : items.Nodup) : (pairs items).Nodup := by
  induction items with
  | nil => exact List.nodup_nil
  | cons item items ih =>
      rw [List.nodup_cons] at nodup
      rw [pairs, List.nodup_append']
      refine ⟨nodup.2.map fun _ _ same => (Prod.mk.inj same).2, ih nodup.2, ?_⟩
      rintro ⟨left, right⟩ here there
      rcases List.mem_map.mp here with ⟨other, -, same⟩
      rcases Prod.mk.inj same with ⟨rfl, -⟩
      exact nodup.1 (left_mem_of_mem_pairs there)

/-- Of two distinct items there is one pair. -/
theorem count_pairs_add [DecidableEq α] (nodup : items.Nodup) (distinct : first ≠ second)
    (mem : first ∈ items) (other : second ∈ items) :
    (pairs items).count (first, second) + (pairs items).count (second, first) = 1 := by
  have once := nodup_pairs nodup
  rcases mem_pairs_or distinct mem other with here | here
  · rw [List.count_eq_one_of_mem once here,
      List.count_eq_zero_of_not_mem (swap_not_mem_pairs nodup here)]
  · rw [List.count_eq_one_of_mem once here,
      List.count_eq_zero_of_not_mem (swap_not_mem_pairs nodup here)]

end

/-! ### Finding matchups -/

namespace Results

variable {results : Results} {first second : String}

/-- Between distinct agents, the matchup seen from the other side is the same one flipped. -/
theorem matchup?_swap (results : Results) (distinct : first ≠ second) :
    results.matchup? second first = (results.matchup? first second).map Matchup.flipped := by
  unfold matchup?
  induction results.matchups with
  | nil => rfl
  | cons matchup matchups ih =>
      rw [List.findSome?_cons, List.findSome?_cons]
      by_cases straight : matchup.first = first ∧ matchup.second = second
      · have twisted : ¬(matchup.first = second ∧ matchup.second = first) := by
          rintro ⟨rfl, -⟩
          exact distinct straight.1.symm
        rw [if_pos straight, if_neg twisted, if_pos straight]
        rfl
      · by_cases twisted : matchup.first = second ∧ matchup.second = first
        · rw [if_pos twisted, if_neg straight, if_pos twisted]
          rfl
        · rw [if_neg straight, if_neg twisted, if_neg twisted, if_neg straight]
          exact ih

/-- Whether there is one matchup for every two of the agents, whose names are distinct. -/
structure RoundRobin (results : Results) : Prop where
  nodup : results.names.Nodup
  paired : results.matchups.map (fun matchup => (matchup.first, matchup.second)) =
    pairs results.names

namespace RoundRobin

variable {matchup : Matchup}

theorem mem_pairs (roundRobin : results.RoundRobin) (mem : matchup ∈ results.matchups) :
    (matchup.first, matchup.second) ∈ pairs results.names := by
  rw [← roundRobin.paired]
  exact List.mem_map_of_mem mem

/-- A matchup is found by the names of its agents. -/
theorem matchup?_eq (roundRobin : results.RoundRobin) (mem : matchup ∈ results.matchups) :
    results.matchup? matchup.first matchup.second = some matchup := by
  rcases List.append_of_mem mem with ⟨before, after, matchups_eq⟩
  apply List.findSome?_eq_some_iff.mpr
  refine ⟨before, matchup, after, matchups_eq, if_pos ⟨rfl, rfl⟩, ?_⟩
  intro other earlier
  -- An earlier matchup of the same agents would be a second pair of their names.
  have nodup := nodup_pairs roundRobin.nodup
  have swapped := swap_not_mem_pairs roundRobin.nodup (roundRobin.mem_pairs mem)
  rw [← roundRobin.paired, matchups_eq, List.map_append, List.nodup_append'] at nodup
  rw [← roundRobin.paired, matchups_eq, List.map_append] at swapped
  have here : (other.first, other.second) ∈
      before.map fun matchup => (matchup.first, matchup.second) := List.mem_map_of_mem earlier
  rw [if_neg, if_neg]
  · rintro ⟨first_eq, second_eq⟩
    rw [first_eq, second_eq] at here
    exact swapped (List.mem_append_left _ here)
  · rintro ⟨first_eq, second_eq⟩
    rw [first_eq, second_eq] at here
    exact nodup.2.2 here (by simp)

end RoundRobin

end Results

/-! ### Running a tournament -/

namespace Tournament

variable {spec : TournamentSpec} {gauges : Nim.GaugeTable} {entropies : Entropies}
  {clock : Clock} {deadlines : Deadlines}
  {start : Nim.Position} {registered : Registry Nim.Position Nim.Player Nim.Action}
  {first second : Entrant} {before after : Effort NimRoster} {results : Results}

theorem names_register {earlier : Registry Nim.Position Nim.Player Nim.Action} {agent : AgentSpec}
    {entropy : Random.Entropy} (done : agent.register gauges entropy earlier = .ok registered) :
    registered.names = earlier.names ++ [agent.name] := by
  unfold AgentSpec.register at done
  cases built : agent.build gauges entropy with
  | error fault =>
      rw [built] at done
      cases done
  | ok player =>
      rw [built] at done
      change Registry.register earlier agent.name player = _ at done
      unfold Registry.register at done
      split at done
      · cases done
      · cases done
        simp only [Registry.names, List.map_append, List.map_cons, List.map_nil]

/-- All agents are registered under their names, in order. -/
theorem names_registry (done : registry spec gauges entropies = .ok registered) :
    registered.names = spec.agents.map (·.name) := by
  have appended : ∀ (agents : List AgentSpec) earlier,
      agents.foldlM (fun registry agent =>
        agent.register gauges (entropies registry.entries.length) registry) earlier =
          .ok registered → registered.names = earlier.names ++ agents.map (·.name) := by
    intro agents
    induction agents with
    | nil =>
        intro earlier done
        cases done
        simp
    | cons agent agents ih =>
        intro earlier done
        rw [List.foldlM_cons] at done
        cases first : agent.register gauges (entropies earlier.entries.length) earlier with
        | error fault =>
            rw [first] at done
            cases done
        | ok next =>
            rw [first] at done
            rw [ih next done, names_register first, List.append_assoc]
            rfl
  exact appended spec.agents .empty done

theorem names_entrants (registered : Registry Nim.Position Nim.Player Nim.Action) :
    (entrants registered).map (·.name) = registered.names := by
  apply List.ext_getElem?
  intro index
  simp only [entrants, Registry.names, List.getElem?_map, List.getElem?_zipIdx, Option.map_map]
  rfl

theorem getElem?_entrants {index : Nat} {name : String} {agent : Nim.NimAgent}
    (at_index : registered.entries[index]? = some (name, agent)) :
    (entrants registered)[index]? = some ⟨name, agent.name, index⟩ := by
  rw [entrants, List.getElem?_map, List.getElem?_zipIdx, at_index]
  simp

/-- Plays a game in which the first of two entrants has the given seat and the second one the
other. -/
def seated (spec : TournamentSpec) (deadlines : Deadlines) (start : Nim.Position)
    (first second : Entrant) (seat : Nim.Player) (effort : Effort NimRoster) :
    Played NimRoster Nim.Position Nim.Player Nim.Action :=
  let sit (entrant : Entrant) := rosterSeat Nim.game deadlines entrant.title entrant.index
  GameSearch.playGame Nim.game (seatOf [(seat, sit first), (seat.opponent, sit second)])
    spec.maxTurns start effort

theorem exists_of_playGame {number : Nat} {winner : Option Nim.Player}
    (played : (playGame spec deadlines start first second number).Yields before winner after) :
    ∃ result, (seated spec deadlines start first second (firstSeat number) before).result =
        .ok result ∧ result.winner = winner ∧
      (seated spec deadlines start first second (firstSeat number) before).effort = after := by
  have returned := congrArg Prod.fst played
  change (seated spec deadlines start first second (firstSeat number) before).result.map
    (·.winner) = .ok _ at returned
  cases outcome : (seated spec deadlines start first second (firstSeat number) before).result with
  | error fault =>
      rw [outcome] at returned
      cases returned
  | ok result =>
      rw [outcome] at returned
      exact ⟨result, rfl, Except.ok.inj returned, congrArg Prod.snd played⟩

theorem names_countGame (matchup : Matchup) (firstSeat : Nim.Player) (winner : Option Nim.Player) :
    (countGame matchup firstSeat winner).first = matchup.first ∧
      (countGame matchup firstSeat winner).second = matchup.second := by
  unfold countGame
  split
  · exact ⟨rfl, rfl⟩
  · split <;> exact ⟨rfl, rfl⟩

/-- A matchup is between the two entrants. -/
theorem names_playGames {remaining number : Nat} {matchup final : Matchup}
    (ran : (playGames spec deadlines start first second remaining number matchup).Yields before final
      after) : final.first = matchup.first ∧ final.second = matchup.second := by
  induction remaining generalizing number matchup before with
  | zero =>
      rcases SearchM.yields_pure.mp ran with ⟨rfl, -⟩
      exact ⟨rfl, rfl⟩
  | succ remaining ih =>
      rw [playGames] at ran
      rcases SearchM.yields_bind.mp ran with ⟨winner, between, -, rest⟩
      have counted := names_countGame matchup (firstSeat number) winner
      have named := ih rest
      exact ⟨named.1.trans counted.1, named.2.trans counted.2⟩

theorem yields_playMatchup {matchup : Matchup}
    (ran : (playMatchup spec deadlines start (first, second)).Yields before matchup after) :
    ∃ between notes, (playGames spec deadlines start first second spec.gamesPerMatchup.toNat 0
      ⟨first.name, second.name, 0, 0, 0⟩).Yields before matchup between ∧
        after = { between with notes } := by
  unfold playMatchup at ran
  rcases SearchM.yields_bind.mp ran with ⟨final, between, played, noted⟩
  rcases SearchM.yields_bind.mp noted with ⟨_, _, announced, done⟩
  rcases SearchM.yields_pure.mp done with ⟨rfl, rfl⟩
  cases announced
  exact ⟨between, _, played, rfl⟩

/-- What a tournament that returns results has done. -/
theorem exists_of_run (returned : (run spec gauges entropies clock).1 = .ok results) :
    ∃ registered start before after, registry spec gauges entropies = .ok registered ∧
      spec.game.build = .ok start ∧ before.memory = (registered.entries.map (·.2)).toArray ∧
      ((pairs (entrants registered)).mapM (playMatchup spec (clock spec.moveTime) start)).Yields
        before results.matchups after ∧
      results.names = registered.names := by
  unfold run at returned
  cases registry_eq : registry spec gauges entropies with
  | error fault =>
      rw [registry_eq] at returned
      cases returned
  | ok registered =>
      cases built : spec.game.build with
      | error fault =>
          rw [registry_eq, built] at returned
          cases returned
      | ok start =>
          rw [registry_eq, built] at returned
          simp only at returned
          rcases all : (playAll spec (clock spec.moveTime) start registered).run.run
            (.start (registered.entries.map (·.2)).toArray) with ⟨outcome, after⟩
          rw [all] at returned
          subst returned
          rcases SearchM.yields_bind.mp all with ⟨_, before, noted, played⟩
          rcases SearchM.yields_bind.mp played with ⟨matchups, between, ran, done⟩
          rcases SearchM.yields_pure.mp done with ⟨rfl, -⟩
          cases noted
          exact ⟨registered, start, _, between, rfl, rfl, rfl, ran, rfl⟩

/-- A tournament that returns results has played everybody against everybody. -/
theorem roundRobin_of_run (returned : (run spec gauges entropies clock).1 = .ok results) :
    results.RoundRobin ∧ results.names = spec.agents.map (·.name) := by
  rcases exists_of_run returned with
    ⟨registered, start, before, after, registry_eq, -, -, ran, names_eq⟩
  have named : results.names = spec.agents.map (·.name) :=
    names_eq.trans (names_registry registry_eq)
  have paired : ((pairs (entrants registered)).map fun pair => (pair.1.name, pair.2.name)) =
      results.matchups.map fun matchup => (matchup.first, matchup.second) := by
    rw [← List.forall₂_eq_eq_eq, List.forall₂_map_left_iff, List.forall₂_map_right_iff]
    have kept : ∀ pair, (playMatchup spec (clock spec.moveTime) start pair).Keeps
        fun _ => True := fun _ _ _ => trivial
    apply (SearchM.forall₂_of_mapM kept ran trivial).imp
    rintro ⟨first, second⟩ matchup ⟨between, later, -, played⟩
    rcases yields_playMatchup played with ⟨last, _, counted, -⟩
    have names := names_playGames counted
    rw [names.1, names.2]
  refine ⟨⟨?_, ?_⟩, named⟩
  · rw [names_eq]
    exact registered.nodup
  · rw [← paired, names_eq, ← names_entrants, pairs_map]
    rfl

end Tournament

end GameSearch
