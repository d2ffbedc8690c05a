import GameSearch.Proofs.Nim.Solving

/-!
# Judging actions

Where the rules have a closed form, an action is judged by it: in a won position an action is as good
as any if it is one of the winning actions, and in a lost position every action is. So the judgement
is right about every action in a won position and about every legal one in a lost position. There
it says the same of actions that nobody can play.
-/

namespace GameSearch.Nim.Position

variable {position next : Position} {action : Action}

/-- Whether an action is legal for the player to move and leaves what optimal play brings this player
as it is. -/
def KeepsOutcome (position : Position) (action : Action) : Prop :=
  action ∈ game.legal position position.turn ∧
    ∀ next, game.play position position.turn action = .ok next →
      (next.IsWinFor position.turn ↔ position.IsWinFor position.turn)

theorem keepsOutcome_iff : position.KeepsOutcome action ↔
    ∃ next, game.play position position.turn action = .ok next ∧
      (next.moverWins = false ↔ position.moverWins = true) := by
  constructor
  · rintro ⟨legal, kept⟩
    rcases Game.play_of_mem_legal legal with ⟨next, played⟩
    refine ⟨next, played, ?_⟩
    rw [← (leadsTo_of_play played).isWinFor_turn_iff, ← isWinFor_turn]
    exact kept next played
  · rintro ⟨next, played, kept⟩
    refine ⟨(game.play_isOk _ _ _).mp ⟨next, played⟩, ?_⟩
    intro other reached
    rw [played, Except.ok.injEq] at reached
    subst reached
    rw [(leadsTo_of_play played).isWinFor_turn_iff, isWinFor_turn]
    exact kept

/-- From a lost position every legal action is equally good. -/
theorem keepsOutcome_of_lost (lost : position.moverWins = false) :
    position.KeepsOutcome action ↔ action ∈ game.legal position position.turn := by
  constructor
  · exact And.left
  · intro legal
    rcases Game.play_of_mem_legal legal with ⟨next, played⟩
    have leads := leadsTo_of_play played
    refine keepsOutcome_iff.mpr ⟨next, played, ?_⟩
    constructor
    · intro loses
      exact (moverWins_iff leads.isOver_eq_false).mpr ⟨next, leads, loses⟩
    · intro wins
      rw [lost] at wins
      cases wins

/-- In a won position the actions that keep the outcome are the winning ones. -/
theorem mem_winningActions_iff {winning : List Action} (closed : position.hasClosedForm = true)
    (known : position.winningActions = .ok winning) (won : position.moverWins = true) :
    action ∈ winning ↔ position.KeepsOutcome action := by
  rw [winningActions_eq closed] at known
  rcases Except.ok.inj known with rfl
  rw [keepsOutcome_iff]
  constructor
  · intro mem
    rcases List.mem_map.mp mem with ⟨⟨_, next⟩, entry_mem, rfl⟩
    rcases List.mem_filter.mp entry_mem with ⟨succeeds, loses⟩
    exact ⟨next, Game.mem_successors.mp succeeds, by simpa [won] using loses⟩
  · rintro ⟨next, played, kept⟩
    refine List.mem_map.mpr ⟨(action, next), List.mem_filter.mpr ⟨?_, ?_⟩, rfl⟩
    · exact Game.mem_successors.mpr played
    · simpa [won] using kept

/-- The judgement is always given. It says of an action that it is as good as any if the action keeps
the outcome, or if the position is lost anyway; so it is right about all legal actions, and about
the others in a won position. -/
theorem isPerfectAction_judges (closed : position.hasClosedForm = true) (action : Action) :
    ∃ perfect, position.isPerfectAction action = .ok perfect ∧
      (perfect = true ↔ position.KeepsOutcome action ∨ ¬position.IsWinFor position.turn) ∧
      (action ∈ game.legal position position.turn ∨ position.IsWinFor position.turn →
        (perfect = true ↔ position.KeepsOutcome action)) := by
  obtain ⟨winning, known⟩ : ∃ winning, position.winningActions = .ok winning :=
    ⟨_, winningActions_eq closed⟩
  have judged : position.isPerfectAction action =
      if position.moverWins then .ok (decide (action ∈ winning)) else .ok true := by
    rw [isPerfectAction, isWinning_eq_verdict closed, verdict_eq_moverWins closed, known]
    rfl
  rw [judged, isWinFor_turn]
  cases won : position.moverWins with
  | true =>
      have winning_iff : action ∈ winning ↔ position.KeepsOutcome action :=
        mem_winningActions_iff closed known won
      exact ⟨_, rfl, by simpa using winning_iff, fun _ => by simpa using winning_iff⟩
  | false =>
      refine ⟨true, rfl, by simp, ?_⟩
      rintro (legal | impossible)
      · simpa using (keepsOutcome_of_lost won).mpr legal
      · cases impossible

/-- In misère Nim with a pile of three and two piles of one, taking two objects is as good as any, and
neither taking one is nor taking from a pile that is not there. -/
theorem isPerfectAction_judges_misere :
    let start : Position := ⟨[3, 1, 1], .one, none, true, by simp, by simp⟩
    start.hasClosedForm = true ∧ start.IsWinFor .one ∧
      start.KeepsOutcome ⟨0, 2⟩ ∧ ¬start.KeepsOutcome ⟨0, 1⟩ ∧ ¬start.KeepsOutcome ⟨3, 1⟩ := by
  intro start
  have closed : start.hasClosedForm = true := rfl
  have wins : start.isWinning = .ok true := by
    dsimp only [start]
    rfl
  rw [isWinning_eq_verdict closed, verdict_eq_moverWins closed, Except.ok.injEq] at wins
  have won : start.IsWinFor .one := isWinFor_turn.mpr wins
  have judge (action : Action) (perfect : Bool)
      (judged : start.isPerfectAction action = .ok perfect) :
      perfect = true ↔ start.KeepsOutcome action := by
    rcases isPerfectAction_judges closed action with ⟨answer, given, -, right⟩
    rw [given, Except.ok.injEq] at judged
    rw [← judged]
    exact right (.inr won)
  have judged : start.isPerfectAction ⟨0, 2⟩ = .ok true ∧
      start.isPerfectAction ⟨0, 1⟩ = .ok false ∧ start.isPerfectAction ⟨3, 1⟩ = .ok false := by
    dsimp only [start]
    exact ⟨rfl, rfl, rfl⟩
  rcases judged with ⟨two, one, elsewhere⟩
  refine ⟨closed, won, (judge _ _ two).mp rfl, ?_, ?_⟩
  · exact fun kept => Bool.false_ne_true ((judge _ _ one).mpr kept)
  · exact fun kept => Bool.false_ne_true ((judge _ _ elsewhere).mpr kept)

/-- With two piles of one the player to move has lost, and an action on a pile that is not there
counts as good as any. -/
theorem isPerfectAction_unplayable :
    ¬∀ (position : Position) (action : Action), position.hasClosedForm = true →
      position.isOver = false →
        (position.isPerfectAction action = .ok true ↔ position.KeepsOutcome action) := by
  intro claimed
  let start : Position := ⟨[1, 1], .one, none, false, by simp, by simp⟩
  have judged : start.isPerfectAction ⟨7, 99⟩ = .ok true := by
    dsimp only [start]
    rfl
  have legal : ⟨7, 99⟩ ∈ start.legal start.turn := ((claimed start ⟨7, 99⟩ rfl rfl).mp judged).1
  rcases mem_legal.mp legal with ⟨-, -, pile, size, at_pile, pile_eq, -⟩
  have beyond : pile = 7 := by
    dsimp only at pile_eq
    omega
  simp [start, beyond] at at_pile

end GameSearch.Nim.Position
