import GameSearch.Contest.Play
import GameSearch.Proofs.Search.Returns

/-!
# Games from start to end

A game goes on as long as whoever is to move has a seat that returns a playable action. An invariant
that every such turn upholds holds at the end, and without a turn limit a game of known height comes
to an end.
-/

namespace GameSearch

variable {Memory Position Player Action : Type} {game : Game Position Player Action}
  {seats : Player → Option (Seat Memory Position Action)}
  {invariant : Record Position Player Action → Memory → Prop}

/-- Whether every turn taken while an invariant holds returns a playable action and upholds the
invariant. -/
def Upholds (game : Game Position Player Action)
    (seats : Player → Option (Seat Memory Position Action))
    (invariant : Record Position Player Action → Memory → Prop) : Prop :=
  ∀ record player (effort : Effort Memory), game.status record.position = .turn player →
    invariant record effort.memory → ∃ seat, seats player = some seat ∧
      (seat.choose record.position).Returns effort fun action after =>
        ∃ next, game.play record.position player action = .ok next ∧
          invariant ⟨next, record.actions.push (player, action)⟩ after.memory

/-- Whether a seat always returns a legal action when it is a player's turn. -/
def Seat.PlaysLegally (seat : Seat Memory Position Action) (game : Game Position Player Action)
    (player : Player) : Prop :=
  ∀ position effort, game.status position = .turn player →
    (seat.choose position).Returns effort fun action _ => action ∈ game.legal position player

theorem Seat.within_returns {Whole : Type} {seat : Seat Memory Position Action}
    {position : Position} {part : Whole → Memory} {replace : Whole → Memory → Whole}
    {effort : Effort Whole} {condition : Action → Effort Memory → Prop}
    {weaker : Action → Effort Whole → Prop}
    (returns : (seat.choose position).Returns ⟨effort.checks, part effort.memory, effort.notes⟩
      condition)
    (weakens : ∀ action after, condition action after →
      weaker action ⟨after.checks, replace effort.memory after.memory, after.notes⟩) :
    ((seat.within part replace).choose position).Returns effort weaker := by
  rcases returns with ⟨action, after, chosen, holds⟩
  refine ⟨action, ⟨after.checks, replace effort.memory after.memory, after.notes⟩, ?_,
    weakens action after holds⟩
  exact congrArg (fun ran : Except Fault Action × Effort Memory => (ran.1,
    (⟨ran.2.checks, replace effort.memory ran.2.memory, ran.2.notes⟩ : Effort Whole))) chosen

/-- Seats that always return a legal action need no invariant. -/
theorem upholds_of_playsLegally
    (legal : ∀ player, ∃ seat, seats player = some seat ∧ seat.PlaysLegally game player) :
    Upholds game seats fun _ _ => True := by
  intro record player effort turn _
  rcases legal player with ⟨seat, seated, plays⟩
  refine ⟨seat, seated, (plays record.position effort turn).mono ?_⟩
  intro action after mem
  rcases (game.play_isOk _ _ _).mpr mem with ⟨next, played⟩
  exact ⟨next, played, trivial⟩

variable [Worded Player] [Worded Action]

/-- A game of known height is played to its end, where the invariant still holds. -/
theorem playOn_ends (upholds : Upholds game seats invariant) {remaining moves : Nat}
    {record : Record Position Player Action} {effort : Effort Memory}
    (known : game.height record.position = some moves) (enough : moves < remaining)
    (holds : invariant record effort.memory) :
    ∃ winner last after,
      playOn game seats none remaining record effort =
          ⟨.ok ⟨winner, last.actions.toList, true⟩, last, after⟩ ∧
        game.status last.position = .over winner ∧ invariant last after.memory := by
  induction remaining generalizing record effort moves with
  | zero => omega
  | succ remaining ih =>
      rw [playOn]
      rcases status : game.status record.position with player | winner
      · rcases upholds record player effort status holds with
          ⟨seat, seated, action, after, chosen, next, played, kept⟩
        simp only [Option.filter_none, seated, chosen, played]
        rcases game.height_play _ _ _ _ _ played known with ⟨fewer, fewer_eq, less⟩
        apply ih fewer_eq (by omega)
        exact kept
      · exact ⟨winner, record, _, rfl, status, holds⟩

theorem playGame_ends (upholds : Upholds game seats invariant) {start : Position} {moves : Nat}
    {effort : Effort Memory} (known : game.height start = some moves)
    (holds : invariant ⟨start, #[]⟩ effort.memory) :
    ∃ winner last after,
      playGame game seats none start effort =
          ⟨.ok ⟨winner, last.actions.toList, true⟩, last, after⟩ ∧
        game.status last.position = .over winner ∧ invariant last after.memory := by
  apply playOn_ends upholds known _ holds
  simp [turnBound, known]

theorem rosterSeat_returns [DecidableEq Player] [DecidableEq Action] {deadlines : Deadlines}
    {name : String} {index : Nat} {agent : Agent Position Player Action} {position : Position}
    {action : Action} {notes : Array Note} {effort : Effort (Roster Position Player Action)}
    (at_index : effort.memory[index]? = some agent)
    (chosen : agent.choose game (deadlines effort.checks) position = (.ok action, agent, notes)) :
    ((rosterSeat game deadlines name index).choose position).Returns effort fun result after =>
      result = action ∧ after.memory = effort.memory := by
  refine ⟨action, ⟨effort.checks + 1, effort.memory, effort.notes ++ notes⟩, ?_, rfl, rfl⟩
  have same : effort.memory.setIfInBounds index agent = effort.memory := by
    rcases Array.getElem?_eq_some_iff.mp at_index with ⟨bound, rfl⟩
    rw [Array.setIfInBounds, dif_pos bound, Array.set_getElem_self]
  change (rosterSeat game deadlines name index).choose position effort = _
  simp only [rosterSeat, at_index, chosen, same]

end GameSearch
