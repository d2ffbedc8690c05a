import GameSearch.Proofs.Nim.NimSum

/-!
# Optimal play

Who wins a position under optimal play is defined by going through all lines of play: a finished
game by its status, any other by the positions that the legal actions lead to. The closed form is
compared with this recursion.
-/

namespace GameSearch.Nim.Position

/-- Whether the player to move wins under optimal play: some legal action leads to a position that
the next player to move loses. -/
def moverWins (position : Position) : Bool :=
  match position.status with
  | .over winner => winner = some position.turn
  | .turn mover =>
    (position.legal mover).toList.any fun action =>
      match _played : position.move mover action with
      | .ok next => !next.moverWins
      | .error _ => false
termination_by position.total
decreasing_by
  have := total_play (move_eq_ok.mp _played)
  omega

variable {position next : Position}

theorem status_of_over (ended : position.isOver = true) :
    position.status =
      .over (some (if position.misere then position.turn else position.turn.opponent)) := by
  rw [status, if_pos ended]

theorem status_of_running (running : position.isOver = false) :
    position.status = .turn position.turn := by
  rw [status, running]
  rfl

theorem isOver_of_status {winner : Option Player} (status : position.status = .over winner) :
    position.isOver = true := by
  by_contra running
  rw [status_of_running (Bool.eq_false_iff.mpr running)] at status
  cases status

theorem status_eq_turn_iff {player : Player} :
    position.status = .turn player ↔ position.isOver = false ∧ position.turn = player := by
  cases ended : position.isOver with
  | true => simp [status_of_over ended]
  | false => simp [status_of_running ended]

theorem LeadsTo.isOver_eq_false (leads : position.LeadsTo next) : position.isOver = false := by
  rcases leads with ⟨action, played⟩
  exact (play_eq_ok.mp played).1

theorem LeadsTo.total_lt (leads : position.LeadsTo next) : next.total < position.total := by
  rcases leads with ⟨action, played⟩
  have := total_play played
  omega

theorem exists_leadsTo_of_running (running : position.isOver = false) :
    ∃ next, position.LeadsTo next := by
  rcases isOver_eq_false.mp running with ⟨size, mem, nonzero⟩
  rcases List.mem_iff_getElem?.mp mem with ⟨pile, at_pile⟩
  have allowed : 1 ≤ position.most size := by
    unfold most
    split
    · omega
    · rename_i limit known
      have := position.limit_pos limit known
      omega
  have lower : size - 1 < size := by omega
  rcases exists_leadsTo at_pile lower (by omega) with ⟨next, leads, -⟩
  exact ⟨next, leads⟩

theorem legal_ne_nil (running : position.isOver = false) :
    (game.legal position position.turn).toList ≠ [] := by
  rcases exists_leadsTo_of_running running with ⟨next, action, played⟩
  exact List.ne_nil_of_mem ((game.play_isOk _ _ action).mp ⟨next, move_eq_ok.mpr played⟩)

theorem moverWins_of_over (ended : position.isOver = true) :
    position.moverWins = position.misere := by
  rw [moverWins, status_of_over ended]
  cases position.misere <;> simp [Player.opponent_ne]

/-- A running game is won by whoever can leave the opponent in a lost position. -/
theorem moverWins_iff (running : position.isOver = false) :
    position.moverWins = true ↔ ∃ next, position.LeadsTo next ∧ next.moverWins = false := by
  rw [moverWins, status_of_running running]
  simp only [List.any_eq_true]
  constructor
  · rintro ⟨action, legal, wins⟩
    split at wins
    · rename_i next played
      exact ⟨next, ⟨action, move_eq_ok.mp played⟩, by simpa using wins⟩
    · cases wins
  · rintro ⟨next, ⟨action, played⟩, loses⟩
    have moved := move_eq_ok.mpr played
    refine ⟨action, (move_isOk _ _ _).mp ⟨next, moved⟩, ?_⟩
    split
    · rename_i other played
      have next_eq : next = other := by simpa [moved] using played
      subst next_eq
      simpa using loses
    · rename_i fault refused
      simp [moved] at refused

end GameSearch.Nim.Position
