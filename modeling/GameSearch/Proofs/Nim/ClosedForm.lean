import GameSearch.Proofs.Nim.Optimal
import Mathlib.Algebra.BigOperators.Group.List.Basic

/-!
# The closed form is right

The closed form obeys the recursion that defines optimal play: in a running game the mover's verdict
is a win exactly if some move leads to a position whose verdict is a loss. For normal play this is
what moves do to the nim-sum. Misère play agrees with it as long as some pile holds two objects or
more; the move that lowers the last such pile can leave one object more or less, whichever makes the
rest odd.
-/

namespace GameSearch.Nim.Position

variable {position next : Position}

/-- Whether no pile holds more than one object. -/
def IsSmall (position : Position) : Prop := ∀ size ∈ position.piles, size ≤ 1

instance (position : Position) : Decidable position.IsSmall :=
  inferInstanceAs (Decidable (∀ size ∈ position.piles, size ≤ 1))

/-- The verdict of the closed form. -/
def verdict (position : Position) : Bool :=
  if position.misere ∧ position.IsSmall then position.total % 2 == 0 else position.nimSum != 0

theorem isWinning_eq_verdict (closed : position.hasClosedForm = true) :
    position.isWinning = .ok position.verdict := by
  have small_iff : position.piles.all (· ≤ 1) = true ↔ position.IsSmall := by
    simp [IsSmall]
  unfold isWinning verdict
  cases misere : position.misere with
  | false => simp
  | true =>
      by_cases small : position.IsSmall
      · simp [closed, small_iff.mpr small, small]
      · have large := Bool.eq_false_iff.mpr (mt small_iff.mp small)
        simp [closed, large, small]

theorem verdict_of_over (ended : position.isOver = true) : position.verdict = position.misere := by
  have empty : ∀ size ∈ position.piles, size = 0 := by simpa [isOver] using ended
  have small : position.IsSmall := fun size mem => (empty size mem).le.trans (Nat.zero_le 1)
  have total_eq : position.total = 0 := List.sum_eq_zero empty
  have nimSum_eq : position.nimSum = 0 := by
    rw [nimSum_eq_xorAll]
    apply xorAll_eq_zero
    simp only [List.forall_mem_map]
    intro size mem
    rw [empty size mem, grundy_zero]
  cases misere : position.misere with
  | false => simp [verdict, misere, nimSum_eq]
  | true => simp [verdict, misere, small, total_eq]

theorem verdict_iff_of_normal (normal : position.misere = false) :
    position.verdict = true ↔ ∃ next, position.LeadsTo next ∧ next.verdict = false := by
  constructor
  · intro wins
    have positive : 0 < position.nimSum := by
      simpa [verdict, normal, Nat.pos_iff_ne_zero] using wins
    rcases exists_nimSum_eq positive with ⟨next, pile, size, left, leads, lowers, -, nimSum_eq⟩
    exact ⟨next, leads, by simp [verdict, lowers.misere_eq, normal, nimSum_eq]⟩
  · rintro ⟨next, leads, loses⟩
    rcases leads.lowers with ⟨pile, size, left, lowers, -, -⟩
    have nimSum_eq : next.nimSum = 0 := by
      simpa [verdict, lowers.misere_eq, normal] using loses
    have := leads.nimSum_ne
    simp [verdict, normal]
    omega

section Misere

variable {pile size left : Nat}

/-- Whether all piles but one hold at most one object. -/
def SmallBeside (position : Position) (pile : Nat) : Prop :=
  ∀ index size, index ≠ pile → position.piles[index]? = some size → size ≤ 1

theorem isSmall_iff (at_pile : position.piles[pile]? = some size) :
    position.IsSmall ↔ size ≤ 1 ∧ position.SmallBeside pile := by
  constructor
  · intro small
    exact ⟨small size (List.mem_of_getElem? at_pile),
      fun index other _ at_index => small other (List.mem_of_getElem? at_index)⟩
  · rintro ⟨here, beside⟩ other mem
    rcases List.mem_iff_getElem?.mp mem with ⟨index, at_index⟩
    by_cases same : index = pile
    · rw [same, at_pile] at at_index
      exact Option.some.inj at_index ▸ here
    · exact beside index other same at_index

theorem Lowers.at_pile_next (lowers : position.Lowers next pile size left) :
    next.piles[pile]? = some left := by
  have bound := (List.getElem?_eq_some_iff.mp lowers.at_pile).1
  rw [lowers.piles_eq, List.getElem?_set_self bound]

theorem Lowers.smallBeside_iff (lowers : position.Lowers next pile size left) :
    next.SmallBeside pile ↔ position.SmallBeside pile := by
  unfold SmallBeside
  apply forall_congr'
  intro index
  apply forall_congr'
  intro other
  apply imp_congr_right
  intro beside
  rw [lowers.piles_eq, List.getElem?_set_ne (Ne.symm beside)]

theorem Lowers.total_add (lowers : position.Lowers next pile size left) :
    next.total + size = position.total + left := by
  simp only [total, lowers.piles_eq]
  exact sum_set_add lowers.at_pile

theorem grundy_of_unlimited (unlimited : position.limit = none) (size : Nat) :
    position.grundy size = size := by
  rw [grundy, unlimited]

theorem nimSum_le_one (small : position.IsSmall) : position.nimSum ≤ 1 := by
  have below : position.nimSum < 2 ^ 1 :=
    nimSum_lt_two_pow fun size mem => Nat.lt_succ_of_le (small size mem)
  omega

theorem verdict_of_small (misere : position.misere = true) (small : position.IsSmall) :
    position.verdict = true ↔ position.total % 2 = 0 := by
  simp [verdict, misere, small]

theorem verdict_of_large (large : ¬position.IsSmall) :
    position.verdict = true ↔ position.nimSum ≠ 0 := by
  simp [verdict, large]

/-- Among small piles every move takes one object, so the parity of the objects decides. -/
theorem verdict_iff_of_small (misere : position.misere = true)
    (running : position.isOver = false) (small : position.IsSmall) :
    position.verdict = true ↔ ∃ next, position.LeadsTo next ∧ next.verdict = false := by
  have next_small : ∀ {next pile size left}, position.Lowers next pile size left → left < size →
      next.IsSmall ∧ next.total + 1 = position.total := by
    intro next pile size left lowers lower
    rcases (isSmall_iff lowers.at_pile).mp small with ⟨size_le, beside⟩
    have total_eq := lowers.total_add
    refine ⟨(isSmall_iff lowers.at_pile_next).mpr ⟨by omega, ?_⟩, by omega⟩
    exact lowers.smallBeside_iff.mpr beside
  rw [verdict_of_small misere small]
  constructor
  · intro even
    rcases exists_leadsTo_of_running running with ⟨next, leads⟩
    rcases leads.lowers with ⟨pile, size, left, lowers, lower, -⟩
    rcases next_small lowers lower with ⟨small_next, total_eq⟩
    refine ⟨next, leads, Bool.eq_false_iff.mpr ?_⟩
    rw [ne_eq, verdict_of_small (lowers.misere_eq.trans misere) small_next]
    omega
  · rintro ⟨next, leads, loses⟩
    rcases leads.lowers with ⟨pile, size, left, lowers, lower, -⟩
    rcases next_small lowers lower with ⟨small_next, total_eq⟩
    rw [Bool.eq_false_iff, ne_eq,
      verdict_of_small (lowers.misere_eq.trans misere) small_next] at loses
    omega

/-- The last large pile can be lowered so that the small piles left over are odd in number. -/
theorem exists_verdict_false_of_last (misere : position.misere = true)
    (unlimited : position.limit = none) (at_pile : position.piles[pile]? = some size)
    (two_le : 2 ≤ size) (beside : position.SmallBeside pile) :
    ∃ next, position.LeadsTo next ∧ next.verdict = false := by
  have size_le : size ≤ position.total := by
    have taken : (position.piles.set pile 0).foldr (· + ·) 0 + size = position.total + 0 :=
      sum_set_add at_pile
    omega
  have exists_left : ∃ left, left ≤ 1 ∧ (position.total - size + left) % 2 = 1 := by
    rcases Nat.mod_two_eq_zero_or_one (position.total - size) with even | odd
    · exact ⟨1, le_rfl, by omega⟩
    · exact ⟨0, Nat.zero_le 1, by omega⟩
  rcases exists_left with ⟨left, left_le, odd⟩
  rcases exists_leadsTo at_pile (left_le.trans_lt two_le)
    (by simp only [most, unlimited]; omega) with ⟨next, leads, lowers⟩
  have small_next := (isSmall_iff lowers.at_pile_next).mpr
    ⟨left_le, lowers.smallBeside_iff.mpr beside⟩
  have total_eq := lowers.total_add
  refine ⟨next, leads, Bool.eq_false_iff.mpr ?_⟩
  rw [ne_eq, verdict_of_small (lowers.misere_eq.trans misere) small_next]
  omega

/-- With a large pile, misère play is decided by the nim-sum. -/
theorem verdict_iff_of_large (misere : position.misere = true) (unlimited : position.limit = none)
    (large : ¬position.IsSmall) :
    position.verdict = true ↔ ∃ next, position.LeadsTo next ∧ next.verdict = false := by
  -- A move to small piles only lowers the last large pile.
  have last : ∀ {next pile size left}, position.Lowers next pile size left → next.IsSmall →
      2 ≤ size ∧ left ≤ 1 ∧ position.SmallBeside pile := by
    intro next pile size left lowers small_next
    rcases (isSmall_iff lowers.at_pile_next).mp small_next with ⟨left_le, beside⟩
    rw [lowers.smallBeside_iff] at beside
    rw [isSmall_iff lowers.at_pile] at large
    exact ⟨by by_contra; exact large ⟨by omega, beside⟩, left_le, beside⟩
  rw [verdict_of_large large]
  constructor
  · intro nonzero
    rcases exists_nimSum_eq (Nat.pos_of_ne_zero nonzero) with
      ⟨next, pile, size, left, leads, lowers, lower, nimSum_eq⟩
    by_cases small_next : next.IsSmall
    · rcases last lowers small_next with ⟨two_le, -, beside⟩
      exact exists_verdict_false_of_last misere unlimited lowers.at_pile two_le beside
    · refine ⟨next, leads, Bool.eq_false_iff.mpr ?_⟩
      rw [ne_eq, verdict_of_large small_next, not_not]
      exact nimSum_eq
  · rintro ⟨next, leads, loses⟩ zero
    rcases leads.lowers with ⟨pile, size, left, lowers, lower, -⟩
    rw [Bool.eq_false_iff, ne_eq] at loses
    by_cases small_next : next.IsSmall
    · rcases last lowers small_next with ⟨two_le, left_le, -⟩
      have sum_le := nimSum_le_one small_next
      have sum_eq := lowers.nimSum_eq
      rw [zero, Nat.zero_xor, grundy_of_unlimited unlimited, grundy_of_unlimited unlimited]
        at sum_eq
      have size_eq : size = next.nimSum ^^^ left := by
        rw [sum_eq, Nat.xor_xor_cancel_right]
      have := Nat.xor_lt_two_pow (n := 1) (Nat.lt_succ_of_le sum_le) (Nat.lt_succ_of_le left_le)
      omega
    · rw [verdict_of_large small_next, not_not] at loses
      exact leads.nimSum_ne (loses.trans zero.symm)

end Misere

theorem verdict_iff (closed : position.hasClosedForm = true) (running : position.isOver = false) :
    position.verdict = true ↔ ∃ next, position.LeadsTo next ∧ next.verdict = false := by
  cases misere : position.misere with
  | false => exact verdict_iff_of_normal misere
  | true =>
      have unlimited : position.limit = none := by simpa [hasClosedForm, misere] using closed
      by_cases small : position.IsSmall
      · exact verdict_iff_of_small misere running small
      · exact verdict_iff_of_large misere unlimited small

theorem verdict_eq_moverWins (closed : position.hasClosedForm = true) :
    position.verdict = position.moverWins := by
  induction total_eq : position.total using Nat.strong_induction_on generalizing position with
  | h total ih =>
      cases running : position.isOver with
      | true => rw [verdict_of_over running, moverWins_of_over running]
      | false =>
          rw [Bool.eq_iff_iff, verdict_iff closed running, moverWins_iff running]
          apply exists_congr
          intro next
          apply and_congr_right
          intro leads
          have less := leads.total_lt
          rw [ih next.total (by omega) (leads.hasClosedForm_eq.trans closed) rfl]

/-- The oracle is right: whenever the rules have a closed form, it says whether the player to move
wins under optimal play. -/
theorem isWinning_eq_moverWins (closed : position.hasClosedForm = true) :
    position.isWinning = .ok position.moverWins := by
  rw [isWinning_eq_verdict closed, verdict_eq_moverWins closed]

/-- In misère play with piles of three, one and one, the player to move takes the pile of three
whole. -/
theorem isWinning_eq_moverWins_misere :
    let position : Position := ⟨[3, 1, 1], .one, none, true, by simp, by simp⟩
    position.hasClosedForm = true ∧ position.isWinning = .ok position.moverWins ∧
      position.moverWins = true := by
  intro position
  have closed : position.hasClosedForm = true := rfl
  have right := isWinning_eq_moverWins closed
  have wins : position.isWinning = .ok true := by
    simp [position, isWinning, hasClosedForm, nimSum, grundy]
  exact ⟨closed, right, Except.ok.inj (right.symm.trans wins)⟩

end GameSearch.Nim.Position
