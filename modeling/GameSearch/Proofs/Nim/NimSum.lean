import GameSearch.Nim.Oracle
import Mathlib.Data.Nat.Bitwise
import Mathlib.Order.Bounds.Defs

/-!
# Moves and the nim-sum

A move lowers one pile, and with it the exclusive or of all Grundy values changes. No move keeps the
nim-sum, and every smaller nim-sum can be reached: the pile to be lowered is one whose Grundy value
has the highest bit in which the two sums differ. So the nim-sum is the least number that no move
leads to, under any limit.
-/

namespace GameSearch.Nim

/-- The exclusive or of numbers. -/
def xorAll (values : List Nat) : Nat := values.foldr (· ^^^ ·) 0

@[simp]
theorem xorAll_nil : xorAll [] = 0 := rfl

@[simp]
theorem xorAll_cons (value : Nat) (values : List Nat) :
    xorAll (value :: values) = value ^^^ xorAll values := rfl

theorem xorAll_set {values : List Nat} {index value : Nat} (at_index : values[index]? = some value)
    (other : Nat) : xorAll (values.set index other) = xorAll values ^^^ value ^^^ other := by
  induction values generalizing index with
  | nil => simp at at_index
  | cons first values ih =>
      cases index with
      | zero =>
          have first_eq : first = value := by simpa using at_index
          subst first_eq
          rw [List.set_cons_zero, xorAll_cons, xorAll_cons, Nat.xor_comm first,
            Nat.xor_xor_cancel_right, Nat.xor_comm]
      | succ index =>
          rw [List.set_cons_succ, xorAll_cons, xorAll_cons, ih (by simpa using at_index)]
          ac_rfl

/-- A number below an exclusive or is reached by lowering one of the numbers. -/
theorem exists_xor_lt {values : List Nat} {target : Nat} (less : target < xorAll values) :
    ∃ (index value : Nat), values[index]? = some value ∧
      xorAll values ^^^ value ^^^ target < value := by
  induction values generalizing target with
  | nil => simp at less
  | cons first values ih =>
      rw [xorAll_cons] at less
      rcases Nat.lt_xor_cases less with here | later
      · refine ⟨0, first, rfl, ?_⟩
        rwa [xorAll_cons, Nat.xor_comm first, Nat.xor_xor_cancel_right, Nat.xor_comm]
      · rcases ih later with ⟨index, value, at_index, lower⟩
        refine ⟨index + 1, value, by simpa using at_index, ?_⟩
        have same : xorAll (first :: values) ^^^ value ^^^ target =
            xorAll values ^^^ value ^^^ (target ^^^ first) := by
          rw [xorAll_cons]
          ac_rfl
        rwa [same]

theorem xorAll_eq_zero {values : List Nat} (zeros : ∀ value ∈ values, value = 0) :
    xorAll values = 0 := by
  induction values with
  | nil => rfl
  | cons first values ih =>
      rw [List.forall_mem_cons] at zeros
      rw [xorAll_cons, zeros.1, ih zeros.2, Nat.xor_self]

theorem xorAll_lt_two_pow {values : List Nat} {bits : Nat}
    (small : ∀ value ∈ values, value < 2 ^ bits) : xorAll values < 2 ^ bits := by
  induction values with
  | nil => exact Nat.two_pow_pos bits
  | cons first values ih =>
      rw [List.forall_mem_cons] at small
      exact Nat.xor_lt_two_pow small.1 (ih small.2)

namespace Position

variable {position next : Position}

theorem nimSum_eq_xorAll (position : Position) :
    position.nimSum = xorAll (position.piles.map position.grundy) := by
  suffices folded : ∀ (sizes : List Nat) (sum : Nat),
      sizes.foldl (fun sum size => sum ^^^ position.grundy size) sum =
        sum ^^^ xorAll (sizes.map position.grundy) by
    rw [nimSum, folded, Nat.zero_xor]
  intro sizes
  induction sizes with
  | nil => simp
  | cons size sizes ih =>
      intro sum
      rw [List.foldl_cons, ih, List.map_cons, xorAll_cons, Nat.xor_assoc]

theorem grundy_le (position : Position) (size : Nat) : position.grundy size ≤ size := by
  unfold grundy
  split
  · exact Nat.le_refl size
  · exact Nat.mod_le size _

/-- A nim-sum has no more bits than the largest pile. -/
theorem nimSum_lt_two_pow {bits : Nat} (small : ∀ size ∈ position.piles, size < 2 ^ bits) :
    position.nimSum < 2 ^ bits := by
  rw [nimSum_eq_xorAll]
  apply xorAll_lt_two_pow
  rw [List.forall_mem_map]
  exact fun size mem => Nat.lt_of_le_of_lt (position.grundy_le size) (small size mem)

/-- Whether some action of the player to move leads to a position. -/
def LeadsTo (position next : Position) : Prop :=
  ∃ action, position.play position.turn action = .ok next

/-- What a move does: pile number `pile` is lowered from `size` to `left`, and the other player is
to move. -/
structure Lowers (position next : Position) (pile size left : Nat) : Prop where
  at_pile : position.piles[pile]? = some size
  piles_eq : next.piles = position.piles.set pile left
  turn_eq : next.turn = position.turn.opponent
  limit_eq : next.limit = position.limit
  misere_eq : next.misere = position.misere

theorem LeadsTo.lowers (leads : position.LeadsTo next) :
    ∃ pile size left, position.Lowers next pile size left ∧ left < size ∧
      size - left ≤ position.most size := by
  rcases leads with ⟨action, played⟩
  rcases play_eq_ok.mp played with
    ⟨-, -, pile, size, at_pile, -, low, high, piles, turn, limit, misere⟩
  have := position.most_le size
  exact ⟨pile, size, size - action.amount.toNat, ⟨at_pile, piles, turn, limit, misere⟩,
    by omega, by omega⟩

theorem leadsTo_of_play {action : Action}
    (played : game.play position position.turn action = .ok next) : position.LeadsTo next :=
  ⟨action, move_eq_ok.mp played⟩

theorem LeadsTo.turn_eq (leads : position.LeadsTo next) : next.turn = position.turn.opponent := by
  rcases leads.lowers with ⟨pile, size, left, lowers, -, -⟩
  exact lowers.turn_eq

theorem LeadsTo.hasClosedForm_eq (leads : position.LeadsTo next) :
    next.hasClosedForm = position.hasClosedForm := by
  rcases leads.lowers with ⟨pile, size, left, lowers, -, -⟩
  rw [hasClosedForm, hasClosedForm, lowers.misere_eq, lowers.limit_eq]

theorem exists_leadsTo {pile size left : Nat} (at_pile : position.piles[pile]? = some size)
    (lower : left < size) (allowed : size - left ≤ position.most size) :
    ∃ next, position.LeadsTo next ∧ position.Lowers next pile size left := by
  let next : Position := ⟨position.piles.set pile left, position.turn.opponent, position.limit,
    position.misere, by simpa using position.piles_ne_nil, position.limit_pos⟩
  refine ⟨next, ⟨⟨pile, size - left⟩, play_eq_ok.mpr ?_⟩, at_pile, rfl, rfl, rfl, rfl⟩
  refine ⟨isOver_eq_false.mpr ⟨size, List.mem_of_getElem? at_pile, by omega⟩, rfl, pile, size,
    at_pile, rfl, by dsimp only; omega, by dsimp only; omega, ?_, rfl, rfl, rfl⟩
  have : size - ((size : Int) - left).toNat = left := by omega
  simp only [next, this]

theorem Lowers.nimSum_eq {pile size left : Nat} (lowers : position.Lowers next pile size left) :
    next.nimSum = position.nimSum ^^^ position.grundy size ^^^ position.grundy left := by
  have same_grundy : next.grundy = position.grundy := by
    funext size
    simp only [grundy, lowers.limit_eq]
  have at_pile : (position.piles.map position.grundy)[pile]? = some (position.grundy size) := by
    rw [List.getElem?_map, lowers.at_pile, Option.map_some]
  rw [nimSum_eq_xorAll, nimSum_eq_xorAll, same_grundy, lowers.piles_eq, List.map_set,
    xorAll_set at_pile]

@[simp]
theorem grundy_zero : position.grundy 0 = 0 := by
  unfold grundy
  split
  · rfl
  · exact Nat.zero_mod _

theorem grundy_ne {size left : Nat} (lower : left < size)
    (allowed : size - left ≤ position.most size) : position.grundy left ≠ position.grundy size := by
  unfold grundy
  unfold most at allowed
  cases known : position.limit with
  | none =>
      simp only
      omega
  | some limit =>
      simp only [known] at allowed ⊢
      intro same
      have divides : limit + 1 ∣ size - left :=
        Nat.dvd_of_mod_eq_zero (Nat.sub_mod_eq_zero_of_mod_eq same.symm)
      have := Nat.le_of_dvd (by omega) divides
      omega

/-- Every smaller Grundy value is one move of the pile away. -/
theorem exists_grundy_eq {size target : Nat} (less : target < position.grundy size) :
    ∃ left, left < size ∧ size - left ≤ position.most size ∧ position.grundy left = target := by
  unfold grundy at less ⊢
  unfold most
  cases known : position.limit with
  | none =>
      simp only [known] at less ⊢
      exact ⟨target, less, by omega, rfl⟩
  | some limit =>
      simp only [known] at less ⊢
      have whole := Nat.mod_add_div size (limit + 1)
      have rest_lt : size % (limit + 1) < limit + 1 := Nat.mod_lt size (by omega)
      generalize size % (limit + 1) = rest at *
      refine ⟨size - (rest - target), by omega, by omega, ?_⟩
      have left_eq : size - (rest - target) = target + (limit + 1) * (size / (limit + 1)) := by
        omega
      rw [left_eq, Nat.add_mul_mod_self_left, Nat.mod_eq_of_lt (by omega)]

/-- No move keeps the nim-sum. -/
theorem LeadsTo.nimSum_ne (leads : position.LeadsTo next) : next.nimSum ≠ position.nimSum := by
  rcases leads.lowers with ⟨pile, size, left, lowers, lower, allowed⟩
  rw [lowers.nimSum_eq, Nat.xor_assoc]
  intro same
  have zero : position.grundy size ^^^ position.grundy left = 0 := by
    rw [← Nat.xor_xor_cancel_left (position.nimSum) (_ ^^^ _), same, Nat.xor_self]
  exact grundy_ne lower allowed (Nat.xor_eq_zero_iff.mp zero).symm

/-- Every smaller nim-sum is one move away. -/
theorem exists_nimSum_eq {target : Nat} (less : target < position.nimSum) :
    ∃ next pile size left, position.LeadsTo next ∧ position.Lowers next pile size left ∧
      left < size ∧ next.nimSum = target := by
  rw [nimSum_eq_xorAll] at less
  rcases exists_xor_lt less with ⟨pile, value, mapped, lower⟩
  rw [List.getElem?_map, Option.map_eq_some_iff] at mapped
  rcases mapped with ⟨size, at_pile, rfl⟩
  rw [← nimSum_eq_xorAll] at lower
  rcases exists_grundy_eq lower with ⟨left, left_lt, allowed, left_eq⟩
  rcases exists_leadsTo at_pile left_lt allowed with ⟨next, leads, lowers⟩
  refine ⟨next, pile, size, left, leads, lowers, left_lt, ?_⟩
  rw [lowers.nimSum_eq, left_eq, Nat.xor_xor_cancel_left]

/-- The nim-sums of the positions that the legal actions of the player to move lead to. -/
def nextNimSums (position : Position) : Set Nat :=
  {value | ∃ action ∈ position.legal position.turn, ∃ next,
    game.play position position.turn action = .ok next ∧ next.nimSum = value}

theorem mem_nextNimSums {value : Nat} :
    value ∈ position.nextNimSums ↔ ∃ next, position.LeadsTo next ∧ next.nimSum = value := by
  constructor
  · rintro ⟨action, -, next, played, nimSum_eq⟩
    exact ⟨next, leadsTo_of_play played, nimSum_eq⟩
  · rintro ⟨next, ⟨action, played⟩, nimSum_eq⟩
    have moved : game.play position position.turn action = .ok next := move_eq_ok.mpr played
    exact ⟨action, (game.play_isOk _ _ _).mp ⟨next, moved⟩, next, moved, nimSum_eq⟩

/-- The nim-sum is the Grundy value of a position: the least number that is the nim-sum of no
position one legal action away. -/
theorem nimSum_isLeast (position : Position) :
    IsLeast (position.nextNimSums)ᶜ position.nimSum ∧
      (∀ action ∈ position.legal position.turn, ∃ next,
        game.play position position.turn action = .ok next ∧ next.nimSum ≠ position.nimSum) ∧
      ∀ value < position.nimSum, ∃ action ∈ position.legal position.turn, ∃ next,
        game.play position position.turn action = .ok next ∧ next.nimSum = value := by
  have reached : ∀ value < position.nimSum, value ∈ position.nextNimSums := by
    intro value less
    rcases exists_nimSum_eq less with ⟨next, -, -, -, leads, -, -, nimSum_eq⟩
    exact mem_nextNimSums.mpr ⟨next, leads, nimSum_eq⟩
  refine ⟨⟨?_, ?_⟩, ?_, reached⟩
  · intro mem
    rcases mem_nextNimSums.mp mem with ⟨next, leads, same⟩
    exact leads.nimSum_ne same
  · intro value missed
    by_contra less
    exact missed (reached value (Nat.lt_of_not_le less))
  · intro action legal
    rcases (game.play_isOk position position.turn action).mpr legal with ⟨next, played⟩
    exact ⟨next, played, (leadsTo_of_play played).nimSum_ne⟩

end Position

end GameSearch.Nim
