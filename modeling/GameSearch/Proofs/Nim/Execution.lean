import GameSearch.Proofs.Nim.Optimal

/-!
# Executing actions in place

A game in progress is kept in one record, which an action overwrites. The checks come first and each
of them may fail, with a fault of its own; the two writes come last. `Layout` is that record, with
piles of plain integers, and `Layout.execute` goes through the checks in order.

On the layout of a position this does what `Position.move` does: an action that can be played leaves
the layout of the next position behind, and one that cannot leaves the layout as it was. So every
sequence of calls, whatever they come to, leads from the layout of a position to that of a position,
and there the actions that can be executed are the ones that are enumerated.
-/

namespace GameSearch.Nim

/-- A game in progress as it is kept in memory. -/
structure Layout where
  sizes : List Int
  turn : Player
  limit : Option Int
  misere : Bool
  deriving DecidableEq

namespace Layout

/-- Whether nothing is left to take. -/
def isOver (layout : Layout) : Bool := layout.sizes.all (· == 0)

/-- The most that a move may take from a pile of the given size. -/
def most (layout : Layout) (size : Int) : Int :=
  match layout.limit with
  | none => size
  | some limit => min size limit

/-- Checks a condition. A failed check keeps what has been written so far. -/
def require (condition : Prop) [Decidable condition] (refusal : Refusal) :
    ExceptT Fault (StateM Layout) Unit :=
  if condition then pure () else throw refusal.fault

/-- Executes an action of a player: all the checks, then the two writes. -/
def execute (player : Player) (action : Action) : ExceptT Fault (StateM Layout) Unit := do
  let layout ← get
  require (layout.isOver = false) (.gameOver action)
  require (player = layout.turn) (.notYourTurn player layout.turn)
  require (0 ≤ action.pile ∧ action.pile < layout.sizes.length)
    (.noSuchPile action.pile layout.sizes.length)
  let size := layout.sizes.getD action.pile.toNat 0
  require (1 ≤ action.amount ∧ action.amount ≤ layout.most size)
    (.badAmount action size.toNat (layout.most size).toNat)
  modify fun layout =>
    { layout with sizes := layout.sizes.set action.pile.toNat (size - action.amount) }
  modify fun layout => { layout with turn := layout.turn.opponent }

/-- What a call comes to, and the layout that it leaves behind. -/
def call (layout : Layout) (player : Player) (action : Action) : Except Fault Unit × Layout :=
  (execute player action).run.run layout

/-- The layout that a sequence of calls leaves behind, with failed calls among them. -/
def afterAll (layout : Layout) (calls : List (Player × Action)) : Layout :=
  calls.foldl (fun layout entry => (layout.call entry.1 entry.2).2) layout

theorem run_require {condition : Prop} [Decidable condition] {refusal : Refusal}
    {next : Unit → ExceptT Fault (StateM Layout) Unit} {layout : Layout} :
    (require condition refusal >>= next).run.run layout =
      if condition then (next ()).run.run layout else (.error refusal.fault, layout) := by
  unfold require
  split
  · rfl
  · rfl

theorem call_eq (layout : Layout) (player : Player) (action : Action) :
    layout.call player action =
      let size := layout.sizes.getD action.pile.toNat 0
      if layout.isOver = false then
        if player = layout.turn then
          if 0 ≤ action.pile ∧ action.pile < layout.sizes.length then
            if 1 ≤ action.amount ∧ action.amount ≤ layout.most size then
              (.ok (), { layout with
                sizes := layout.sizes.set action.pile.toNat (size - action.amount)
                turn := layout.turn.opponent })
            else
              (.error (Refusal.badAmount action size.toNat (layout.most size).toNat).fault, layout)
          else (.error (Refusal.noSuchPile action.pile layout.sizes.length).fault, layout)
        else (.error (Refusal.notYourTurn player layout.turn).fault, layout)
      else (.error (Refusal.gameOver action).fault, layout) := by
  have get_run : ∀ next : Layout → ExceptT Fault (StateM Layout) Unit,
      (get >>= next).run.run layout = (next layout).run.run layout := fun _ => rfl
  simp only [call, execute, get_run, run_require]
  rfl

end Layout

namespace Position

/-- The layout of a position. -/
def layout (position : Position) : Layout where
  sizes := position.piles.map Int.ofNat
  turn := position.turn
  limit := position.limit.map Int.ofNat
  misere := position.misere

variable {position : Position}

@[simp] theorem turn_layout : position.layout.turn = position.turn := rfl

@[simp] theorem length_sizes : position.layout.sizes.length = position.piles.length := by
  simp [layout]

theorem getD_sizes {pile size : Nat} (at_pile : position.piles[pile]? = some size) :
    position.layout.sizes.getD pile 0 = size := by
  simp [layout, List.getD_eq_getElem?_getD, at_pile]

theorem isOver_layout : position.layout.isOver = position.isOver := by
  rw [Bool.eq_iff_iff]
  simp [Layout.isOver, isOver, layout]

theorem most_layout (size : Nat) : position.layout.most size = position.most size := by
  unfold Layout.most most
  cases limit : position.limit with
  | none => simp [layout, limit]
  | some limit =>
      simp only [layout, limit, Option.map_some, Int.ofNat_eq_natCast]
      omega

theorem sizes_nonneg : ∀ size ∈ position.layout.sizes, 0 ≤ size := by
  simp [layout]

/-- The layouts of positions are those that a game can be started with. -/
theorem ofSizes_eq_ok {sizes : List Int} {turn : Player} {limit : Option Int} {misere : Bool} :
    ofSizes sizes turn limit misere = .ok position ↔
      position.layout = ⟨sizes, turn, limit, misere⟩ := by
  constructor
  · intro started
    unfold ofSizes at started
    split at started
    · simp at started
    split at started
    · simp at started
    rename_i nonneg
    simp only [List.any_eq_true, decide_eq_true_eq, not_exists, not_and, Int.not_lt] at nonneg
    have sizes_eq : (sizes.map Int.toNat).map Int.ofNat = sizes := by
      rw [List.map_map]
      conv_rhs => rw [← List.map_id sizes]
      apply List.map_congr_left
      intro size mem
      exact Int.toNat_of_nonneg (nonneg size mem)
    cases limit with
    | none =>
        cases started
        simp only [layout, sizes_eq, Option.map_none]
    | some most =>
        dsimp only at started
        split at started
        · simp at started
        · rename_i large
          cases started
          have most_eq : ((most.toNat : Nat) : Int) = most := by omega
          simp only [layout, sizes_eq, Option.map_some, Int.ofNat_eq_natCast, most_eq]
  · intro same
    rcases position with ⟨piles, turn, limit, misere, nonempty, positive⟩
    simp only [layout, Layout.mk.injEq] at same
    rcases same with ⟨rfl, rfl, rfl, rfl⟩
    have nonneg : ¬ (piles.map Int.ofNat).any (· < 0) := by simp
    have sizes_eq : (piles.map Int.ofNat).map Int.toNat = piles := by simp [Function.comp_def]
    unfold ofSizes
    rw [dif_neg (by simpa using nonempty), if_neg nonneg]
    cases limit with
    | none => simp only [sizes_eq, Option.map_none]
    | some most =>
        have large : ¬ (most : Int) < 1 := by have := positive most rfl; omega
        simp [large, sizes_eq]

theorem natCast_sub {amount : Int} {size : Nat}
    (bounds : 1 ≤ amount ∧ amount ≤ position.most size) :
    ((size - amount.toNat : Nat) : Int) = size - amount := by
  have enough := position.most_le size
  omega

/-- Executing in place does what `Position.move` does, and a failure leaves the layout as it was. -/
theorem call_layout (position : Position) (player : Player) (action : Action) :
    position.layout.call player action =
      match position.move player action with
      | .ok next => (.ok (), next.layout)
      | .error fault => (.error fault, position.layout) := by
  rw [Layout.call_eq, isOver_layout]
  unfold move play
  cases ended : position.isOver with
  | true => rfl
  | false =>
    by_cases mover : player = position.turn
    · rcases action with ⟨pile | pile, amount⟩
      · rcases at_pile : position.piles[pile]? with _ | size
        · have beyond : position.piles.length ≤ pile := List.getElem?_eq_none_iff.mp at_pile
          simp [mover, beyond]
        · have within : pile < position.piles.length := (List.getElem?_eq_some_iff.mp at_pile).1
          simp only [Int.ofNat_eq_natCast, Int.toNat_natCast, getD_sizes at_pile, most_layout,
            at_pile]
          by_cases bounds : 1 ≤ amount ∧ amount ≤ position.most size
          · simp [bounds, mover, within, layout, List.map_set, natCast_sub bounds]
          · simp [bounds, mover, within]
      · simp [mover]
    · simp [mover]

theorem pairwise_takes (pile first count : Nat) :
    (takes pile first count).toList.Pairwise fun left right => left.precedes right := by
  induction count generalizing first with
  | zero => simp [takes]
  | succ count ih =>
      rw [takes, Moves.toList_next, List.pairwise_cons]
      refine ⟨?_, ih (first + 1)⟩
      intro action mem
      rcases mem_takes.mp mem with ⟨pile_eq, low, -⟩
      simp [Action.precedes, pile_eq]
      omega

theorem pairwise_takesFrom (position : Position) (first : Nat) (sizes : List Nat) :
    (position.takesFrom first sizes).toList.Pairwise fun left right => left.precedes right := by
  induction sizes generalizing first with
  | nil => simp [takesFrom]
  | cons size sizes ih =>
      rw [takesFrom, Moves.toList_append, List.pairwise_append]
      refine ⟨pairwise_takes first 1 _, ih (first + 1), ?_⟩
      intro left left_mem right right_mem
      rcases mem_takes.mp left_mem with ⟨left_pile, -, -⟩
      rcases mem_takesFrom.mp right_mem with ⟨index, -, -, right_pile, -, -⟩
      simp [Action.precedes, left_pile, right_pile]
      omega

theorem pairwise_legal (position : Position) (player : Player) :
    (position.legal player).toList.Pairwise fun left right => left.precedes right := by
  unfold legal
  split
  · exact pairwise_takesFrom position 0 position.piles
  · simp

theorem legal_eq_nil_iff :
    (position.legal position.turn).toList = [] ↔ position.isOver = true := by
  constructor
  · intro none_legal
    by_contra running
    exact legal_ne_nil (by simpa using running) none_legal
  · intro ended
    simp [legal, ended]

/-- A call on the layout of a position leaves the layout of a position, under the same rules. -/
theorem exists_layout_call (position : Position) (player : Player) (action : Action) :
    ∃ next : Position, (position.layout.call player action).2 = next.layout ∧
      next.limit = position.limit ∧ next.misere = position.misere := by
  rw [call_layout]
  cases moved : position.move player action with
  | error fault => exact ⟨position, rfl, rfl, rfl⟩
  | ok next =>
      rcases play_eq_ok.mp (move_eq_ok.mp moved) with
        ⟨-, -, -, -, -, -, -, -, -, -, limit_eq, misere_eq⟩
      exact ⟨next, rfl, limit_eq, misere_eq⟩

/-- So does any sequence of calls. -/
theorem exists_layout_afterAll (position : Position) (calls : List (Player × Action)) :
    ∃ last : Position, position.layout.afterAll calls = last.layout ∧
      last.limit = position.limit ∧ last.misere = position.misere := by
  induction calls generalizing position with
  | nil => exact ⟨position, rfl, rfl, rfl⟩
  | cons entry calls ih =>
      rcases exists_layout_call position entry.1 entry.2 with
        ⟨next, called, limit_eq, misere_eq⟩
      rcases ih next with ⟨last, reached, last_limit, last_misere⟩
      refine ⟨last, ?_, last_limit.trans limit_eq, last_misere.trans misere_eq⟩
      rw [← reached, ← called]
      rfl

/-- A legal action takes its amount off the pile that it names and passes the turn. -/
theorem call_of_legal {player : Player} {action : Action}
    (legal : action ∈ position.legal player) :
    ∃ pile size : Nat, position.piles[pile]? = some size ∧ action.pile = pile ∧
      position.layout.call player action = (.ok (), { position.layout with
        sizes := position.layout.sizes.set pile (size - action.amount)
        turn := position.turn.opponent }) := by
  rcases (move_isOk position player action).mpr legal with ⟨next, moved⟩
  rcases play_eq_ok.mp (move_eq_ok.mp moved) with
    ⟨-, -, pile, size, at_pile, pile_eq, low, high, piles_eq, turn_eq, limit_eq, misere_eq⟩
  refine ⟨pile, size, at_pile, pile_eq, ?_⟩
  rw [call_layout, moved]
  simp [layout, piles_eq, turn_eq, limit_eq, misere_eq, List.map_set, natCast_sub ⟨low, high⟩]

theorem call_of_illegal {player : Player} {action : Action}
    (illegal : action ∉ position.legal player) :
    ∃ fault, position.layout.call player action = (.error fault, position.layout) := by
  rw [call_layout]
  cases moved : position.move player action with
  | ok next => exact absurd ((move_isOk position player action).mp ⟨next, moved⟩) illegal
  | error fault => exact ⟨fault, rfl⟩

/-- Whatever calls came before, the actions that can be executed are the ones that are enumerated,
in increasing order; executing one takes its amount off its pile and passes the turn, and a call
that fails changes nothing. -/
theorem execution_agrees (start : Position) (calls : List (Player × Action)) :
    ∃ position : Position, start.layout.afterAll calls = position.layout ∧
      position.limit = start.limit ∧ position.misere = start.misere ∧
      (∀ size ∈ position.layout.sizes, 0 ≤ size) ∧
      ((position.legal position.turn).toList = [] ↔ position.isOver = true) ∧
      ∀ player : Player,
        (player ≠ position.turn → (position.legal player).toList = []) ∧
        ((position.legal player).toList.Pairwise fun left right => left.precedes right) ∧
        ∀ action : Action,
          (position.layout.call player action =
            match game.play position player action with
            | .ok next => (.ok (), next.layout)
            | .error fault => (.error fault, position.layout)) ∧
          (action ∈ game.legal position player →
            ∃ pile size : Nat, position.piles[pile]? = some size ∧ action.pile = pile ∧
              position.layout.call player action = (.ok (), { position.layout with
                sizes := position.layout.sizes.set pile (size - action.amount)
                turn := position.turn.opponent })) ∧
          (action ∉ game.legal position player →
            ∃ fault, position.layout.call player action = (.error fault, position.layout)) := by
  rcases exists_layout_afterAll start calls with ⟨position, reached, limit_eq, misere_eq⟩
  refine ⟨position, reached, limit_eq, misere_eq, sizes_nonneg, legal_eq_nil_iff, ?_⟩
  intro player
  refine ⟨?_, pairwise_legal position player, ?_⟩
  · intro idle
    simp [legal, idle]
  · intro action
    exact ⟨call_layout position player action, call_of_legal, call_of_illegal⟩

end Position

end GameSearch.Nim
