import GameSearch.Proofs.MonteCarlo.Exploration

/-!
# The choice of a tree search

A tree search answers with the most visited child of the root. The children of the root stand for
legal actions, so the answer is legal; if there was no time to expand any, it is the first legal
action.
-/

namespace GameSearch

variable {Memory Position Player Action : Type} {game : Game Position Player Action}
  {position start : Position} {player : Player} {scorer : ChildScorer}

namespace SearchTree

variable {tree : SearchTree Position Player Action} {node : SearchNode Position Player Action}
  {child : Nat} {action : Action}

theorem mem_children_of_mostVisitedChild? (most : tree.mostVisitedChild? node = some child) :
    ∃ action, (action, child) ∈ node.children := by
  rw [mostVisitedChild?] at most
  split at most
  · cases most
  · rename_i first rest visited
    rcases Option.some.inj most with rfl
    have mem := firstBest_mem (fun visits other => other < visits) first rest
    rw [← visited] at mem
    rcases List.mem_map.mp mem with ⟨⟨action, number⟩, entry_mem, same⟩
    refine ⟨action, ?_⟩
    rw [← same]
    exact entry_mem

variable [DecidableEq Action]

/-- A child of the root stands for a legal action of the player to move. -/
theorem Explores.legal_of_child (explores : tree.Explores game start)
    (turn : game.status start = .turn player) (mem : (action, child) ∈ tree.root.children) :
    tree.nodes[child]?.bind (·.action) = some action ∧ action ∈ game.legal start player := by
  rcases explores.of_child tree.at_zero mem with ⟨childNode, at_child, -, action_eq⟩
  rcases explores.in_order tree.at_zero with ⟨count, order⟩
  have start_eq := (explores.at_root tree.at_zero).1
  have taken : action ∈ tree.root.children.map (·.1) := List.mem_map_of_mem mem
  rw [order, start_eq] at taken
  constructor
  · rw [at_child, Option.bind_some, action_eq]
  · exact (Game.mem_choices turn).mp (List.mem_of_mem_take taken)

/-- What is made of the tree at the end of a search is a legal action. -/
theorem Explores.answer_returns {effort : Effort Memory} (explores : tree.Explores game start)
    (turn : game.status start = .turn player) {first : Action}
    (available : game.firstLegal start player = some first) :
    (match tree.mostVisitedChild? tree.root with
      | none => do
        SearchM.note .debug .monteCarlo
          (scorer.title ++ ": no iterations completed, using first legal action")
        return game.firstLegal start player
      | some child => return tree.nodes[child]?.bind (·.action)).Returns effort
      fun choice after => after.memory = effort.memory ∧
        ∃ action, choice = some action ∧ action ∈ game.legal start player := by
  split
  · simp only [SearchM.returns_bind, SearchM.returns_note, SearchM.returns_pure, true_and]
    exact ⟨first, available, Game.mem_legal_of_firstLegal available⟩
  · rename_i child most
    rcases mem_children_of_mostVisitedChild? most with ⟨action, mem⟩
    rcases explores.legal_of_child turn mem with ⟨stored, legal⟩
    exact SearchM.returns_pure.mpr ⟨rfl, action, stored, legal⟩

end SearchTree

variable [DecidableEq Player] [DecidableEq Action] [Worded Action]
  {evaluator : Evaluator Memory Position Player} {deadline : Deadline} {valid : Memory → Prop}
  {effort : Effort Memory}

/-- A bounded tree search picks a legal action, however few iterations it performs, unless a position
that play leads to has a score too large for a double. -/
theorem pickMonteCarlo_comesTo {maxIterations : Option Int} {bound : Nat}
    (neverFails : evaluator.NeverFails valid)
    (bounded : iterationBound deadline maxIterations = some bound)
    (turn : game.status position = .turn player) {first : Action}
    (available : game.firstLegal position player = some first) (fit : valid effort.memory) :
    (pickMonteCarlo game evaluator deadline scorer maxIterations player position).ComesTo effort
      (fun choice after => valid after.memory ∧
        ∃ action, choice = some action ∧ action ∈ game.legal position player)
      fun fault => fault = .integerTooLarge ∧ evaluator.Overflows game position valid := by
  have step : ∀ (done : Nat) (tree : SearchTree Position Player Action),
      tree.Explores game position → tree.Iterates game scorer position (·.Explores game position) :=
    fun _ tree explores => explores.iterates scorer explores.explores_credit
  have searched := monteCarlo_upholds neverFails.onlyOverflows bounded step fit
    (SearchTree.explores_ofRoot game position player)
  rw [pickMonteCarlo, SearchM.comesTo_bind]
  refine searched.mono ?_
  rintro tree after ⟨kept, -, explores⟩
  refine ((explores.answer_returns turn available).mono ?_).comesTo
  rintro choice last ⟨memory_eq, answered⟩
  exact ⟨memory_eq ▸ kept, answered⟩

end GameSearch
