/-!
# Lazy enumerations of moves

A position may have more legal moves than fit in memory, so they are enumerated lazily: each step gives one
move and a way to get the rest. `Moves.toList` is the view that lemmas speak about.
-/

namespace GameSearch

/-- A finite enumeration whose rest is computed on demand. -/
inductive Moves (α : Type) where
  | done
  | next (head : α) (rest : Unit → Moves α)

namespace Moves

variable {α β : Type}

/-- All moves, in order. -/
def toList : Moves α → List α
  | done => []
  | next head rest => head :: (rest ()).toList

instance : Membership α (Moves α) := ⟨fun moves move => move ∈ moves.toList⟩

@[simp] theorem toList_done : (done : Moves α).toList = [] := rfl

@[simp] theorem toList_next (head : α) (rest : Unit → Moves α) :
    (next head rest).toList = head :: (rest ()).toList := rfl

theorem mem_def {move : α} {moves : Moves α} : move ∈ moves ↔ move ∈ moves.toList := Iff.rfl

def head? : Moves α → Option α
  | done => none
  | next head _ => some head

@[simp] theorem head?_toList (moves : Moves α) : moves.toList.head? = moves.head? := by
  cases moves <;> rfl

theorem head?_eq_none {moves : Moves α} : moves.head? = none ↔ moves.toList = [] := by
  cases moves <;> simp [head?]

/-- The enumeration of a list. -/
def ofList : List α → Moves α
  | [] => done
  | head :: rest => next head fun _ => ofList rest

@[simp] theorem toList_ofList (moves : List α) : (ofList moves).toList = moves := by
  induction moves with
  | nil => rfl
  | cons head rest ih => simp [ofList, ih]

/-- At most the first `count` moves. -/
def take : Nat → Moves α → List α
  | 0, _ => []
  | _ + 1, done => []
  | count + 1, next head rest => head :: take count (rest ())

@[simp] theorem take_eq (count : Nat) (moves : Moves α) :
    moves.take count = moves.toList.take count := by
  induction count generalizing moves with
  | zero => rfl
  | succ count ih => cases moves <;> simp [take, ih]

/-- One enumeration after another; the second one is only looked at when the first is done. -/
def append : Moves α → (Unit → Moves α) → Moves α
  | done, other => other ()
  | next head rest, other => next head fun _ => (rest ()).append other

@[simp] theorem toList_append (moves : Moves α) (other : Unit → Moves α) :
    (moves.append other).toList = moves.toList ++ (other ()).toList := by
  induction moves with
  | done => rfl
  | next head rest ih => simp [append, ih]

/-- The first move that is not among the `tried` ones.

`expected` are the tried moves that have not yet come up; while they come up in order, no look-up
is needed. -/
def firstUntried [DecidableEq α] (tried : List α) : (expected : List α) → Moves α → Option α
  | _, done => none
  | [], next head rest =>
    if head ∈ tried then firstUntried tried [] (rest ()) else some head
  | due :: expected, next head rest =>
    if head = due then firstUntried tried expected (rest ())
    else if head ∈ tried then firstUntried tried (due :: expected) (rest ())
    else some head

theorem firstUntried_eq [DecidableEq α] (tried : List α) (moves : Moves α) (expected : List α)
    (known : ∀ move ∈ expected, move ∈ tried) :
    moves.firstUntried tried expected = moves.toList.find? (· ∉ tried) := by
  induction moves generalizing expected with
  | done => cases expected <;> rfl
  | next head rest ih =>
    cases expected with
    | nil => by_cases mem : head ∈ tried <;> simp_all [firstUntried]
    | cons due expected =>
      simp only [List.mem_cons, forall_eq_or_imp] at known
      by_cases same : head = due
      · subst same
        simp [firstUntried, known.1, ih () expected known.2]
      · by_cases mem : head ∈ tried
        · simp [firstUntried, same, mem, ih () (due :: expected) (by simpa using known)]
        · simp [firstUntried, same, mem]

end Moves

end GameSearch
