import GameSearch.Random.Seed

/-!
# A random generator

A permuted congruential generator: the state of 128 bits is multiplied and incremented, and its two
halves are folded into 64 output bits that are rotated by the top six bits of the state. Numbers below a
bound are drawn from 32-bit halves by multiplication, rejecting the few draws that would favour some
outcomes.
-/

namespace GameSearch.Random

/-- The state of a generator. A half of the last output may be kept for the next draw. -/
structure Generator where
  state : BitVec 128
  increment : BitVec 128
  spare : Option UInt32
  deriving DecidableEq, Repr

namespace Generator

/-- The state after one step. -/
def step (generator : Generator) : Generator :=
  { generator with
    state := generator.state * 0x2360ed051fc65da44385df649fccf645 + generator.increment }

/-- A generator whose state and increment are spread from a seed. -/
def ofSeed (seed : Nat) : Generator :=
  let words := (Pool.ofSeed seed).outputs 8
  let word (place : Nat) : BitVec 32 := (words.getD place 0).toBitVec
  let quad (place : Nat) : BitVec 128 :=
    word (place + 1) ++ word place ++ word (place + 3) ++ word (place + 2)
  let increment := quad 4 <<< 1 ||| 1
  let first := step ⟨0, increment, none⟩
  step { first with state := first.state + quad 0 }

/-- The next 64 bits. -/
def next64 (generator : Generator) : UInt64 × Generator :=
  let moved := generator.step
  let folded := moved.state.extractLsb' 64 64 ^^^ moved.state.extractLsb' 0 64
  (.ofBitVec (folded.rotateRight (moved.state.extractLsb' 122 6).toNat), moved)

/-- The next 32 bits: the spare half if there is one, else the lower half of the next output. -/
def next32 (generator : Generator) : UInt32 × Generator :=
  match generator.spare with
  | some half => (half, { generator with spare := none })
  | none =>
    let (output, moved) := generator.next64
    (output.toUInt32, { moved with spare := some (output >>> 32).toUInt32 })

/-- Scales a 32-bit draw to a number below `sides`, drawing again while the scaled draw falls into the
rest of the range that cannot be shared out evenly. -/
def draw (sides : Nat) : (retries : Nat) → Generator → Nat × Generator
  | 0, generator =>
    let (half, generator) := generator.next32
    (half.toNat * sides / UInt32.size, generator)
  | retries + 1, generator =>
    let (half, moved) := generator.next32
    if half.toNat * sides % UInt32.size < (UInt32.size - sides) % sides then
      draw sides retries moved
    else (half.toNat * sides / UInt32.size, moved)

theorem draw_lt {sides : Nat} (pos : 0 < sides) (retries : Nat) (generator : Generator) :
    (draw sides retries generator).1 < sides := by
  have scaled : ∀ half : UInt32, half.toNat * sides / UInt32.size < sides := fun half =>
    Nat.div_lt_of_lt_mul (Nat.mul_lt_mul_of_pos_right half.toNat_lt_size pos)
  induction retries generalizing generator with
  | zero => exact scaled _
  | succ retries ih =>
    simp only [draw]
    split
    · exact ih _
    · exact scaled _

/-- A number below `sides`. A single outcome needs no draw. -/
def below (sides : Nat) (generator : Generator) : Nat × Generator :=
  if sides ≤ 1 then (0, generator) else draw sides 1000 generator

theorem below_lt {sides : Nat} (pos : 0 < sides) (generator : Generator) :
    (generator.below sides).1 < sides := by
  unfold below
  split
  · exact pos
  · exact draw_lt pos 1000 generator

end Generator

/-- The generators that a system without a seed gives, one after another. -/
abbrev Entropy := Nat → Generator

/-- Where a new generator is taken from. -/
inductive Seeding where
  /-- The same seed every time. -/
  | fixed (seed : Nat)
  /-- The system, which has these left to give. -/
  | fresh (draws : Entropy)

/-- A new generator, and where the next one is taken from. -/
def Seeding.next : Seeding → Generator × Seeding
  | .fixed seed => (.ofSeed seed, .fixed seed)
  | .fresh draws => (draws 0, .fresh fun count => draws (count + 1))

/-- A source of numbers below a given count of outcomes. -/
structure Dice (Memory : Type) where
  roll : (sides : Nat) → Memory → Nat × Memory
  roll_lt : ∀ sides memory, 0 < sides → (roll sides memory).1 < sides

/-- Rolling with a generator. -/
def Generator.dice : Dice Generator where
  roll sides generator := generator.below sides
  roll_lt _ generator pos := generator.below_lt pos

end GameSearch.Random
