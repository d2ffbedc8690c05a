/-!
# Spreading a seed

A seed of any size is hashed into four pool words of 32 bits, and the pool into as many words as a
generator needs. One hash constant runs through the whole filling, so equal words in different places
hash differently.
-/

namespace GameSearch.Random

/-- A word folded onto its upper half. -/
def foldHalf (word : UInt32) : UInt32 := word ^^^ (word >>> 16)

/-- The 32-bit words of a seed, the lowest first; zero has one word. -/
def seedWords (seed : Nat) : List UInt32 :=
  (List.range (seed.log2 / 32 + 1)).map fun place => (seed >>> (32 * place)).toUInt32

/-- Four words, and the hash constant for the next word. -/
structure Pool where
  cells : List UInt32
  constant : UInt32

namespace Pool

/-- Hashes a word and moves the constant on. -/
def hash (pool : Pool) (word : UInt32) : UInt32 × Pool :=
  let constant := pool.constant * 0x931e8875
  (foldHalf ((word ^^^ pool.constant) * constant), { pool with constant })

/-- Mixes a hashed word into a cell. -/
def mix (cell word : UInt32) : UInt32 :=
  foldHalf (cell * 0xca01f9dd - word * 0x4973f715)

/-- Hashes a word and mixes it into the cell at `place`. -/
def absorb (pool : Pool) (place : Nat) (word : UInt32) : Pool :=
  let (hashed, pool) := pool.hash word
  { pool with cells := pool.cells.modify place (mix · hashed) }

/-- Adds a hashed word as a new cell. -/
def push (pool : Pool) (word : UInt32) : Pool :=
  let (hashed, pool) := pool.hash word
  { pool with cells := pool.cells ++ [hashed] }

/-- Mixes every cell into every other one. -/
def stir (pool : Pool) : Pool :=
  (List.range 4).foldl (fun (pool : Pool) source =>
    ((List.range 4).filter (· ≠ source)).foldl (fun (pool : Pool) place =>
      pool.absorb place (pool.cells.getD source 0)) pool) pool

/-- The pool of a seed: its first four words, stirred, and then every further word in every cell. -/
def ofSeed (seed : Nat) : Pool :=
  let words := seedWords seed
  let filled := (List.range 4).foldl
    (fun (pool : Pool) place => pool.push (words.getD place 0)) ⟨[], 0x43b0d7e5⟩
  (words.drop 4).foldl (fun (pool : Pool) word =>
    (List.range 4).foldl (fun (pool : Pool) place => pool.absorb place word) pool) filled.stir

/-- `count` output words, drawn from the cells in turn with a running constant of their own. -/
def outputs (pool : Pool) (count : Nat) : List UInt32 :=
  ((List.range count).foldl (fun (drawn : List UInt32 × UInt32) place =>
    let constant := drawn.2 * 0x58f38ded
    let word := (pool.cells.getD (place % 4) 0 ^^^ drawn.2) * constant
    (drawn.1 ++ [foldHalf word], constant)) ([], 0x8b51f9dd)).1

end Pool

end GameSearch.Random
