import GameSearch.Evaluator
import GameSearch.Random.Playout

/-!
# Gauges

A gauge is an evaluator as a piece of data: a rule that reads the score off the position, random playouts with
a generator, or a weighted sum of gauges. Scoring with a gauge gives the score and the gauge as it is
afterwards, so that a gauge serves as its own memory.
-/

namespace GameSearch

/-- An evaluator as data. -/
inductive Gauge (Position Player : Type) where
  /-- A rule that scores without memory. -/
  | rule (name : String) (score : Position → Player → Except Fault Number)
  /-- Random playouts. Every search begins with a new generator. -/
  | playout (seeding : Random.Seeding) (cap : Option Int) (generator : Random.Generator)
  /-- The weighted sum of nothing. -/
  | empty
  /-- A weighted sum with one more summand, added last. -/
  | plus (sum : Gauge Position Player) (weight : Number) (part : Gauge Position Player)

namespace Gauge

variable {Position Player Action : Type}

/-- Random playouts with an optional cap on their length. -/
def ofSeeding (seeding : Random.Seeding) (cap : Option Int) : Gauge Position Player :=
  .playout seeding.next.2 cap seeding.next.1

/-- Random playouts from a seed or, if there is none, from the generators that the system gives. -/
def ofSeed (seed : Option Int) (cap : Option Int) (entropy : Random.Entropy) :
    Except Fault (Gauge Position Player) :=
  match seed with
  | none => .ok (.ofSeeding (.fresh entropy) cap)
  | some (.ofNat seed) => .ok (.ofSeeding (.fixed seed) cap)
  | some (.negSucc _) => .error .negativeSeed

/-- The weighted sum of at least one gauge. -/
def weightedSum (parts : List (Number × Gauge Position Player)) :
    Except Fault (Gauge Position Player) :=
  if parts.isEmpty then .error .noEvaluators
  else .ok (parts.foldl (fun sum part => .plus sum part.1 part.2) .empty)

/-- The name of a kind of gauge. -/
def name : Gauge Position Player → String
  | .rule name _ => name
  | .playout .. => "RandomPlayoutEvaluator"
  | .empty => "CompoundEvaluator"
  | .plus .. => "CompoundEvaluator"

/-- The gauge at the start of a search. -/
def restart : Gauge Position Player → Gauge Position Player
  | .rule name score => .rule name score
  | .playout seeding cap _ => .ofSeeding seeding cap
  | .empty => .empty
  | .plus sum weight part => .plus sum.restart weight part.restart

/-- The score of a position for a player, and the gauge afterwards. -/
def score [DecidableEq Player] [Worded Player] (game : Game Position Player Action) :
    Gauge Position Player → Position → Player → Except Fault Number × Gauge Position Player
  | .rule name scoring, position, side => (scoring position side, .rule name scoring)
  | .playout seeding cap generator, position, side =>
    let (result, generator) :=
      Random.boundedPlayout game Random.Generator.dice cap side position generator
    (result, .playout seeding cap generator)
  | .empty, _, _ => (.ok 0, .empty)
  | .plus sum weight part, position, side =>
    match sum.score game position side with
    | (.error fault, sum) => (.error fault, .plus sum weight part)
    | (.ok total, sum) =>
      match part.score game position side with
      | (.error fault, part) => (.error fault, .plus sum weight part)
      | (.ok value, part) => (do total.plus (← weight.times value), .plus sum weight part)

/-- A gauge as an evaluator whose memory is the gauge itself. -/
def evaluator [DecidableEq Player] [Worded Player] (game : Game Position Player Action) :
    Evaluator (Gauge Position Player) Position Player where
  startSearch := restart
  score position side gauge := gauge.score game position side

end Gauge

end GameSearch
