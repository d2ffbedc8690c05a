import GameSearch.Decimal.Typed

/-!
# Points in time

A search may have to stop at a point in time, given in seconds on a clock that only moves forward. Points in time
are ordered by their seconds.
-/

namespace GameSearch

/-- A point on the clock. -/
structure Instant where
  seconds : Number

namespace Instant

/-- The point in time that never comes. -/
def never : Instant := ⟨.above⟩

/-- Whether the clock is past the point. -/
def exceeded (instant : Instant) (now : Number) : Bool := instant.seconds.less now

/-- The seconds left, never less than zero. -/
def remaining (instant : Instant) (now : Number) : Except Fault Number := do
  return Number.max (.real 0) (← instant.seconds.plus (-now))

/-- Whether two points are the same. -/
def same (left right : Instant) : Bool := left.seconds.same right.seconds

/-- The points from the first to the last; equal ones keep their order. -/
def sort (instants : List Instant) : List Instant :=
  instants.mergeSort fun left right => !right.seconds.less left.seconds

/-- The point in one line. -/
def describe (instant : Instant) : Except Fault String := do
  return "Deadline(at=" ++ (← instant.seconds.written) ++ ")"

end Instant

end GameSearch
