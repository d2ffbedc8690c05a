/-!
# Notes

What a search, an agent or a contest reports about its progress, beside its result.
-/

namespace GameSearch

/-- How important a note is. -/
inductive Level where
  | debug
  | info
  | error
  deriving DecidableEq, Repr

/-- The activity that a note is about. -/
inductive Topic where
  | treeSearch
  | monteCarlo
  | agent
  | game
  | contest
  | tournament
  | nimTable
  | tournamentTable
  deriving DecidableEq, Repr

/-- A report on progress. -/
structure Note where
  level : Level
  topic : Topic
  text : String
  deriving DecidableEq, Repr

end GameSearch
