import GameSearch.Decimal.Typed
import GameSearch.Game

/-!
# The best action so far

A tracker holds the best score seen so far and the action that gave it. A score replaces another one only
if it is strictly better, so among equally good actions the first one stays.
-/

namespace GameSearch

/-- Whether the player to move seeks the greatest or the least score. -/
inductive Aim where
  | greatest
  | least
  deriving DecidableEq, Repr

/-- The aim of a player in a search for `seeker`: everybody else works against the seeker. -/
def Aim.ofMover {Player : Type} [DecidableEq Player] (seeker mover : Player) : Aim :=
  if mover = seeker then .greatest else .least

/-- Whether a score is strictly better than another one. -/
def Aim.prefers : Aim → Number → Number → Bool
  | .greatest, score, other => other.less score
  | .least, score, other => score.less other

/-- The score that every number improves on. -/
def Aim.baseline : Aim → Number
  | .greatest => .below
  | .least => .above

/-- The best score so far, and the action that gave it. -/
structure Tracker (Action : Type) where
  score : Number
  /-- The best action, if any score beat the first one or a fallback was given. -/
  action : Option Action
  /-- Whether a deadline cut the search short; the score is then no more than a bound. -/
  truncated : Bool

namespace Tracker

variable {Action : Type}

/-- No action yet. -/
def start (score : Number) : Tracker Action := ⟨score, none, false⟩

def hasAction (tracker : Tracker Action) : Bool := tracker.action.isSome

/-- Stores an action whose score is strictly better. -/
def insert (tracker : Tracker Action) (aim : Aim) (action : Action) (score : Number) :
    Tracker Action :=
  if aim.prefers score tracker.score then { tracker with score, action := some action }
  else tracker

/-- Stores an action whose score is strictly greater. -/
def insertMax (tracker : Tracker Action) (action : Action) (score : Number) : Tracker Action :=
  tracker.insert .greatest action score

/-- Stores an action whose score is strictly smaller. -/
def insertMin (tracker : Tracker Action) (action : Action) (score : Number) : Tracker Action :=
  tracker.insert .least action score

/-- Stores an action if there is none yet, and leaves the score alone. -/
def withFallback (tracker : Tracker Action) (action : Action) : Tracker Action :=
  { tracker with action := tracker.action <|> some action }

/-- Marks the search as cut short. -/
def truncate (tracker : Tracker Action) : Tracker Action := { tracker with truncated := true }

/-- The stored action. The score is written into the account of a missing one. -/
def action? (tracker : Tracker Action) : Except Fault Action :=
  match tracker.action with
  | some action => .ok action
  | none => do throw (.missingAction (← tracker.score.written))

/-- A tracker with all its parts. -/
def describe [Worded Action] (tracker : Tracker Action) : Except Fault String := do
  return "ScoredAction(score=" ++ (← tracker.score.written) ++ ", action=" ++
    Worded.optionalLiteral tracker.action ++
    (if tracker.truncated then ", truncated" else "") ++ ")"

end Tracker

end GameSearch
