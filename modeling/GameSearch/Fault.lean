import GameSearch.Text.Quoted

/-!
# Faults

The reasons why an operation of this library is refused, as causes; `Fault.message` words them.
Running out of time is no fault: every strategy then answers with the best action found so far.
-/

namespace GameSearch

/-- Why an operation is refused. -/
inductive Fault where
  /-- An agent is asked to choose in a finished game. -/
  | gameOver (agent winner : String)
  /-- An agent is asked to choose for a player who has no legal action. -/
  | noLegalAction (agent player : String)
  /-- A random playout met a player who has no legal action. -/
  | stuckPlayout (player : String)
  /-- An action is not legal in a position; the game gives its own account. -/
  | illegalAction (account : String)
  /-- A tracker was asked for its action before any was stored. -/
  | missingAction (score : String)
  /-- No agent is registered under a name. -/
  | unknownAgent (name : String) (known : List String)
  /-- A name is registered twice. -/
  | alreadyRegistered (name : String)
  /-- An agent asks for an evaluator that is not among the known ones. -/
  | unknownEvaluator (agent key : String) (known : List String)
  /-- A player to move has no agent. -/
  | noAgent (player : String)
  /-- A Nim position without piles. -/
  | noPiles
  /-- A Nim position with a negative pile. -/
  | negativePile (sizes : List String)
  /-- A limit on a Nim move that forbids every move. -/
  | takeLimit (limit : String)
  /-- Misère Nim with a limit on moves has no closed form. -/
  | noClosedForm
  /-- An integer is too large to be rounded to a double. -/
  | integerTooLarge
  /-- A quotient of integers is too large to be rounded to a double. -/
  | quotientTooLarge
  /-- A remainder by zero. -/
  | zeroDivisor
  /-- A pile number has no letter. -/
  | noPileLetter
  /-- A pile number is too large for its letter to be looked up. -/
  | pileOutOfRange
  /-- A child was asked of a node without children. -/
  | noChildren (node : Nat)
  | alreadyExpanded (action : String) (node : Nat)
  /-- A node number past the end of a search tree. -/
  | noSuchNode
  /-- A weighted sum of no evaluators. -/
  | noEvaluators
  | negativeSeed
  /-- A text that looks like an integer and is none. -/
  | notAnInteger (text : String)
  /-- An integer with more digits than a text may have to be read. -/
  | longInteger (digits : Nat)
  /-- An integer has more digits than one may have to be written. -/
  | unwrittenInteger
  /-- A path without a last component. -/
  | namelessPath (path : String)
  /-- A table of no agents. -/
  | noAgents
  /-- A script has no action left. -/
  | scriptEnded
  /-- The input ended where a line was expected. -/
  | endOfInput
  /-- Neither a limit nor the game itself bounds a search or a game. -/
  | unbounded
  deriving DecidableEq

/-- The fault that is met in giving account of a fault: the fault itself if the account can be given. -/
def Fault.told : Except Fault Fault → Fault
  | .ok fault => fault
  | .error fault => fault

/-- How much of a quoted text is shown when it is no integer. -/
def longestQuote : Nat := 200

/-- The wording of a fault. -/
def Fault.message : Fault → String
  | .gameOver agent winner =>
    agent ++ ": game is over (winner=" ++ winner ++ "), nothing to choose"
  | .noLegalAction agent player => agent ++ ": player " ++ player ++ " has no legal actions"
  | .stuckPlayout player => "Player " ++ player ++ " has no legal actions during playout"
  | .illegalAction account => account
  | .missingAction score => "Expected action (score=" ++ score ++ ")"
  | .unknownAgent name known =>
    "No agent named " ++ Text.quoted name ++ ", known agents: " ++ ", ".intercalate known
  | .alreadyRegistered name => "Agent " ++ Text.quoted name ++ " is already registered"
  | .unknownEvaluator agent key known =>
    "Agent " ++ Text.quoted agent ++ ": unknown evaluator " ++ Text.quoted key ++
      ", expected one of " ++ Text.bracketed (known.map Text.quoted)
  | .noAgent player => "No agent for player " ++ player
  | .noPiles => "Nim needs at least one pile"
  | .negativePile sizes => "Pile sizes must be non-negative, got " ++ Text.bracketed sizes
  | .takeLimit limit => "max_take must be at least 1, got " ++ limit
  | .noClosedForm => "No closed-form oracle for misère Nim with a take limit"
  | .integerTooLarge => "int too large to convert to float"
  | .quotientTooLarge => "integer division result too large for a float"
  | .zeroDivisor => "integer modulo by zero"
  | .noPileLetter => "chr() arg not in range(0x110000)"
  | .pileOutOfRange => "int too large to convert to C int"
  | .noChildren node => "Node " ++ toString node ++ " has no children"
  | .alreadyExpanded action node =>
    "Action " ++ action ++ " already expanded from node " ++ toString node
  | .noSuchNode => "list index out of range"
  | .noEvaluators => "CompoundEvaluator needs at least one evaluator"
  | .negativeSeed => "expected non-negative integer"
  | .notAnInteger text =>
    "invalid literal for int() with base 10: " ++
      String.ofList ((Text.quoted text).toList.take longestQuote)
  | .longInteger digits =>
    "Exceeds the limit (4300 digits) for integer string conversion: value has " ++
      toString digits ++ " digits; use sys.set_int_max_str_digits() to increase the limit"
  | .unwrittenInteger =>
    "Exceeds the limit (4300 digits) for integer string conversion; " ++
      "use sys.set_int_max_str_digits() to increase the limit"
  | .namelessPath path => "PosixPath(" ++ Text.quoted path ++ ") has an empty name"
  | .noAgents => "there are no agents to rank"
  | .scriptEnded => "the script has no action left"
  | .endOfInput => "EOF when reading a line"
  | .unbounded => "nothing bounds this search"

end GameSearch
