import GameSearch.CommandLine.Options
import GameSearch.Compose.Failure
import GameSearch.Config.Problem
import GameSearch.Fault
import GameSearch.Note

/-!
# What a program does

A run of a program is what it writes, what it notes, and how it ends: with a status, or by something that it does not
handle itself.
-/

namespace GameSearch.CommandLine

/-- How a run ends. -/
inductive Ending where
  | exit (status : Nat)
  | fault (fault : Fault)
  /-- A configuration cannot be composed. -/
  | uncomposed (failure : Compose.Failure)
  /-- A configuration is not valid. -/
  | invalid (problems : List Config.Problem)

/-- A run of a program. -/
structure Outcome where
  ending : Ending
  output : String
  notes : List Note

namespace Outcome

def success : Nat := 0

/-- The status of a refusal that is explained in a note. -/
def refusal : Nat := 1

/-- The status of wrong arguments. -/
def misuse : Nat := 2

/-- The run that ends before it begins. -/
def stopped : Stop → Outcome
  | .misused => ⟨.exit misuse, "", []⟩
  | .helped => ⟨.exit success, "", []⟩

/-- The run that refuses to go on, with an account of the reason. -/
def refused (topic : Topic) (account : String) : Outcome :=
  ⟨.exit refusal, "", [⟨.error, topic, account⟩]⟩

/-- The run that ends by a fault without having done anything. -/
def failed (fault : Fault) : Outcome := ⟨.fault fault, "", []⟩

end Outcome

end GameSearch.CommandLine
