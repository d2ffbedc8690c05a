import GameSearch.Config.Reader
import GameSearch.Strategy

/-!
# Strategies in a configuration

A strategy is described by a record whose `variant` field names its kind; the other fields have defaults.
-/

namespace GameSearch.Config

/-- The description of a strategy. -/
inductive StrategySpec where
  | singleLevel
  | minimax (depth : Int)
  | alphaBeta (depth : Int)
  | uct1 (exploration : Float) (maxIterations : Option Int)

/-- The kinds of strategies. -/
inductive Variant where
  | singleLevel
  | minimax
  | alphaBeta
  | uct1
  deriving DecidableEq, Repr

namespace Variant

/-- The name of a kind. -/
def name : Variant → String
  | singleLevel => "single_level"
  | minimax => "minimax"
  | alphaBeta => "alpha_beta"
  | uct1 => "uct1"

/-- The kind of a name. -/
def ofName? (name : String) : Option Variant :=
  [singleLevel, minimax, alphaBeta, uct1].find? (·.name == name)

variable {Raw : Type} (reader : Reader Raw)

/-- Reads the entries of a strategy of a known kind. -/
def readEntries (variant : Variant) (fields : Entries Raw) : Checked StrategySpec :=
  let tag := fields.read "variant" (some ()) (reader.literal variant.name)
  let depth := fields.read "search_depth" (some 4) reader.positive
  match variant with
  | singleLevel => fields.close ["variant"] (tag.map fun _ => .singleLevel)
  | minimax =>
    fields.close ["variant", "search_depth"]
      (Checked.both (fun _ depth => .minimax depth) tag depth)
  | alphaBeta =>
    fields.close ["variant", "search_depth"]
      (Checked.both (fun _ depth => .alphaBeta depth) tag depth)
  | uct1 =>
    let exploration := fields.read "exploration" (some 1) fun raw =>
      (reader.double raw).require (fun exploration => decide (0 ≤ exploration))
        fun _ => .greaterThanEqual
    let maxIterations := fields.read "max_iterations" (some none)
      (reader.optional reader.positive)
    fields.close ["variant", "exploration", "max_iterations"]
      (Checked.both (fun exploration maxIterations => .uct1 exploration maxIterations)
        (Checked.both (fun _ exploration => exploration) tag exploration) maxIterations)

/-- Reads a strategy of a known kind. -/
def read (variant : Variant) (raw : Raw) : Checked StrategySpec :=
  match reader.entries .modelType raw with
  | .ok fields => variant.readEntries reader fields
  | .error problems => .error problems

end Variant

namespace StrategySpec

/-- Reads a strategy of the kind that its `variant` field names. -/
def read {Raw : Type} (reader : Reader Raw) (raw : Raw) : Checked StrategySpec :=
  match reader.entries .modelAttributesType raw with
  | .error problems => .error problems
  | .ok fields =>
    match fields.get? "variant" with
    | none => Checked.refuse .unionTagNotFound
    | some tag =>
      match (reader.word? tag).bind Variant.ofName? with
      | some variant => (variant.readEntries reader fields).under (.key variant.name)
      | none => Checked.refuse .unionTagInvalid

/-- The kind of a strategy. -/
def variant : StrategySpec → Variant
  | singleLevel => .singleLevel
  | minimax _ => .minimax
  | alphaBeta _ => .alphaBeta
  | uct1 .. => .uct1

/-- The description with all fields. -/
def dump (spec : StrategySpec) : Value :=
  .record (("variant", .text spec.variant.name) ::
    match spec with
    | singleLevel => []
    | minimax depth => [("search_depth", .number (.int depth))]
    | alphaBeta depth => [("search_depth", .number (.int depth))]
    | uct1 exploration maxIterations =>
      [("exploration", .number (.real exploration)),
       ("max_iterations", .ofOptionalInt maxIterations)])

/-- The strategy described. -/
def build : StrategySpec → Strategy
  | singleLevel => .singleLevel
  | minimax depth => .tree .minimax depth
  | alphaBeta depth => .tree .alphaBeta depth
  | uct1 exploration maxIterations => .monteCarlo (.uct1 (.real exploration)) maxIterations

end StrategySpec

end GameSearch.Config
