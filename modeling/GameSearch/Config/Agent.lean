import GameSearch.Config.Strategy
import GameSearch.Nim.Agents

/-!
# Agents in a configuration

An agent is described by its name, its strategy and the key of its gauge.
-/

namespace GameSearch.Config

/-- The description of an agent. -/
structure AgentSpec where
  name : String
  strategy : StrategySpec
  evaluator : String
  omniscient : Bool

namespace AgentSpec

def read {Raw : Type} (reader : Reader Raw) (raw : Raw) : Checked AgentSpec :=
  match reader.entries .modelType raw with
  | .error problems => .error problems
  | .ok fields =>
    let name := fields.read "name" none fun raw =>
      (reader.text raw).require (fun name => !name.isEmpty) fun _ => .stringTooShort
    let strategy := fields.read "strategy" none (StrategySpec.read reader)
    let evaluator := fields.read "evaluator" none reader.text
    let omniscient := fields.read "omniscient" (some false) reader.bool
    fields.close ["name", "strategy", "evaluator", "omniscient"]
      (Checked.both (fun build omniscient => build omniscient)
        (Checked.both (fun build evaluator => build evaluator)
          (Checked.both AgentSpec.mk name strategy) evaluator) omniscient)

/-- The description with all fields. -/
def dump (spec : AgentSpec) : Value :=
  .record [("name", .text spec.name), ("strategy", spec.strategy.dump),
    ("evaluator", .text spec.evaluator), ("omniscient", .bool spec.omniscient)]

/-- The agent described, with a gauge made as a table says. -/
def build (spec : AgentSpec) (gauges : Nim.GaugeTable) (entropy : Random.Entropy) :
    Except Fault Nim.NimAgent :=
  match gauges.get? spec.evaluator with
  | none => .error (.unknownEvaluator spec.name spec.evaluator gauges.keys)
  | some make => do
    return .searcher spec.name spec.strategy.build (← make entropy) spec.omniscient

/-- Builds an agent and registers it under its name. -/
def register (spec : AgentSpec) (gauges : Nim.GaugeTable) (entropy : Random.Entropy)
    (registry : Registry Nim.Position Nim.Player Nim.Action) :
    Except Fault (Registry Nim.Position Nim.Player Nim.Action) := do
  registry.register spec.name (← spec.build gauges entropy)

end AgentSpec

end GameSearch.Config
