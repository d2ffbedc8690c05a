import GameSearch.Agent
import GameSearch.Agent.Registry
import GameSearch.CommandLine.Championship
import GameSearch.CommandLine.Duel
import GameSearch.CommandLine.Options
import GameSearch.CommandLine.Outcome
import GameSearch.Compose.Defaults
import GameSearch.Compose.Failure
import GameSearch.Compose.Files
import GameSearch.Compose.Load
import GameSearch.Compose.Merge
import GameSearch.Compose.Override
import GameSearch.Compose.Reference
import GameSearch.Compose.Source
import GameSearch.Config.Agent
import GameSearch.Config.Json
import GameSearch.Config.Location
import GameSearch.Config.Problem
import GameSearch.Config.Scalar
import GameSearch.Config.Strategy
import GameSearch.Config.Tournament
import GameSearch.Config.Value
import GameSearch.Contest.Match
import GameSearch.Contest.Play
import GameSearch.Contest.Standings
import GameSearch.Contest.Tournament
import GameSearch.Deadline
import GameSearch.Decimal.Digits
import GameSearch.Decimal.Fixed
import GameSearch.Decimal.Reading
import GameSearch.Decimal.Shortest
import GameSearch.Decimal.Typed
import GameSearch.Evaluator
import GameSearch.Fault
import GameSearch.Game
import GameSearch.Game.Graph
import GameSearch.Gauge
import GameSearch.Instant
import GameSearch.Main
import GameSearch.MonteCarlo.Scorer
import GameSearch.MonteCarlo.Search
import GameSearch.MonteCarlo.Tree
import GameSearch.Moves
import GameSearch.Nim.Action
import GameSearch.Nim.Agents
import GameSearch.Nim.Describe
import GameSearch.Nim.Evaluators
import GameSearch.Nim.Human
import GameSearch.Nim.Oracle
import GameSearch.Nim.Position
import GameSearch.Nim.Typed
import GameSearch.Note
import GameSearch.Number
import GameSearch.Number.Double
import GameSearch.Path
import GameSearch.Proofs.Agent.Choice
import GameSearch.Proofs.Contest.Run
import GameSearch.Proofs.MonteCarlo.Arena
import GameSearch.Proofs.MonteCarlo.Descent
import GameSearch.Proofs.MonteCarlo.Exploration
import GameSearch.Proofs.MonteCarlo.Untried
import GameSearch.Proofs.Nim.ClosedForm
import GameSearch.Proofs.Nim.NimSum
import GameSearch.Proofs.Nim.Optimal
import GameSearch.Proofs.Nim.PerfectPlay
import GameSearch.Proofs.Number.Place
import GameSearch.Proofs.Search.Best
import GameSearch.Proofs.Search.Completion
import GameSearch.Proofs.Search.Exact
import GameSearch.Proofs.Search.Greedy
import GameSearch.Proofs.Search.Pruning
import GameSearch.Proofs.Search.Returns
import GameSearch.Proofs.Search.Window
import GameSearch.Random.Generator
import GameSearch.Random.Playout
import GameSearch.Random.Seed
import GameSearch.Search.AlphaBeta
import GameSearch.Search.DepthLimited
import GameSearch.Search.Effort
import GameSearch.Search.Minimax
import GameSearch.Search.SingleLevel
import GameSearch.Search.Tracker
import GameSearch.Strategy
import GameSearch.Text.Blank
import GameSearch.Text.Cased
import GameSearch.Text.Column
import GameSearch.Text.Digit
import GameSearch.Text.Letter
import GameSearch.Text.LowerCase
import GameSearch.Text.Printable
import GameSearch.Text.Quoted
import GameSearch.Text.Ranges
import GameSearch.Text.WordFiller
import GameSearch.Yaml.Cursor
import GameSearch.Yaml.Document
import GameSearch.Yaml.Node
import GameSearch.Yaml.Plain
import GameSearch.Yaml.Quoting
import GameSearch.Yaml.Scalar
import GameSearch.Yaml.Writer
import GameSearch.Proofs.MonteCarlo.Iterations
import GameSearch.Proofs.MonteCarlo.Conservation
import GameSearch.Proofs.Search.Interruption
import GameSearch.Proofs.Search.Worth
import GameSearch.Proofs.Search.Anytime
import GameSearch.Proofs.Nim.Solving
import GameSearch.Proofs.Search.Legality
import GameSearch.Proofs.Agent.Contract
import GameSearch.Proofs.Contest.Replay
import GameSearch.Proofs.Nim.Ending
import GameSearch.Proofs.Search.Course
import GameSearch.Proofs.Search.Agenda
import GameSearch.Proofs.Search.Pruned
import GameSearch.Proofs.Search.Pursuit
import GameSearch.Proofs.Search.Cutoff
import GameSearch.Proofs.Search.Thrift
import GameSearch.Proofs.Search.Ordering
import GameSearch.Proofs.Number.Opposite
import GameSearch.Proofs.Search.Parallel
import GameSearch.Proofs.Search.Perspective
import GameSearch.Proofs.Gauge.Opposite
import GameSearch.Proofs.MonteCarlo.Perspective
import GameSearch.Proofs.Gauge.Restart
import GameSearch.Proofs.MonteCarlo.Repeat
import GameSearch.Proofs.Search.Memory
import GameSearch.Proofs.Search.Soundness
import GameSearch.Proofs.Nim.Soundness
import GameSearch.Proofs.MonteCarlo.Bookkeeping
import GameSearch.Proofs.Random.Rollout
import GameSearch.Proofs.Search.Consistency
import GameSearch.Proofs.Nim.Consistency
import GameSearch.Proofs.MonteCarlo.Robust
import GameSearch.Proofs.Nim.Execution
import GameSearch.Proofs.Nim.Playout
import GameSearch.Proofs.Contest.TurnLimit
import GameSearch.Proofs.Search.Correspondence
import GameSearch.Proofs.Config.Accepted
import GameSearch.Proofs.Contest.Agreement
import GameSearch.Proofs.Contest.Conservation
import GameSearch.Proofs.Search.Rescaling
import GameSearch.Proofs.Contest.Tallies
import GameSearch.Proofs.Contest.BothSides
import GameSearch.Proofs.Contest.Ranking
import GameSearch.Proofs.Contest.Completion
import GameSearch.Proofs.Agent.DeadEnds
import GameSearch.Proofs.Nim.Judgement
import GameSearch.Proofs.Nim.Repetition
import GameSearch.Proofs.Nim.Dialogue
import GameSearch.Proofs.Nim.Refusal
import GameSearch.Proofs.Config.Location
import GameSearch.Proofs.Config.Stability
import GameSearch.Proofs.Nim.Typing
import GameSearch.Proofs.Search.FailSoft
import GameSearch.Proofs.Search.FirstBest
