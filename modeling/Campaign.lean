import Campaign.Async.Context
import Campaign.Async.Proc
import Campaign.Async.Routine
import Campaign.Async.Scheduler
import Campaign.Cli.Args
import Campaign.Cli.Execute
import Campaign.Command.Error
import Campaign.Command.ExitStatus
import Campaign.Command.Program
import Campaign.Command.Spec
import Campaign.Command.Stages
import Campaign.Config.Basic
import Campaign.Cycle.Basic
import Campaign.Cycle.Error
import Campaign.Cycle.Executor
import Campaign.Data.Table
import Campaign.Director.Error
import Campaign.Director.Options
import Campaign.Director.Run
import Campaign.Error.Cause
import Campaign.Files.IoError
import Campaign.Files.Path
import Campaign.Files.Tree
import Campaign.Float.Binary64
import Campaign.Float.Notation
import Campaign.Float.Shortest
import Campaign.Instance.Env
import Campaign.Instance.Error
import Campaign.Instance.Run
import Campaign.Json.Cursor
import Campaign.Json.Outline
import Campaign.Json.Value
import Campaign.Json.Write
import Campaign.Machine.Basic
import Campaign.Machine.Quantities
import Campaign.Main
import Campaign.Mutation.Analysis
import Campaign.Mutation.Automator
import Campaign.Mutation.Config
import Campaign.Mutation.Run
import Campaign.Observer.Delivery
import Campaign.Observer.Event
import Campaign.Observer.Forward
import Campaign.Observer.Log
import Campaign.Observer.Stats
import Campaign.Plan.Basic
import Campaign.Plan.Corpus
import Campaign.Plan.Status
import Campaign.Schema.Fault
import Campaign.Schema.Normal
import Campaign.Schema.OfText
import Campaign.Schema.OfValue
import Campaign.Schema.Shape
import Campaign.Service.Bench
import Campaign.Service.CommandLine
import Campaign.Service.Commands
import Campaign.Service.Contexts
import Campaign.Service.Cycles
import Campaign.Service.Directors
import Campaign.Service.Dispatch
import Campaign.Service.Events
import Campaign.Service.Failures
import Campaign.Service.Instances
import Campaign.Service.Mutation
import Campaign.Service.Planning
import Campaign.Service.Reply
import Campaign.Service.Rotation
import Campaign.Service.Settings
import Campaign.Shell.Arith
import Campaign.Shell.Lexer
import Campaign.Shell.Parser
import Campaign.Shell.Pattern
import Campaign.Shell.Run
import Campaign.Shell.State
import Campaign.Shell.Syntax
import Campaign.Shell.Text
import Campaign.Shell.Utilities
import Campaign.Text.Duration
import Campaign.Text.Outline
import Campaign.Text.Quoted
import Campaign.Proofs.Async.Runs
import Campaign.Proofs.Instance.Turns
import Campaign.Proofs.Instance.Lifecycle
import Campaign.Proofs.Instance.CycleTasks
import Campaign.Proofs.Async.Channels
import Campaign.Proofs.Mutation.Stream
import Campaign.Proofs.Instance.MutantPlans
import Campaign.Proofs.Files.Places
import Campaign.Proofs.Director.Building
import Campaign.Proofs.Director.MachineRoots
import Campaign.Proofs.Instance.Outcome
import Campaign.Proofs.Async.Lives
import Campaign.Proofs.Files.Operations
import Campaign.Proofs.Instance.Scratch
import Campaign.Proofs.Director.Directing
import Campaign.Proofs.Async.Fanin
import Campaign.Proofs.Observer.Sinks
import Campaign.Proofs.Observer.Forwarding
import Campaign.Proofs.Async.Lineage
import Campaign.Proofs.Async.Cancellation
import Campaign.Proofs.Json.Layout
import Campaign.Proofs.Json.Tokens
import Campaign.Proofs.Schema.Reading
import Campaign.Proofs.Schema.Records
import Campaign.Proofs.Plan.Wire
import Campaign.Proofs.Async.Counting
import Campaign.Proofs.Mutation.Rotation
import Campaign.Proofs.Instance.Echoes
import Campaign.Proofs.Instance.KillRotation
import Campaign.Proofs.Cycle.Stages
import Campaign.Proofs.Data.Tables
import Campaign.Proofs.Mutation.Findings
import Campaign.Proofs.Observer.Tallies
import Campaign.Proofs.Mutation.RoundRobin
import Campaign.Proofs.Observer.StatsFile
import Campaign.Proofs.Command.Progress
import Campaign.Proofs.Async.Timers
import Campaign.Proofs.Mutation.Slices
import Campaign.Proofs.Mutation.Stopping
import Campaign.Proofs.Instance.Closing
import Campaign.Proofs.Plan.Corpus
import Campaign.Proofs.Observer.LogLines
import Campaign.Proofs.Command.Archives
import Campaign.Proofs.Command.Timeouts
import Campaign.Proofs.Mutation.Expansion
import Campaign.Proofs.Director.Validation
