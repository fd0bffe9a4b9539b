import AutoTune.Lib.Table
import AutoTune.Lib.Trace
import AutoTune.Lib.Ran
import AutoTune.Lib.Ledger
import AutoTune.Lib.Sweep
import AutoTune.Lib.RowLock
import AutoTune.Store.Rows
import AutoTune.Store.Occupancy
import AutoTune.Api.Leases
import AutoTune.Api.PolicySessions
import AutoTune.Supervisor.Finish
import AutoTune.Api.LaunchRequests
import AutoTune.Api.Benchmarks
import AutoTune.Api.IdempotencyKeys
import AutoTune.Supervisor.Janitor
import AutoTune.Supervisor.Settle
import AutoTune.Supervisor.Liveness
import AutoTune.Supervisor.RunHistory
import AutoTune.Supervisor.Advance
import AutoTune.Supervisor.Loops
import AutoTune.Supervisor.Writes
import AutoTune.Supervisor.Steps
import AutoTune.Supervisor.TransitionSafety
import AutoTune.Supervisor.HandBack
import AutoTune.Supervisor.Placement
import AutoTune.Supervisor.PortScan
import AutoTune.Supervisor.CardExclusivity
import AutoTune.Datasets.Pinning
import AutoTune.Datasets.PinSafety
import AutoTune.Launch.Drivers
import AutoTune.Launch.TeardownProof
import AutoTune.Launch.Volumes
import AutoTune.Policy.Allocation
import AutoTune.Policy.SessionExclusivity
import AutoTune.Policy.DyingContainers
import AutoTune.Policy.Schedule
import AutoTune.Policy.Sessions
import AutoTune.Policy.Nights
import AutoTune.Supervisor.MachineQueue
import AutoTune.Supervisor.QueueTickets
import AutoTune.Supervisor.NodePorts
import AutoTune.Supervisor.Admission
import AutoTune.Supervisor.Withdrawals
import AutoTune.Supervisor.Outcomes
import AutoTune.Supervisor.Retries
import AutoTune.Lib.Python
import AutoTune.Lib.Dict
import AutoTune.Lib.JsonText
import AutoTune.Lib.Exact
import AutoTune.Lib.Product
import AutoTune.Recipe.Flags
import AutoTune.Recipe.Args
import AutoTune.Recipe.Address
import AutoTune.Recipe.Model
import AutoTune.Recipe.Shape
import AutoTune.Search.Space
import AutoTune.Search.SoundSpaces
import AutoTune.Search.Counting
import AutoTune.Search.Coverage
import AutoTune.Search.Pruning
import AutoTune.Search.Deviations
import AutoTune.Api.ConfigChecks
import AutoTune.Search.Points
import AutoTune.Search.Validation
import AutoTune.Search.Plan
import AutoTune.Policy.Contenders
import AutoTune.Policy.Verdicts
import AutoTune.Policy.LedgerRows
import AutoTune.Policy.SessionCards
import AutoTune.Policy.Registration
import AutoTune.Policy.Lifecycle
import AutoTune.Supervisor.Finishing
import AutoTune.Supervisor.Measured
import AutoTune.Supervisor.FiniteWork
import AutoTune.Lib.Ranking
import AutoTune.Supervisor.Shortlist
import AutoTune.Supervisor.WithdrawnRuns
import AutoTune.Supervisor.FinishTimes
import AutoTune.Policy.Visits
import AutoTune.Policy.IdleWatchdog
import AutoTune.Policy.IdleSearches
import AutoTune.Lib.Recurring
import AutoTune.Policy.Occurrences
import AutoTune.Lib.Fallible
import AutoTune.Lib.Extended
import AutoTune.Evaluation.Objective
import AutoTune.Catalog.Publish
import AutoTune.Catalog.PublishSafety
import AutoTune.Evaluation.Aggregate
import AutoTune.Evaluation.Verdict
import AutoTune.Evaluation.Leaderboard
import AutoTune.Evaluation.BoardOrder
import AutoTune.Recipe.CommandLine
import AutoTune.Recipe.FlagText
import AutoTune.Recipe.RoundTrip
import AutoTune.Recipe.TwoReaders
import AutoTune.Recipe.Variant
import AutoTune.Lib.Fresh
import AutoTune.Catalog.Entry
import AutoTune.Catalog.EntryIds
import AutoTune.Catalog.EntrySafety
import AutoTune.Lib.JsonReading
import AutoTune.Recipe.VariantFields
import AutoTune.Recipe.VariantTrip
import AutoTune.Recipe.VariantKept
import AutoTune.Lib.Scan
import AutoTune.Lib.Best
import AutoTune.Measures.Catalog
import AutoTune.Measures.Refs
import AutoTune.Measures.RefRoundTrip
import AutoTune.Measures.Adapters
import AutoTune.Measures.Scenarios
import AutoTune.Measures.Points
import AutoTune.Measures.SweepLevels
import AutoTune.Measures.Supports
import AutoTune.Measures.MeasureNames
import AutoTune.Measures.Acceptance
import AutoTune.Measures.AskedAsDeclared
import AutoTune.Lib.Grouping
import AutoTune.Measures.KeyOrder
import AutoTune.Measures.ReadAlike
import AutoTune.Evaluation.Harvest
import AutoTune.Evaluation.RunsApart
import AutoTune.Operator.TuningRun
import AutoTune.Operator.StatusTruth
import AutoTune.Catalog.ExtraArgs
import AutoTune.Catalog.PublishedFlags
import AutoTune.Catalog.PublishedReads
import AutoTune.Catalog.MountNames
import AutoTune.Catalog.TopLevel
import AutoTune.Catalog.TopLevelEdits
import AutoTune.Lib.EcmaScript
import AutoTune.Lib.JsonPaths
import AutoTune.Lib.Separators
import AutoTune.Recipe.Compose
import AutoTune.Recipe.EditFlag
import AutoTune.Recipe.EditReads
import AutoTune.Recipe.NormalForm
import AutoTune.Recipe.LaunchEdit
import AutoTune.Recipe.LayerLaws
import AutoTune.Recipe.PathText
import AutoTune.Search.PageAgrees
import AutoTune.Evaluation.Quality
import AutoTune.Evaluation.Rescore
import AutoTune.Supervisor.RunTiming
import AutoTune.Api.TrialNumbers
import AutoTune.Supervisor.BoundedLogs
import AutoTune.Supervisor.LogStarts
import AutoTune.Recipe.DockerOptions
import AutoTune.Supervisor.QueuedOrCrashed
import AutoTune.Evaluation.GateAgrees
import AutoTune.Supervisor.GangPromise
import AutoTune.Catalog.EnvCategories
import AutoTune.Catalog.Converted
import AutoTune.Catalog.HiddenEnv
import AutoTune.Search.Forbidden
import AutoTune.Supervisor.ReservedMachines
import AutoTune.Policy.HeldMachines
import AutoTune.Lib.DependencyOrder
import AutoTune.Plugins.Load
import AutoTune.Plugins.LoadOrder
import AutoTune.Lib.Shlex
import AutoTune.Recipe.PastedText
import AutoTune.Launch.DockerCommand
import AutoTune.Launch.WrittenOptions
import AutoTune.Launch.ReadBack
import AutoTune.Lib.Differences
import AutoTune.Lib.TreeChanges
import AutoTune.Lib.PyEquality
import AutoTune.Recipe.Diff
import AutoTune.Recipe.DiffLists
import AutoTune.Recipe.DiffApplied
import AutoTune.Recipe.DiffReached
import AutoTune.Lib.Saga
import AutoTune.Launch.GangLaunch
import AutoTune.Launch.GangWhole
