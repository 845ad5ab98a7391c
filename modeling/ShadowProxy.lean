import ShadowProxy.Json
import ShadowProxy.Clock
import ShadowProxy.Data.Table
import ShadowProxy.Data.Path
import ShadowProxy.Data.JsonText
import ShadowProxy.Data.JsonScanner
import ShadowProxy.Data.JsonReading
import ShadowProxy.Data.JsonGrammar
import ShadowProxy.Store.Decoding
import ShadowProxy.Store.RoundTrip
import ShadowProxy.Store.Gzipped
import ShadowProxy.Archive.History
import ShadowProxy.Evaluator.Validity
import ShadowProxy.Data.Readable
import ShadowProxy.Data.Paging
import ShadowProxy.Data.Pattern
import ShadowProxy.Data.Interpolation
import ShadowProxy.Data.PurePath
import ShadowProxy.Settings
import ShadowProxy.Evaluator
import ShadowProxy.Store.Base
import ShadowProxy.Store.Sql
import ShadowProxy.Store.Raw
import ShadowProxy.Llm
import ShadowProxy.Dispatcher
import ShadowProxy.Effects.Program
import ShadowProxy.Effects.Threads
import ShadowProxy.Operations
import ShadowProxy.Deployment
import ShadowProxy.Pipeline
import ShadowProxy.Api.Chat
import ShadowProxy.Sweeper
import ShadowProxy.System
import ShadowProxy.Specs
import ShadowProxy.HandlerSpec
import ShadowProxy.Runs
import ShadowProxy.Effects.Schedule
import ShadowProxy.Scenario
import ShadowProxy.Lifecycle.Terminal
import ShadowProxy.Lifecycle.PrimaryFailure
import ShadowProxy.Sampling.Unsent
import ShadowProxy.Archive.Durable
import ShadowProxy.Archive.FailedMerge
import ShadowProxy.Routing
import ShadowProxy.Sampling.Bias
import ShadowProxy.Archive.Fidelity
import ShadowProxy.Archive.Isolation
import ShadowProxy.Lifecycle.Termination
import ShadowProxy.Llm.Contract
import ShadowProxy.Llm.Retry
import ShadowProxy.Startup.Keys
import ShadowProxy.Startup.EnvFile
import ShadowProxy.Api.FailOpen
import ShadowProxy.Lifecycle.Exclusion
import ShadowProxy.Lifecycle.Leftovers
import ShadowProxy.Dispatcher.Conservation
import ShadowProxy.Dispatcher.Cancellation
import ShadowProxy.Tape.Flush
import ShadowProxy.Api.Evaluations
import ShadowProxy.Evaluator.Fences
import ShadowProxy.Evaluator.Text
import ShadowProxy.Evaluator.Lowercase
import ShadowProxy.Evaluator.Reading
import ShadowProxy.Evaluator.Match
import ShadowProxy.Util.Sha256
import ShadowProxy.Util.Hashing
import ShadowProxy.Util.Redact
import ShadowProxy.Lifecycle.Requeue
import ShadowProxy.Api.Summary
import ShadowProxy.Api.Percentile
import ShadowProxy.Archive.Containment
import ShadowProxy.Effects.Counting
import ShadowProxy.Metrics.Footprint
import ShadowProxy.Lifecycle.Recorded
import ShadowProxy.Metrics.Requests
import ShadowProxy.Metrics.Verdicts
import ShadowProxy.Lifecycle.Actions
import ShadowProxy.Store.Columns
import ShadowProxy.Store.Listing
import ShadowProxy.Lifecycle.Widths
import ShadowProxy.Lifecycle.Sweeping
import ShadowProxy.Lifecycle.Timestamps
import ShadowProxy.Tape.Truthful
import ShadowProxy.Dispatcher.Refinement
import ShadowProxy.Lifecycle.AtMostOnce
import ShadowProxy.Api.RawView
import ShadowProxy.Lifecycle.Fate
import ShadowProxy.Evaluator.Interchange
import ShadowProxy.Lifecycle.SweeperTask
import ShadowProxy.Lifecycle.Lifespan
import ShadowProxy.Metrics.Dashboards
import ShadowProxy.Effects.Lockstep
import ShadowProxy.Archive.Backends
