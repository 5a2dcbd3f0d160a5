import Juncture.Pregel.Targets
import Juncture.Pregel.MergeOrder
import Juncture.Pregel.FailedOutputs
import Juncture.Pregel.Guards
import Juncture.Pregel.InlinePath
import Juncture.Pregel.ResumeDelivery
import Juncture.Pregel.Atomicity
import Juncture.Pregel.Halting
import Juncture.Pregel.InterruptStop
import Juncture.Pregel.Rerun
import Juncture.Graph.Resume
import Juncture.Pregel.TriggerGuard
import Juncture.Graph.EntryPoints
import Juncture.Pregel.InterruptAfter
import Juncture.Pregel.Ephemeral
import Juncture.Pregel.FallbackChains
import Juncture.Pregel.HandledOnce
import Juncture.Pregel.PartialResumes
import Juncture.Pregel.VectorResumes
import Juncture.Graph.StopReports
import Juncture.Graph.Streaming
import Juncture.Pregel.StepBudget
import Juncture.Graph.Breakers
import Juncture.Graph.Retries
import Juncture.Graph.ResultCache
import Juncture.Graph.Persistence
import Juncture.Llm.AgentUsage
import Juncture.Llm.StreamLines
import Juncture.Llm.OpenAIStream
import Juncture.Llm.ReopenedStreams
import Juncture.Llm.AnthropicRequest
import Juncture.Llm.ModelBreaker
import Juncture.Llm.CacheKeys
import Juncture.Llm.MessagesReducer
import Juncture.Llm.Retrying
import Juncture.Lib.Interleave
import Juncture.Lib.Roster
import Juncture.Lib.Delimited
import Juncture.Lib.Tarjan
import Juncture.Graph.Components
import Juncture.Telemetry.Langfuse
import Juncture.Telemetry.BatchWriter
import Juncture.Lib.LineReader
import Juncture.Lib.Relay
import Juncture.Lib.Paging
import Juncture.Lib.Windows
import Juncture.Lib.Quoting
import Juncture.Lib.Observe
import Juncture.Lib.Retry
import Juncture.Lib.Shuffle
import Juncture.Lib.Cells
import Juncture.Graph.StreamEvents
import Juncture.Graph.StreamDelivery
import Juncture.Graph.StreamModes
import Juncture.Graph.LlmStreaming
import Juncture.Pregel.Shadow
import Juncture.Pregel.ShadowTurns
import Juncture.Graph.Transparency
import Juncture.Core.Derived
import Juncture.Core.DeriveState
import Juncture.Core.Migrations
import Juncture.Core.Duration
import Juncture.Pregel.DerivedWrites
import Juncture.Pregel.PendingWrites
import Juncture.Graph.Subgraph
import Juncture.Graph.SharedState
import Juncture.Pregel.StoreUse
import Juncture.Lib.Sessions
import Juncture.Lib.Linearize
import Juncture.Graph.Sessions
import Juncture.Graph.Isolation
import Juncture.Graph.Loops
import Juncture.Graph.NestedInterrupts
import Juncture.Graph.Reachability
import Juncture.Graph.CheckpointNamespaces
import Juncture.Saver.Memory
import Juncture.Saver.Serializers
import Juncture.Saver.Sqlite
import Juncture.Saver.RoundTrip
import Juncture.Saver.Agreement
import Juncture.Saver.History
import Juncture.Saver.Cleanup
import Juncture.Saver.Listing
import Juncture.Saver.Detection
import Juncture.Saver.DeltaRecovery
import Juncture.Saver.Cache
import Juncture.Channels.Types
import Juncture.Channels.Restore
import Juncture.Channels.RingBuffer
import Juncture.Channels.AfterFinish
import Juncture.Channels.Replay
import Juncture.Tools.Node
import Juncture.Tools.Answers
import Juncture.Tools.Dispatch
import Juncture.Tools.Events
import Juncture.Store.Filters
import Juncture.Store.Items
import Juncture.Store.Locks
import Juncture.Store.Like
import Juncture.Store.Namespaces
import Juncture.Store.Clauses
import Juncture.Store.Dialects
import Juncture.Store.Statements
import Juncture.Store.Search
import Juncture.Prebuilt.AgentRuns
import Juncture.Prebuilt.LoopDetection
import Juncture.Saver.Shadows
import Juncture.Graph.Administration
import Juncture.Graph.Previous
import Juncture.Prebuilt.LoopStops
import Juncture.Graph.TaskCache
import Juncture.Pregel.CompletionOrder
import Juncture.Graph.Supersteps
import Juncture.Graph.Charts
import Juncture.Graph.FlowCharts
import Juncture.Graph.Determinacy
import Juncture.Graph.Pipelines
