import TierCache.Glob
import TierCache.Decimal.Shortest
import TierCache.Text.Utf8
import TierCache.Json.Value
import TierCache.Json.Write
import TierCache.Text.Quote
import TierCache.Decode.Mismatch
import TierCache.Time.Instant
import TierCache.Json.Read
import TierCache.Json.Shape
import TierCache.Time.Span
import TierCache.Error
import TierCache.Store.WriteStrategy
import TierCache.Frame.Lz4Block
import TierCache.Frame.Lz4Hc
import TierCache.Frame.Codec
import TierCache.Frame.Lz4Compress
import TierCache.Store.Breaker
import TierCache.Store.Metrics
import TierCache.Store.Memory
import TierCache.Store.Backend
import TierCache.Store.Distributed
import TierCache.Console.Fields
import TierCache.Console.Forms
import TierCache.Console.Tiers
import TierCache.Console.Stateless
import TierCache.Console.Settings
import TierCache.Console.Answer
import TierCache.Config.Settings
import TierCache.Config.Schema
import TierCache.Yaml.Scanner
import TierCache.Yaml.Parser
import TierCache.Yaml.Document
import TierCache.Yaml.Resolve
import TierCache.Config.FromYaml
import TierCache.Json.Decode
import TierCache.Warming.Stats
import TierCache.Observe.Health
import TierCache.Observe.Snapshot
import TierCache.Observe.Exposition
import TierCache.Console.Reports
import TierCache.Warming.Source
import TierCache.Warming.Patterns
import TierCache.Warming.Predictor
import TierCache.Console.Activity
import TierCache.Net.Ipv6
import TierCache.Net.Url
import TierCache.Store.Endpoint
import TierCache.Console.Endpoints
import TierCache.Tasks.Fiber
import TierCache.Tasks.Buffered
import TierCache.Tasks.Pool
import TierCache.Cache.Events
import TierCache.Cache.Tiered
import TierCache.Warming.Rule
import TierCache.Warming.Scheduler
import TierCache.Service.Host
import TierCache.Service.Access
import TierCache.Service.Warming
import TierCache.Service.Lifecycle
import TierCache.Console.Rules
import TierCache.Console.Session
import TierCache.Console.Steps
import TierCache.Net.SocketAddr
import TierCache.Cli.Flags
import TierCache.Text.Jaro
import TierCache.Cli.Arguments
import TierCache.Cli.LogFilter
import TierCache.Cli.Machine
import TierCache.Cli.Launch
import TierCache.Console.Cli
import TierCache.Main
import TierCache.Proofs.GlobLanguage
import TierCache.Proofs.MemoryAccounting
import TierCache.Proofs.RecencyMap
import TierCache.Proofs.MemoryRefinement
import TierCache.Proofs.Interleaving
import TierCache.Proofs.WarmingFrame
import TierCache.Proofs.WarmingBooks
import TierCache.Proofs.WarmingInterleaved
import TierCache.Proofs.BreakerRun
import TierCache.Proofs.CacheCalls
import TierCache.Proofs.IssuedValues
import TierCache.Proofs.ReadProvenance
import TierCache.Proofs.MirroredTier
import TierCache.Proofs.FlushedTier
import TierCache.Proofs.FrameRoundTrip
import TierCache.Proofs.CacheTraffic
import TierCache.Proofs.CacheCounters
import TierCache.Proofs.ChangeFeed
import TierCache.Proofs.GhostState
import TierCache.Proofs.MarkerKeys
import TierCache.Proofs.DependencyOrder
import TierCache.Proofs.OverlappingCalls
import TierCache.Proofs.UnbuildableSettings
import TierCache.Proofs.WriteBehindBooks
import TierCache.Proofs.ServiceFrame
import TierCache.Proofs.ServiceShutdown
import TierCache.Proofs.AmidOthers
import TierCache.Proofs.BufferedRuns
import TierCache.Proofs.WriteVisibility
import TierCache.Proofs.ExpiredEntries
import TierCache.Proofs.EligibilityGates
import TierCache.Proofs.PriorityDispatch
import TierCache.Proofs.LiteralPatterns
import TierCache.Proofs.RepeatedInvalidation
import TierCache.Proofs.AccessHistory
import TierCache.Proofs.GlobTermination
import TierCache.Proofs.PredictorTraining
import TierCache.Proofs.UserWarming
import TierCache.Proofs.AnalysisPass
