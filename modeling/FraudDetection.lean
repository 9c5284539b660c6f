import FraudDetection.Floats.Rounding
import FraudDetection.Floats.Binary
import FraudDetection.Async.Interleaving
import FraudDetection.Async.Pool
import FraudDetection.Async.Sum
import FraudDetection.Async.Gather
import FraudDetection.Store.SortedSet
import FraudDetection.Store.Accumulator
import FraudDetection.Store.Edges
import FraudDetection.Store.Members
import FraudDetection.Store.Iteration
import FraudDetection.Python.CompactJson
import FraudDetection.Python.Compare
import FraudDetection.Kafka.OffsetCommit
import FraudDetection.Kafka.Runs
import FraudDetection.Kafka.Replay
import FraudDetection.Kafka.Redelivery
import FraudDetection.Kafka.RoundTrip
import FraudDetection.Kafka.ExactlyOnce
import FraudDetection.Kafka.PoisonPill
import FraudDetection.Kafka.Instances
import FraudDetection.Kafka.Groups
import FraudDetection.Kafka.PublishRetry
import FraudDetection.Redis.VelocityCounter
import FraudDetection.Redis.DistributedLock
import FraudDetection.Redis.LockHolder
import FraudDetection.Redis.LockExclusion
import FraudDetection.Ingestion.CreateTransaction
import FraudDetection.Stream.Aggregator
import FraudDetection.Stream.WindowCount
import FraudDetection.Stream.Sessions
import FraudDetection.Stream.EventShape
import FraudDetection.Stream.Redelivery
import FraudDetection.Stream.Nesting
import FraudDetection.Stream.Thresholds
import FraudDetection.Stream.WindowMax
import FraudDetection.Rules.CheckVelocity
import FraudDetection.Rules.CounterExpiry
import FraudDetection.Rules.Evaluator
import FraudDetection.Rules.Footprint
import FraudDetection.Rules.Order
import FraudDetection.Rules.Fold
import FraudDetection.Rules.Additions
import FraudDetection.Rules.Catalogue
import FraudDetection.Rules.FalseAlarms
import FraudDetection.Rules.Fields
import FraudDetection.Rules.RuleCache
import FraudDetection.Rules.LoadedService
import FraudDetection.Graph.AnalyzeGraph
import FraudDetection.Graph.Neo4j
import FraudDetection.Graph.Calls
import FraudDetection.Graph.Queries
import FraudDetection.MlScoring.ModelEngine
import FraudDetection.Orchestrator.Scoring
import FraudDetection.Orchestrator.Consume
import FraudDetection.Orchestrator.Isolation
import FraudDetection.Orchestrator.FailSecure
import FraudDetection.Orchestrator.ScoreRange
import FraudDetection.Orchestrator.RuleContext
import FraudDetection.Orchestrator.GraphEvidence
import FraudDetection.Orchestrator.Kpis
import FraudDetection.Orchestrator.Engines
import FraudDetection.Orchestrator.Pipeline
import FraudDetection.Orchestrator.Gather
import FraudDetection.Alerts.ConsumeAlerts
import FraudDetection.Alerts.ConsumeCases
import FraudDetection.Cases.Endpoints
import FraudDetection.Cases.Integrity
import FraudDetection.Cases.Updates
import FraudDetection.Notifications.Dispatch
import FraudDetection.Notifications.Settles
import FraudDetection.Notifications.Suppression
import FraudDetection.Notifications.Concurrency
import FraudDetection.Notifications.Redelivery
import FraudDetection.Profile.Velocity
import FraudDetection.Profile.LiveStream
import FraudDetection.Profile.Dashboard
import FraudDetection.Gateway.RateLimiter
import FraudDetection.Gateway.RateLimit
import FraudDetection.Gateway.RetryAfter
import FraudDetection.Gateway.Metrics
import FraudDetection.Gateway.Broadcast
import FraudDetection.Gateway.Auth
import FraudDetection.Gateway.ClientId
import FraudDetection.Gateway.LiveFeed
import FraudDetection.Gateway.Page
import FraudDetection.Dashboard.LivePage
import FraudDetection.Database.SanitiseDsn
import FraudDetection.Database.Manager
import FraudDetection.Database.Sessions
