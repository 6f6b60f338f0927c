import TabBoard.Auth.Claims
import TabBoard.Auth.Error
import TabBoard.Auth.Extract
import TabBoard.Auth.Subject
import TabBoard.Auth.Token
import TabBoard.Board.Action
import TabBoard.Board.Basic
import TabBoard.Catalog
import TabBoard.Cluster.Client
import TabBoard.Cluster.Deployment
import TabBoard.Cluster.Discovery
import TabBoard.Cluster.Error
import TabBoard.Cluster.Rollout
import TabBoard.Cluster.Watch
import TabBoard.CommandLine
import TabBoard.Config.Basic
import TabBoard.Config.EnvFile
import TabBoard.Config.Load
import TabBoard.Config.Names
import TabBoard.Config.Validate
import TabBoard.Crypto.Base64
import TabBoard.Crypto.Der
import TabBoard.Crypto.Rsa
import TabBoard.Crypto.Sha256
import TabBoard.Decimal.Binary64
import TabBoard.Decimal.Natural
import TabBoard.Delivery.EventStream
import TabBoard.Delivery.Fanout
import TabBoard.Delivery.Gateway
import TabBoard.Delivery.Observers
import TabBoard.Delivery.Registry
import TabBoard.Delivery.Store
import TabBoard.Duration
import TabBoard.Files.Basic
import TabBoard.Files.Tree
import TabBoard.Form
import TabBoard.Http.Callback
import TabBoard.Http.Error
import TabBoard.Http.MediaType
import TabBoard.Http.Message
import TabBoard.Http.Route
import TabBoard.Json.Basic
import TabBoard.Json.Decode
import TabBoard.Json.Printer
import TabBoard.Json.Reader
import TabBoard.Main
import TabBoard.Metrics
import TabBoard.Moment
import TabBoard.Restart.Bell
import TabBoard.Restart.Error
import TabBoard.Restart.Script
import TabBoard.Restart.WatchGuard
import TabBoard.Restart.Worker
import TabBoard.Settings
import TabBoard.Shutdown
import TabBoard.Simulation.Basic
import TabBoard.Simulation.Calls
import TabBoard.Simulation.Scene
import TabBoard.Startup.Log
import TabBoard.Startup.Program
import TabBoard.Startup.Session
import TabBoard.Startup.Wiring
import TabBoard.Status
import TabBoard.Tab
import TabBoard.Table
import TabBoard.Text.Blank
import TabBoard.Text.CaseTables
import TabBoard.Text.LowerCase
import TabBoard.Text.Percent
import TabBoard.Text.Utf8
import TabBoard.Toml.Basic
import TabBoard.Toml.Reader
import TabBoard.Toml.Scalar
import TabBoard.Url.Basic
import TabBoard.Url.Host
import TabBoard.Url.Parser
import TabBoard.Url.Punycode
import TabBoard.Proofs.Registry
import TabBoard.Proofs.Identity
import TabBoard.Proofs.Restart.Timeline
import TabBoard.Proofs.Rollout
import TabBoard.Proofs.Restart.Calls
import TabBoard.Proofs.Restart.Exclusion
import TabBoard.Proofs.Restart.History
import TabBoard.Proofs.Restart.Outcome
import TabBoard.Proofs.Restart.Deadline
import TabBoard.Proofs.Restart.Release
import TabBoard.Proofs.Lines
import TabBoard.Proofs.Delivery.Queue
import TabBoard.Proofs.Delivery.Coverage
import TabBoard.Proofs.Delivery.Convergence
import TabBoard.Proofs.Delivery.Arrival
import TabBoard.Proofs.Delivery.Dispatch
import TabBoard.Proofs.Delivery.Schedules
import TabBoard.Proofs.Fanout
import TabBoard.Proofs.Delivery.Streams
import TabBoard.Proofs.Delivery.Broadcast
import TabBoard.Proofs.Moves
import TabBoard.Proofs.Restart.Draining
import TabBoard.Proofs.Agents
import TabBoard.Proofs.Http.Restart
import TabBoard.Proofs.Http.Callback
import TabBoard.Proofs.Delivery.Closing
import TabBoard.Proofs.Delivery.Frames
import TabBoard.Proofs.Http.Subjects
import TabBoard.Proofs.Tokens
import TabBoard.Proofs.Base64
import TabBoard.Proofs.Verdicts
import TabBoard.Proofs.Offers
import TabBoard.Proofs.Genuine
import TabBoard.Proofs.Utf8
import TabBoard.Proofs.Percent
import TabBoard.Proofs.Url
import TabBoard.Proofs.Targets
import TabBoard.Proofs.Watches
import TabBoard.Proofs.Json.Grammar
import TabBoard.Proofs.Json.Printing
import TabBoard.Proofs.EventSource
import TabBoard.Proofs.Wire
import TabBoard.Proofs.Json.Variants
import TabBoard.Proofs.WatchLines
import TabBoard.Proofs.Queries
import TabBoard.Proofs.Http.RequestId
import TabBoard.Proofs.Cookies
import TabBoard.Proofs.Observers
import TabBoard.Proofs.Catalog
import TabBoard.Proofs.Secrets
import TabBoard.Proofs.Overlay
import TabBoard.Proofs.ApiServer
import TabBoard.Proofs.Noninterference
import TabBoard.Proofs.Delivery.Subscriptions
import TabBoard.Proofs.Delivery.Pruning
import TabBoard.Proofs.Shutdown
