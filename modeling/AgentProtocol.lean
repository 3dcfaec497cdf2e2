import AgentProtocol.Cluster.Convergence
import AgentProtocol.Cluster.Suppression
import AgentProtocol.Cluster.Retention
import AgentProtocol.Cluster.Collection
import AgentProtocol.Cluster.Interleaving
import AgentProtocol.Cluster.Handshake
import AgentProtocol.Cluster.Scope
import AgentProtocol.Cluster.Rollback
import AgentProtocol.Cluster.WriteAhead
import AgentProtocol.Cluster.Agreement
import AgentProtocol.Cluster.Readmission
import AgentProtocol.Register.Persistence
import AgentProtocol.Auth.History
import AgentProtocol.A4P.Registration
import AgentProtocol.A4P.CredentialFile
import AgentProtocol.A4P.Received
import AgentProtocol.A4P.Bound
import AgentProtocol.A4P.TokenSafety
import AgentProtocol.Mcp.ClientCalls
import AgentProtocol.Mcp.Connections
import AgentProtocol.Mcp.Responses
import AgentProtocol.Mcp.Dispatch
import AgentProtocol.Mcp.NotifyQueue
import AgentProtocol.Mcp.RequestStream
import AgentProtocol.Router.Fallback
import AgentProtocol.Router.SingleSource
import AgentProtocol.Router.HotSwap
import AgentProtocol.Sdk.Chain
import AgentProtocol.A2A.Timer
import AgentProtocol.A2A.Mirror
import AgentProtocol.A2A.Framing
import AgentProtocol.A2A.SendBuffer
import AgentProtocol.A2X.SearchService
import AgentProtocol.A2X.Resume
import AgentProtocol.Register.Selection
import AgentProtocol.Cluster.Outbound
import AgentProtocol.Cluster.MergeJoin
import AgentProtocol.Cluster.Restoration
import AgentProtocol.Cluster.PersistRace
import AgentProtocol.A2X.Incremental
import AgentProtocol.A2X.ModeSwitch
import AgentProtocol.A2X.BuildJobs
import AgentProtocol.A2X.Partition
import AgentProtocol.Instance.Runtime
import AgentProtocol.Register.Release
import AgentProtocol.Heartbeat.Revoke
import AgentProtocol.Cluster.Listing
import AgentProtocol.Image.VersionOrder
import AgentProtocol.A4P.ScopeMatching
import AgentProtocol.Sdk.Utf8
import AgentProtocol.Sdk.Base64Url
import AgentProtocol.Mcp.StdioReader
import AgentProtocol.Mcp.StdioWriter
import AgentProtocol.Mcp.Pagination
import AgentProtocol.Mcp.Sampling
import AgentProtocol.Router.Chunks
import AgentProtocol.Router.LocalCache
