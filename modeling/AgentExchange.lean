import AgentExchange.Audit.Anchoring
import AgentExchange.Audit.Integrity
import AgentExchange.Audit.Verification
import AgentExchange.Bridge.Delegation
import AgentExchange.ControlPlane.Admission
import AgentExchange.ControlPlane.AgentCard
import AgentExchange.ControlPlane.AuditOrder
import AgentExchange.ControlPlane.ContentDeny
import AgentExchange.ControlPlane.Directory
import AgentExchange.ControlPlane.Interference
import AgentExchange.ControlPlane.LegacyUrl
import AgentExchange.ControlPlane.MonitorCoverage
import AgentExchange.ControlPlane.ProbeSafety
import AgentExchange.ControlPlane.Retention
import AgentExchange.ControlPlane.SingleUse
import AgentExchange.ControlPlane.SizeFidelity
import AgentExchange.ControlPlane.StoredHealth
import AgentExchange.Core.CanonicalJson
import AgentExchange.Core.Capability
import AgentExchange.Core.WireMessages
import AgentExchange.DataPlane.FirstWrite
import AgentExchange.DataPlane.Panics
import AgentExchange.DataPlane.Scanning
import AgentExchange.DataPlane.Tickets
import AgentExchange.Identity.Binding
import AgentExchange.Identity.CacheBound
import AgentExchange.Identity.CacheIntegrity
import AgentExchange.Identity.DidKey
import AgentExchange.Identity.Freshness
import AgentExchange.Identity.JwsSigning
import AgentExchange.Identity.WellKnownUrl
import AgentExchange.Library.Base64
import AgentExchange.Library.Execution
import AgentExchange.Mcp.Fence
import AgentExchange.Mcp.IdentitySafety
import AgentExchange.Net.SafeHttp
import AgentExchange.Policy.Webhook
import AgentExchange.Sdk.Captive
import AgentExchange.Sdk.HexCodecs
import AgentExchange.Sdk.NativeIds
import AgentExchange.Sdk.Rotation
import AgentExchange.Sdk.SignedBytes
import AgentExchange.Service.ApiKeys
import AgentExchange.Service.Availability
import AgentExchange.Service.Observations
import AgentExchange.Service.SigningKey
import AgentExchange.Tunnel.FrpConfig
import AgentExchange.Tunnel.Orchestrator
import AgentExchange.Tunnel.Recovery
import AgentExchange.Tunnel.UrlParser
