import AgentExchange.Core.Types

/-!
# Endpoints and their health

A transfer carries a list of endpoints under which the sender's data plane can be
reached. The health block is a debouncer over probe outcomes: three failures in a
row flip an endpoint to unhealthy, two successes in a row flip it back.
-/
namespace AgentExchange

inductive HealthStatus where
  | healthy
  | unhealthy
  deriving DecidableEq, Repr

structure EndpointHealth where
  status : HealthStatus
  consecutiveFails : UInt8
  consecutiveSuccesses : UInt8
  lastProbeUnix : Option Int64
  deriving DecidableEq

namespace EndpointHealth

def failThreshold : UInt8 := 3
def successThreshold : UInt8 := 2

def saturatingSucc (n : UInt8) : UInt8 := if n = 255 then 255 else n + 1

def freshHealthy (nowUnix : Int64) : EndpointHealth :=
  ⟨.healthy, 0, 0, some nowUnix⟩

def onProbeSuccess (h : EndpointHealth) (nowUnix : Int64) : EndpointHealth :=
  let successes := saturatingSucc h.consecutiveSuccesses
  let (status, successes) :=
    if h.status = .unhealthy ∧ successThreshold ≤ successes then (.healthy, 0)
    else (h.status, successes)
  let successes :=
    if status = .healthy ∧ successThreshold < successes then successThreshold else successes
  ⟨status, 0, successes, some nowUnix⟩

def onProbeFailure (h : EndpointHealth) (nowUnix : Int64) : EndpointHealth :=
  let fails := saturatingSucc h.consecutiveFails
  let (status, fails) :=
    if h.status = .healthy ∧ failThreshold ≤ fails then (.unhealthy, 0) else (h.status, fails)
  let fails := if status = .unhealthy ∧ failThreshold < fails then failThreshold else fails
  ⟨status, fails, 0, some nowUnix⟩

end EndpointHealth

structure Endpoint where
  kind : String
  url : String
  priority : Int32 := 0
  healthHintUnix : Option Int64 := none
  health : Option EndpointHealth := none
  deriving DecidableEq

namespace Endpoint

def kindCloudflareQuick : String := "cloudflare_quick"
def kindCloudflareNamed : String := "cloudflare_named"
def kindIroh : String := "iroh"
def kindTailscaleFunnel : String := "tailscale_funnel"
def kindFrp : String := "frp"

end Endpoint

end AgentExchange
