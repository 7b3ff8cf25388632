import AgentExchange.ControlPlane.Transfers
import AgentExchange.Net.Client

/-!
# Tunnel providers

The five transports that give a local port a public URL. A method takes the provider and
what the steps outside it come to in this call, and gives back its result and the provider
as it leaves it, also where it returns early. The outcome of killing a child is ignored by
the source, and so is that of switching a funnel off; neither appears here.
-/
namespace AgentExchange.Tunnel

open ControlPlane (healthzUrl)

inductive TunnelStatus where
  | disconnected (reason : String)
  | connecting
  | reconnecting (attempt : UInt32)
  | connected (url : String)
  deriving DecidableEq

inductive TunnelError where
  | cloudflaredNotFound (tried : List String)
  | spawn (message : String)
  | urlTimeout (secs : ℕ)
  | channelClosed
  | alreadyRunning
  | other (message : String)
  deriving DecidableEq

/-- The `Debug` form of a list of plain strings. -/
def debugList (xs : List String) : String :=
  "[" ++ ", ".intercalate (xs.map fun x => "\"" ++ x ++ "\"") ++ "]"

def TunnelError.display : TunnelError → String
  | .cloudflaredNotFound tried => "cloudflared binary not found: tried " ++ debugList tried
  | .spawn message => "cloudflared failed to start: " ++ message
  | .urlTimeout secs => "timed out after " ++ toString secs ++ "s waiting for tunnel URL"
  | .channelClosed => "tunnel URL channel closed before URL was observed"
  | .alreadyRunning => "tunnel is already running"
  | .other message => message

/-! ## Steps outside a provider -/

/-- A process id. -/
abbrev Child := ℕ

/-- What the standard error of a child brings within the time allowed. -/
inductive UrlWait where
  | url (url : String)
  | closed
  | expired
  deriving DecidableEq

/-- `Child::try_wait`. -/
inductive TryWait where
  | exited
  | running
  | failed
  deriving DecidableEq

/-- `Command::output`: the exit status and what was written to standard error. -/
structure CommandOutput where
  success : Bool
  status : String
  stderr : String

/-- What the steps of one call come to. -/
structure Outcomes where
  /-- A program, asked for its version with the given argument, can be run. -/
  runs : String → String → Bool := fun _ _ => true
  /-- The same, when the funnel is to be switched off. -/
  runsAtStop : String → String → Bool := fun _ _ => true
  /-- The path of the configuration file. -/
  tempfile : Except String String := .ok "/tmp/.tmp.toml"
  writeConfig : String → String → Except String Unit := fun _ _ => .ok ()
  spawn : String → List String → Except String Child := fun _ _ => .ok 1
  stderr : Bool := true
  url : UrlWait := .expired
  /-- Building the client of the probes. -/
  client : Except String Unit := .ok ()
  /-- The answers to the probes of a URL before the time is over: a status, or none on an error. -/
  probes : String → List (Option ℕ) := fun _ => [some 200]
  output : String → List String → Except String CommandOutput := fun _ _ => .ok ⟨true, "", ""⟩
  tryWait : TryWait := .running
  bind : Except String Unit := .ok ()
  online : Bool := true
  endpointId : String := ""
  relayUrl : Option String := none

def resolveBinary (binaryPath : Option String) (candidatePaths : List String)
    (versionArg : String) (notFound : TunnelError) (runs : String → String → Bool) :
    Except TunnelError String :=
  match binaryPath with
  | some p => .ok p
  | none =>
    match candidatePaths.find? fun path => runs path versionArg with
    | some path => .ok path
    | none => .error notFound

def probeUntilReady (publicUrl : String) (readyTimeout : ℕ) (w : Outcomes) :
    Except TunnelError Unit :=
  match w.client with
  | .error e => .error (.other ("reqwest build: " ++ e))
  | .ok () =>
    if (w.probes (healthzUrl publicUrl)).any fun answer => answer.any Net.isSuccess then .ok ()
    else .error (.urlTimeout readyTimeout)

/-! ## `cloudflared`, with a URL of its own choice -/

structure CloudflareQuickTunnel where
  child : Option Child := none
  publicUrl : Option String := none
  status : TunnelStatus := .disconnected "not started"
  binaryPath : Option String

namespace CloudflareQuickTunnel

/-- `new`, and `with_binary_path` where a path is given. -/
def new (binaryPath : Option String) : CloudflareQuickTunnel where
  binaryPath := binaryPath

def candidatePaths : List String :=
  ["cloudflared", "/opt/homebrew/bin/cloudflared", "/usr/local/bin/cloudflared"]

def isAlive (t : CloudflareQuickTunnel) (w : Outcomes) : Bool × CloudflareQuickTunnel :=
  match t.child with
  | none => (false, t)
  | some _ =>
    match w.tryWait with
    | .exited => (false, { t with status := .disconnected "process exited", publicUrl := none })
    | .running => (true, t)
    | .failed => (false, t)

/-- The first two ways out leave the status as it is, the last two keep the child. -/
def start (t : CloudflareQuickTunnel) (localPort : UInt16) (w : Outcomes) :
    Except TunnelError Unit × CloudflareQuickTunnel :=
  if t.child.isSome then (.error .alreadyRunning, t)
  else
    let t := { t with status := .connecting }
    match resolveBinary t.binaryPath candidatePaths "--version"
      (.cloudflaredNotFound candidatePaths) w.runs with
    | .error e => (.error e, t)
    | .ok binary =>
      match w.spawn binary
        ["tunnel", "--url", "http://127.0.0.1:" ++ toString localPort, "--no-autoupdate"] with
      | .error e => (.error (.spawn e), t)
      | .ok child =>
        if !w.stderr then (.error (.other "cloudflared stderr unavailable"), t)
        else
          let t := { t with child := some child }
          match w.url with
          | .url u => (.ok (), { t with publicUrl := some u, status := .connected u })
          | .closed =>
            (.error .channelClosed, { t with
              status := .disconnected "cloudflared closed stderr without emitting URL" })
          | .expired =>
            (.error (.urlTimeout 30), { t with status := .disconnected "timeout waiting for URL" })

def stop (t : CloudflareQuickTunnel) (_w : Outcomes) :
    Except TunnelError Unit × CloudflareQuickTunnel :=
  (.ok (), { t with child := none, publicUrl := none, status := .disconnected "stopped" })

end CloudflareQuickTunnel

/-! ## `cloudflared`, for a URL configured beforehand -/

structure NamedCloudflareTunnel where
  tunnelToken : String
  publicUrl : String
  binaryPath : Option String
  readyTimeout : ℕ
  child : Option Child := none
  status : TunnelStatus := .disconnected "not started"
  cachedUrl : Option String := none

namespace NamedCloudflareTunnel

def new (tunnelToken publicUrl : String) (binaryPath : Option String) (readyTimeout : ℕ) :
    NamedCloudflareTunnel where
  tunnelToken := tunnelToken
  publicUrl := publicUrl
  binaryPath := binaryPath
  readyTimeout := readyTimeout

def isAlive (t : NamedCloudflareTunnel) (w : Outcomes) : Bool × NamedCloudflareTunnel :=
  match t.child with
  | none => (false, t)
  | some _ =>
    match w.tryWait with
    | .exited => (false, { t with status := .disconnected "process exited", cachedUrl := none })
    | .running => (true, t)
    | .failed => (false, t)

def start (t : NamedCloudflareTunnel) (localPort : UInt16) (w : Outcomes) :
    Except TunnelError Unit × NamedCloudflareTunnel :=
  if t.child.isSome then (.error .alreadyRunning, t)
  else
    let t := { t with status := .connecting }
    match resolveBinary t.binaryPath CloudflareQuickTunnel.candidatePaths "--version"
      (.cloudflaredNotFound CloudflareQuickTunnel.candidatePaths) w.runs with
    | .error e => (.error e, { t with status := .disconnected e.display })
    | .ok binary =>
      match w.spawn binary
        ["tunnel", "--url", "http://127.0.0.1:" ++ toString localPort, "--no-autoupdate", "run",
          "--token", t.tunnelToken] with
      | .error e => (.error (.spawn e), { t with status := .disconnected ("spawn: " ++ e) })
      | .ok child =>
        let t := { t with child := some child }
        match probeUntilReady t.publicUrl t.readyTimeout w with
        | .error e => (.error e, { t with status := .disconnected e.display, child := none })
        | .ok () =>
          (.ok (), { t with cachedUrl := some t.publicUrl, status := .connected t.publicUrl })

def stop (t : NamedCloudflareTunnel) (_w : Outcomes) :
    Except TunnelError Unit × NamedCloudflareTunnel :=
  (.ok (), { t with child := none, cachedUrl := none, status := .disconnected "stopped" })

end NamedCloudflareTunnel

/-! ## Tailscale Funnel -/

structure TailscaleFunnelTunnel where
  publicUrl : String
  binaryPath : Option String
  readyTimeout : ℕ
  status : TunnelStatus := .disconnected "not started"
  active : Bool := false
  cachedUrl : Option String := none

namespace TailscaleFunnelTunnel

def new (publicUrl : String) (binaryPath : Option String) (readyTimeout : ℕ) :
    TailscaleFunnelTunnel where
  publicUrl := publicUrl
  binaryPath := binaryPath
  readyTimeout := readyTimeout

def candidatePaths : List String :=
  ["tailscale", "/opt/homebrew/bin/tailscale", "/usr/local/bin/tailscale",
    "/Applications/Tailscale.app/Contents/MacOS/Tailscale"]

def notFound : TunnelError := .other ("tailscale binary not found; tried " ++ debugList candidatePaths)

/-- The binary is looked for again; where it is not found, the funnel stays on. -/
def stop (t : TailscaleFunnelTunnel) (w : Outcomes) :
    Except TunnelError Unit × TailscaleFunnelTunnel :=
  if !t.active then (.ok (), { t with status := .disconnected "stopped", cachedUrl := none })
  else
    match resolveBinary t.binaryPath candidatePaths "version" notFound w.runsAtStop with
    | .error e => (.error e, t)
    | .ok _ =>
      (.ok (), { t with active := false, cachedUrl := none, status := .disconnected "stopped" })

def start (t : TailscaleFunnelTunnel) (localPort : UInt16) (w : Outcomes) :
    Except TunnelError Unit × TailscaleFunnelTunnel :=
  if t.active then (.error .alreadyRunning, t)
  else
    let t := { t with status := .connecting }
    match resolveBinary t.binaryPath candidatePaths "version" notFound w.runs with
    | .error e => (.error e, { t with status := .disconnected e.display })
    | .ok binary =>
      match w.output binary ["funnel", "--bg", toString localPort] with
      | .error e => (.error (.spawn e), { t with status := .disconnected ("spawn: " ++ e) })
      | .ok output =>
        if !output.success then
          (.error (.other ("tailscale funnel exited " ++ output.status ++ ": " ++ output.stderr)),
            { t with status := .disconnected output.stderr })
        else
          let t := { t with active := true }
          match probeUntilReady t.publicUrl t.readyTimeout w with
          | .error e => (.error e, (t.stop w).2)
          | .ok () =>
            (.ok (), { t with cachedUrl := some t.publicUrl, status := .connected t.publicUrl })

end TailscaleFunnelTunnel

/-! ## FRP -/

structure FrpServer where
  addr : String
  port : UInt16
  token : String
  subdomain : String

structure FrpTunnel where
  server : FrpServer
  publicUrl : String
  binaryPath : Option String
  readyTimeout : ℕ
  child : Option Child := none
  /-- The path of the configuration file. -/
  configFile : Option String := none
  status : TunnelStatus := .disconnected "not started"
  cachedUrl : Option String := none

namespace FrpTunnel

def new (server : FrpServer) (publicUrl : String) (binaryPath : Option String)
    (readyTimeout : ℕ) : FrpTunnel where
  server := server
  publicUrl := publicUrl
  binaryPath := binaryPath
  readyTimeout := readyTimeout

def candidatePaths : List String := ["frpc", "/opt/homebrew/bin/frpc", "/usr/local/bin/frpc"]

def isAlive (t : FrpTunnel) (w : Outcomes) : Bool × FrpTunnel :=
  match t.child with
  | none => (false, t)
  | some _ =>
    match w.tryWait with
    | .exited => (false, { t with status := .disconnected "process exited", cachedUrl := none })
    | .running => (true, t)
    | .failed => (false, t)

def renderConfig (t : FrpTunnel) (localPort : UInt16) : String :=
  "serverAddr = \"" ++ t.server.addr ++ "\"\n" ++
    "serverPort = " ++ toString t.server.port ++ "\n" ++
    "auth.token = \"" ++ t.server.token ++ "\"\n\n" ++
    "[[proxies]]\n" ++
    "name = \"aex-" ++ t.server.subdomain ++ "\"\n" ++
    "type = \"http\"\n" ++
    "localIP = \"127.0.0.1\"\n" ++
    "localPort = " ++ toString localPort ++ "\n" ++
    "subdomain = \"" ++ t.server.subdomain ++ "\"\n"

def start (t : FrpTunnel) (localPort : UInt16) (w : Outcomes) :
    Except TunnelError Unit × FrpTunnel :=
  if t.child.isSome then (.error .alreadyRunning, t)
  else
    let t := { t with status := .connecting }
    match resolveBinary t.binaryPath candidatePaths "--version"
      (.other ("frpc binary not found; tried " ++ debugList candidatePaths)) w.runs with
    | .error e => (.error e, { t with status := .disconnected e.display })
    | .ok binary =>
      match w.tempfile with
      | .error e => (.error (.spawn e), { t with status := .disconnected ("tempfile: " ++ e) })
      | .ok path =>
        match w.writeConfig path (t.renderConfig localPort) with
        | .error e => (.error (.spawn e), { t with status := .disconnected ("config write: " ++ e) })
        | .ok () =>
          match w.spawn binary ["-c", path] with
          | .error e => (.error (.spawn e), { t with status := .disconnected ("spawn: " ++ e) })
          | .ok child =>
            let t := { t with child := some child, configFile := some path }
            match probeUntilReady t.publicUrl t.readyTimeout w with
            | .error e =>
              (.error e, { t with
                status := .disconnected e.display, child := none, configFile := none })
            | .ok () =>
              (.ok (), { t with cachedUrl := some t.publicUrl, status := .connected t.publicUrl })

def stop (t : FrpTunnel) (_w : Outcomes) : Except TunnelError Unit × FrpTunnel :=
  (.ok (), { t with
    child := none, configFile := none, cachedUrl := none, status := .disconnected "stopped" })

end FrpTunnel

/-! ## Iroh -/

structure IrohTunnel where
  /-- The id of the endpoint that is bound. -/
  endpoint : Option String := none
  publicUrl : Option String := none
  status : TunnelStatus := .disconnected "not started"
  onlineTimeout : ℕ

namespace IrohTunnel

def new (onlineTimeout : ℕ) : IrohTunnel where
  onlineTimeout := onlineTimeout

def start (t : IrohTunnel) (_localPort : UInt16) (w : Outcomes) :
    Except TunnelError Unit × IrohTunnel :=
  if t.endpoint.isSome then (.error .alreadyRunning, t)
  else
    let t := { t with status := .connecting }
    match w.bind with
    | .error e =>
      (.error (.other ("iroh bind failed: " ++ e)),
        { t with status := .disconnected ("iroh bind failed: " ++ e) })
    | .ok () =>
      if !w.online then
        let reason := "timeout after " ++ toString t.onlineTimeout ++ "s waiting for iroh relay"
        (.error (.urlTimeout t.onlineTimeout), { t with status := .disconnected reason })
      else
        let relaySegment := (w.relayUrl.map fun u => "@" ++ u).getD ""
        let url := "iroh:" ++ w.endpointId ++ relaySegment
        (.ok (), { t with
          publicUrl := some url, status := .connected url, endpoint := some w.endpointId })

def stop (t : IrohTunnel) (_w : Outcomes) : Except TunnelError Unit × IrohTunnel :=
  (.ok (), { t with endpoint := none, publicUrl := none, status := .disconnected "stopped" })

end IrohTunnel

end AgentExchange.Tunnel
