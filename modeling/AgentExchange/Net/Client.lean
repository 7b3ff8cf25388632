import AgentExchange.Core.Text
import AgentExchange.Library.Expansion
import AgentExchange.Net.Ip

/-!
# HTTP clients

What a component can see and do on the network: DNS lookups, connections, and requests
over them. The `url` crate and `reqwest` are parameters; `Crates.Honours` states which
connections and requests `reqwest` documents for a client of a given configuration. A
time-out or a cut connection is an error answer.
-/
namespace AgentExchange.Net

open Library

structure SocketAddr where
  ip : IpAddr
  port : UInt16
  deriving DecidableEq

/-- What is read of a parsed `Url`. -/
structure Url where
  /-- `as_str` -/
  text : String
  scheme : String
  /-- `host_str` -/
  hostStr : Option String
  /-- The address, where the host is an IP literal. -/
  literal : Option IpAddr
  /-- `port_or_known_default` -/
  portOrKnownDefault : Option UInt16
  deriving DecidableEq

/-- A response: its head, the chunks of its body, and the error that ended them, if one did. -/
structure Response where
  status : ℕ
  statusText : String
  etag : Option String := none
  /-- The URL a redirect leads to. -/
  location : Option Url := none
  chunks : List Bytes := []
  broken : Option String := none

inductive Op where
  | lookupIp (host : String)
  | connect (addr : SocketAddr)
  | exchange (url : Url)
  /-- The caller's time-out, with the milliseconds that have passed. -/
  | expired

abbrev Op.Answer : Op → Type
  | .lookupIp _ => Except String (List IpAddr)
  | .connect _ => Except String Unit
  | .exchange _ => Except String Response
  | .expired => Option UInt64

abbrev effects : Signature := ⟨Op, Op.Answer⟩

abbrev ask {ε : Type} (op : Op) : Program effects ε op.Answer := Program.call (S := effects) op

/-- `StatusCode::is_success`. -/
def isSuccess (status : ℕ) : Bool := 200 ≤ status && status < 300

/-- `StatusCode::is_redirection`. -/
def isRedirection (status : ℕ) : Bool := 300 ≤ status && status < 400

/-- `reqwest::redirect::Policy`. -/
inductive Policy where
  | none
  | limited (max : ℕ)
  deriving DecidableEq

/-- `reqwest::ClientBuilder`; the defaults are those of `Client::builder`. -/
structure ClientConfig where
  timeoutMs : ℕ
  userAgent : String
  redirect : Policy := .limited 10
  /-- Proxies named by the environment are used. -/
  proxy : Bool := true
  /-- `resolve`: addresses fixed for a host. -/
  pins : List (String × SocketAddr) := []

/-- `url` and `reqwest`, in the environment of the process. -/
structure Crates where
  /-- `Url::parse` -/
  parse : String → Except String Url
  /-- `ClientBuilder::build` -/
  build : ClientConfig → Except String Unit
  /-- `Client::get(..).send()` -/
  send : ClientConfig → Url → Program effects String Response
  /-- The proxies the environment names. -/
  proxies : List SocketAddr

def version : String := "1.3.0-beta.4"

def userAgent (componentName : String) : String := "aex-" ++ componentName ++ "/" ++ version

/-- `build_http_client_with_timeout`. -/
def clientWithTimeout (componentName : String) (timeoutMs : ℕ) : ClientConfig where
  timeoutMs := timeoutMs
  userAgent := userAgent componentName

/-- The URLs a client requests: the given one, and those it was redirected to. -/
def Requested (config : ClientConfig) (url : Url) (own : List (Event effects)) (u : Url) : Prop :=
  u = url ∨ config.redirect ≠ .none ∧ ∃ v response,
    (⟨.exchange v, .ok response⟩ : Event effects) ∈ own ∧ response.location = some u

/-- The addresses a client connects to for a URL: the one fixed for its host, else the host itself
where it is a literal, else an address a lookup of the host gave. -/
def Destination (config : ClientConfig) (u : Url) (own : List (Event effects))
    (addr : SocketAddr) : Prop :=
  match u.hostStr.bind fun host => config.pins.lookup host with
  | some pinned => addr = pinned
  | none =>
    match u.literal with
    | some ip => addr.ip = ip
    | none => ∃ host ips, u.hostStr = some host ∧
        (⟨.lookupIp host, .ok ips⟩ : Event effects) ∈ own ∧ addr.ip ∈ ips

/-- What `reqwest` documents of the operations of `send`. -/
def Crates.Documented (crates : Crates) (config : ClientConfig) (url : Url)
    (own : List (Event effects)) : Op → Prop
  | .lookupIp host => ∃ u, Requested config url own u ∧ u.hostStr = some host
  | .connect addr => (∃ u, Requested config url own u ∧ Destination config u own addr) ∨
      config.proxy = true ∧ addr ∈ crates.proxies
  | .exchange u => Requested config url own u
  | .expired => False

/-- The response is one received for a URL that was to be requested. -/
def Received (config : ClientConfig) (url : Url) (own : List (Event effects))
    (result : Except String Response) : Prop :=
  ∀ response, result = .ok response → ∃ u, Requested config url own u ∧
    (⟨.exchange u, .ok response⟩ : Event effects) ∈ own

/-- `reqwest` does what it documents, and returns a response it has received. -/
def Crates.Honours (crates : Crates) : Prop :=
  ∀ config url, (crates.send config url).Spec (crates.Documented config url)
    (Received config url) []

/-! ## A plain client

A client that does just what is documented: one lookup, one connection and one request for each
URL, up to the number of redirects allowed. -/

open Program (lift okOr)

/-- The address to connect to. -/
def findAddress (config : ClientConfig) (u : Url) : Program effects String SocketAddr :=
  match u.hostStr.bind fun host => config.pins.lookup host with
  | some pinned => pure pinned
  | none =>
    match u.literal with
    | some ip => pure ⟨ip, u.portOrKnownDefault.getD 443⟩
    | none => do
      let host ← okOr u.hostStr "URL has no host"
      let answer ← ask (.lookupIp host)
      let ips ← lift answer
      let ip ← okOr ips.head? "no address"
      pure ⟨ip, u.portOrKnownDefault.getD 443⟩

/-- One request, without looking where its response leads. -/
def fetchOnce (config : ClientConfig) (u : Url) : Program effects String Response := do
  let addr ← findAddress config u
  let connected ← ask (.connect addr)
  lift connected
  let received ← ask (.exchange u)
  lift received

/-- One request, and the redirects that are left to follow. -/
def follow (config : ClientConfig) : ℕ → Url → Program effects String Response
  | 0, u => fetchOnce config u
  | hops + 1, u => do
    let response ← fetchOnce config u
    match response.location with
    | some next => follow config hops next
    | none => pure response

/-- The crates with the plain client, for URLs that are parsed as given. -/
def plainCrates (parse : String → Except String Url) : Crates where
  parse := parse
  build _ := .ok ()
  send config url :=
    match config.redirect with
    | .none => follow config 0 url
    | .limited max => follow config max url
  proxies := []

section Plain

variable {parse : String → Except String Url} {config : ClientConfig} {url u : Url}
  {own : List (Event effects)}

theorem Requested.mono {more : List (Event effects)} (h : Requested config url own u) :
    Requested config url (own ++ more) u := by
  rcases h with rfl | ⟨hpolicy, v, response, hmem, hlocation⟩
  · exact Or.inl rfl
  · exact Or.inr ⟨hpolicy, v, response, List.mem_append_left _ hmem, hlocation⟩

theorem findAddress_spec (hu : Requested config url own u) :
    (findAddress config u).Spec ((plainCrates parse).Documented config url)
      (fun own' r => (∃ more, own' = own ++ more) ∧
        ∀ addr, r = .ok addr → Destination config u own' addr) own := by
  unfold findAddress
  split
  · rename_i pinned hpinned
    refine ⟨⟨[], by simp⟩, ?_⟩
    rintro addr ⟨⟩
    simp [Destination, hpinned]
  · rename_i hpinned
    split
    · rename_i ip hliteral
      refine ⟨⟨[], by simp⟩, ?_⟩
      rintro addr ⟨⟩
      simp [Destination, hpinned, hliteral]
    · rename_i hliteral
      have hstay {e : String} : ∀ addr : SocketAddr, Except.error e = .ok addr →
          Destination config u own addr := by
        intro addr h
        cases h
      refine Program.spec_okOr_bind.mpr ⟨fun host hhost => ?_, fun _ => ⟨⟨[], by simp⟩, hstay⟩⟩
      refine Program.spec_call_bind.mpr ⟨⟨u, hu, hhost⟩, fun answer => ?_⟩
      refine Program.spec_lift_bind.mpr ⟨fun ips hips => ?_, fun e _ => ⟨⟨_, rfl⟩, by simp⟩⟩
      refine Program.spec_okOr_bind.mpr ⟨fun ip hip => ?_, fun _ => ⟨⟨_, rfl⟩, by simp⟩⟩
      refine ⟨⟨_, rfl⟩, ?_⟩
      rintro addr ⟨⟩
      simp only [Destination, hpinned, hliteral]
      exact ⟨host, ips, hhost, by simp [hips], List.mem_of_mem_head? hip⟩

theorem fetchOnce_spec (hu : Requested config url own u) :
    (fetchOnce config u).Spec ((plainCrates parse).Documented config url)
      (fun own' result => Requested config url own' u ∧ ∀ response, result = .ok response →
        (⟨.exchange u, .ok response⟩ : Event effects) ∈ own') own := by
  unfold fetchOnce
  apply Program.spec_bind.mpr
  apply (findAddress_spec hu).mono fun _ _ h => h
  rintro own' result ⟨⟨more, rfl⟩, hdestination⟩
  cases result with
  | error e => exact ⟨hu.mono, by simp⟩
  | ok addr =>
    refine Program.spec_call_bind.mpr ⟨Or.inl ⟨u, hu.mono, hdestination addr rfl⟩, ?_⟩
    intro connected
    refine Program.spec_lift_bind.mpr ⟨fun _ _ => ?_, fun e _ => ⟨hu.mono.mono, by simp⟩⟩
    refine Program.spec_call_bind.mpr ⟨hu.mono.mono, fun received => ?_⟩
    apply Program.spec_lift.mpr
    exact ⟨hu.mono.mono.mono, fun response hresponse => by simp [hresponse]⟩

theorem follow_spec (hops : ℕ) (hpolicy : hops ≠ 0 → config.redirect ≠ .none)
    (hu : Requested config url own u) :
    (follow config hops u).Spec ((plainCrates parse).Documented config url)
      (Received config url) own := by
  induction hops generalizing u own with
  | zero =>
    apply (fetchOnce_spec hu).mono fun _ _ h => h
    intro own' result h response hresponse
    exact ⟨u, h.1, h.2 response hresponse⟩
  | succ hops ih =>
    unfold follow
    apply Program.spec_bind.mpr
    apply (fetchOnce_spec hu).mono fun _ _ h => h
    intro own' result h
    cases result with
    | error e => simp [Received]
    | ok response =>
      cases hlocation : response.location with
      | none =>
        simp only [hlocation]
        rintro _ ⟨⟩
        exact ⟨u, h.1, h.2 response rfl⟩
      | some next =>
        simp only [hlocation]
        apply ih fun _ => hpolicy (by simp)
        exact Or.inr ⟨hpolicy (by simp), u, response, h.2 response rfl, hlocation⟩

/-- The plain client does no more than is documented. -/
theorem plainCrates_honours : (plainCrates parse).Honours := by
  intro config url
  have hurl : Requested config url [] url := Or.inl rfl
  change (match config.redirect with
    | .none => follow config 0 url
    | .limited max => follow config max url).Spec _ (Received config url) []
  cases hpolicy : config.redirect with
  | none => exact follow_spec 0 (fun h => absurd rfl h) hurl
  | limited max => exact follow_spec max (fun _ => by simp [hpolicy]) hurl

end Plain

end AgentExchange.Net
