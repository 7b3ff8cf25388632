import AgentExchange.Core.Json
import AgentExchange.Library.Host
import AgentExchange.Net.Client

/-!
# POST requests

A client that posts a body, with a bearer token or without one. A redirect leads it to another
request: the token goes along to the same host and port, and the body where the method is kept.
The client is a parameter; `Crates.Honours` states what it is documented to do.
-/
namespace AgentExchange.Net.Post

open Library

/-- A request as it leaves. -/
structure Request where
  url : Url
  /-- `bearer_auth` -/
  bearer : Option String
  /-- `json` -/
  body : Option Json

/-- The hosts are the same for `remove_sensitive_headers`. -/
def sameHost (previous next : Url) : Bool :=
  previous.hostStr = next.hostStr && previous.portOrKnownDefault = next.portOrKnownDefault

/-- The request a redirect leads to. -/
def Request.redirected (previous : Request) (status : ℕ) (next : Url) : Request where
  url := next
  bearer := if sameHost previous.url next then previous.bearer else none
  body := if status = 307 ∨ status = 308 then previous.body else none

inductive Op where
  | lookupIp (host : String)
  | connect (addr : SocketAddr)
  | exchange (request : Request)

abbrev Op.Answer : Op → Type
  | .lookupIp _ => Except String (List IpAddr)
  | .connect _ => Except String Unit
  | .exchange _ => Except String Response

abbrev effects : Signature := ⟨Op, Op.Answer⟩

abbrev ask {ε : Type} (op : Op) : Program effects ε op.Answer := Program.call (S := effects) op

/-- `url` and `reqwest`, in the environment of the process. -/
structure Crates extends Net.Crates where
  /-- `Client::post(..).send()` -/
  post : ClientConfig → Request → Program effects String Response

/-- The requests a client sends: the given one, and those it was redirected to. -/
inductive Requested (config : ClientConfig) (request : Request) (own : List (Event effects)) :
    Request → Prop
  | given : Requested config request own request
  | redirected {previous response next} : config.redirect ≠ .none →
      Requested config request own previous →
      (⟨.exchange previous, .ok response⟩ : Event effects) ∈ own →
      response.location = some next →
      Requested config request own (previous.redirected response.status next)

/-- The addresses a client connects to for a URL: the host itself where it is a literal, else
an address a lookup of the host gave. -/
def Destination (u : Url) (own : List (Event effects)) (addr : SocketAddr) : Prop :=
  match u.literal with
  | some ip => addr.ip = ip
  | none => ∃ host ips, u.hostStr = some host ∧
      (⟨.lookupIp host, .ok ips⟩ : Event effects) ∈ own ∧ addr.ip ∈ ips

/-- What `reqwest` documents of the operations of `send`, for a client without fixed addresses. -/
def Crates.Documented (crates : Crates) (config : ClientConfig) (request : Request)
    (own : List (Event effects)) : Op → Prop
  | .lookupIp host => ∃ r, Requested config request own r ∧ r.url.hostStr = some host
  | .connect addr => (∃ r, Requested config request own r ∧ Destination r.url own addr) ∨
      config.proxy = true ∧ addr ∈ crates.proxies
  | .exchange r => Requested config request own r

/-- `reqwest` does what it documents, and `url` writes an IPv4 host in dotted decimal form. -/
structure Crates.Honours (crates : Crates) : Prop where
  post : ∀ config request, config.pins = [] →
    (crates.post config request).Spec (crates.Documented config request) (fun _ _ => True) []
  host : ∀ text url ip, crates.parse text = .ok url → url.literal = some (.v4 ip) →
    url.hostStr = some (String.ofList (Whatwg.ipv4Text ip.toNat))

theorem Requested.mono {config : ClientConfig} {request r : Request}
    {own more : List (Event effects)} (h : Requested config request own r) :
    Requested config request (own ++ more) r := by
  induction h with
  | given => exact .given
  | redirected hpolicy _ hmem hlocation ih =>
    exact .redirected hpolicy ih (List.mem_append_left _ hmem) hlocation

/-! ## A plain client

One lookup, one connection and one request for each URL, up to the number of redirects allowed. -/

open Program (lift okOr)

/-- The address to connect to. -/
def findAddress (u : Url) : Program effects String SocketAddr :=
  match u.literal with
  | some ip => pure ⟨ip, u.portOrKnownDefault.getD 443⟩
  | none => do
    let host ← okOr u.hostStr "URL has no host"
    let answer ← ask (.lookupIp host)
    let ips ← lift answer
    let ip ← okOr ips.head? "no address"
    pure ⟨ip, u.portOrKnownDefault.getD 443⟩

/-- One request, without looking where its response leads. -/
def sendOnce (r : Request) : Program effects String Response := do
  let addr ← findAddress r.url
  let connected ← ask (.connect addr)
  lift connected
  let received ← ask (.exchange r)
  lift received

/-- One request, and the redirects that are left to follow. -/
def follow : ℕ → Request → Program effects String Response
  | 0, r => sendOnce r
  | hops + 1, r => do
    let response ← sendOnce r
    match response.location with
    | some next => follow hops (r.redirected response.status next)
    | none => pure response

/-- The crates with the plain client, for URLs that are parsed as given. -/
def plainCrates (parse : String → Except String Url) : Crates where
  toCrates := Net.plainCrates parse
  post config request :=
    match config.redirect with
    | .none => follow 0 request
    | .limited max => follow max request

section Plain

variable {parse : String → Except String Url} {config : ClientConfig} {request r : Request}
  {own : List (Event effects)}

theorem findAddress_spec (hr : Requested config request own r) :
    (findAddress r.url).Spec ((plainCrates parse).Documented config request)
      (fun own' result => (∃ more, own' = own ++ more) ∧
        ∀ addr, result = .ok addr → Destination r.url own' addr) own := by
  have hfailed {e : String} (more : List (Event effects)) :
      (∃ more', own ++ more = own ++ more') ∧
        ∀ addr, (Except.error e : Except String SocketAddr) = .ok addr →
          Destination r.url (own ++ more) addr :=
    ⟨⟨more, rfl⟩, fun addr h => by cases h⟩
  unfold findAddress
  split
  · rename_i ip hliteral
    constructor
    · exact ⟨[], (List.append_nil own).symm⟩
    · intro addr haddr
      cases haddr
      simp [Destination, hliteral]
  · rename_i hliteral
    apply Program.spec_okOr_bind.mpr
    constructor
    · intro host hhost
      apply Program.spec_call_bind.mpr
      constructor
      · exact ⟨r, hr, hhost⟩
      · intro answer
        apply Program.spec_lift_bind.mpr
        constructor
        · intro ips hips
          apply Program.spec_okOr_bind.mpr
          constructor
          · intro ip hip
            constructor
            · exact ⟨_, rfl⟩
            · intro addr haddr
              cases haddr
              simp only [Destination, hliteral]
              exact ⟨host, ips, hhost, by simp [hips], List.mem_of_mem_head? hip⟩
          · exact fun _ => hfailed _
        · exact fun e _ => hfailed _
    · intro _
      simp

theorem sendOnce_spec (hr : Requested config request own r) :
    (sendOnce r).Spec ((plainCrates parse).Documented config request)
      (fun own' result => Requested config request own' r ∧ ∀ response, result = .ok response →
        (⟨.exchange r, .ok response⟩ : Event effects) ∈ own') own := by
  unfold sendOnce
  apply Program.spec_bind.mpr
  apply (findAddress_spec hr).mono fun _ _ h => h
  intro own' result hresult
  obtain ⟨⟨more, rfl⟩, hdestination⟩ := hresult
  cases result with
  | error e => exact ⟨hr.mono, by simp⟩
  | ok addr =>
    apply Program.spec_call_bind.mpr
    constructor
    · exact Or.inl ⟨r, hr.mono, hdestination addr rfl⟩
    · intro connected
      apply Program.spec_lift_bind.mpr
      constructor
      · intro _ _
        apply Program.spec_call_bind.mpr
        constructor
        · exact hr.mono.mono
        · intro received
          apply Program.spec_lift.mpr
          exact ⟨hr.mono.mono.mono, fun response hresponse => by simp [hresponse]⟩
      · exact fun e _ => ⟨hr.mono.mono, by simp⟩

theorem follow_spec (hops : ℕ) (hpolicy : hops ≠ 0 → config.redirect ≠ .none)
    (hr : Requested config request own r) :
    (follow hops r).Spec ((plainCrates parse).Documented config request) (fun _ _ => True) own := by
  induction hops generalizing r own with
  | zero =>
    apply (sendOnce_spec hr).mono fun _ _ h => h
    intros
    trivial
  | succ hops ih =>
    unfold follow
    apply Program.spec_bind.mpr
    apply (sendOnce_spec hr).mono fun _ _ h => h
    intro own' result h
    cases result with
    | error e => trivial
    | ok response =>
      cases hlocation : response.location with
      | none =>
        simp only [hlocation]
        trivial
      | some next =>
        simp only [hlocation]
        apply ih fun _ => hpolicy (by simp)
        exact .redirected (hpolicy (by simp)) h.1 (h.2 response rfl) hlocation

/-- The plain client does no more than is documented. -/
theorem plainCrates_honours (hhost : ∀ text url ip, parse text = .ok url →
    url.literal = some (.v4 ip) → url.hostStr = some (String.ofList (Whatwg.ipv4Text ip.toNat))) :
    (plainCrates parse).Honours := by
  constructor
  · intro config request _
    change (match config.redirect with
      | .none => follow 0 request
      | .limited max => follow max request).Spec _ _ []
    cases hpolicy : config.redirect with
    | none => exact follow_spec 0 (fun h => absurd rfl h) .given
    | limited max => exact follow_spec max (fun _ => by simp [hpolicy]) .given
  · exact hhost

end Plain

end AgentExchange.Net.Post
