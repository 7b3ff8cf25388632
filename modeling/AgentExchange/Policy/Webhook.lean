import AgentExchange.Library.Execution
import AgentExchange.Net.Post

/-!
# Decisions by webhook

`webhook.rs`: a sink that posts a decision request to the URL of its configuration. The host is
checked once, by a lookup of its own; the attempts that follow go through a client with the
defaults of `reqwest`.
-/
namespace AgentExchange

open Library Net

/-! ## Hosts as the standard library reads them -/

/-- `Ipv4Addr::from_str`. -/
def Net.Ipv4Addr.fromStr (s : List Char) : Option Ipv4Addr :=
  match (s.splitOn '.').mapM Whatwg.decimalByte with
  | some [a, b, c, d] => some ⟨UInt8.ofNat a, UInt8.ofNat b, UInt8.ofNat c, UInt8.ofNat d⟩
  | _ => none

/-- `Ipv6Addr::from_str`, which reads the form that URLs have between brackets. -/
def Net.Ipv6Addr.fromStr (s : List Char) : Option Ipv6Addr :=
  match (Whatwg.parseIpv6 s).map (·.map UInt16.ofNat) with
  | some [s0, s1, s2, s3, s4, s5, s6, s7] => some ⟨s0, s1, s2, s3, s4, s5, s6, s7⟩
  | _ => none

/-- `IpAddr::from_str`. -/
def Net.IpAddr.fromStr (s : String) : Option IpAddr :=
  match Ipv4Addr.fromStr s.toList with
  | some ip => some (.v4 ip)
  | none => (Ipv6Addr.fromStr s.toList).map .v6

theorem Net.Ipv4Addr.fromStr_ipv4Text (ip : Ipv4Addr) :
    Ipv4Addr.fromStr (Whatwg.ipv4Text ip.toNat) = some ip := by
  have hbytes : Whatwg.addressBytes ip.toNat =
      [ip.a.toNat, ip.b.toNat, ip.c.toNat, ip.d.toNat] := by
    have ha := ip.a.toNat_lt
    have hb := ip.b.toNat_lt
    have hc := ip.c.toNat_lt
    have hd := ip.d.toNat_lt
    simp only [Whatwg.addressBytes, Ipv4Addr.toNat, List.cons.injEq, and_true]
    omega
  have hread : ((Whatwg.addressBytes ip.toNat).map fun byte => Nat.toDigits 10 byte).mapM
      Whatwg.decimalByte = some (Whatwg.addressBytes ip.toNat) :=
    Whatwg.mapM_toDigits Whatwg.decimalByte_toDigits fun byte => Whatwg.lt_of_mem_addressBytes
  rw [Ipv4Addr.fromStr, Whatwg.splitOn_ipv4Text, hread, hbytes]
  simp

/-- A host in dotted decimal form is read as its address. -/
theorem Net.IpAddr.fromStr_ipv4Text (ip : Ipv4Addr) :
    IpAddr.fromStr (String.ofList (Whatwg.ipv4Text ip.toNat)) = some (.v4 ip) := by
  rw [IpAddr.fromStr, String.toList_ofList, Ipv4Addr.fromStr_ipv4Text]

/-! ## The sink -/

structure DecisionRequest where
  decisionId : String
  transferId : String
  senderAgentId : String
  recipientAgentId : String
  declaredMime : String
  filename : String
  sizeBytes : UInt64
  summary : String

def DecisionRequest.toJson (request : DecisionRequest) : Json :=
  .obj [("decision_id", .str request.decisionId), ("transfer_id", .str request.transferId),
    ("sender_agent_id", .str request.senderAgentId),
    ("recipient_agent_id", .str request.recipientAgentId),
    ("declared_mime", .str request.declaredMime), ("filename", .str request.filename),
    ("size_bytes", .num (.ofUInt64 request.sizeBytes)), ("summary", .str request.summary)]

inductive DecisionSinkError where
  | rejected (message : String)
  | timeout
  | infra (message : String)
  deriving DecidableEq

namespace Webhook

open Program (lift okOr ensure performLeft)

structure WebhookConfig where
  url : String
  bearerToken : Option String := none
  timeoutSecs : UInt64 := 10
  maxRetries : UInt8 := 3
  allowInternalTargets : Bool := false

inductive WebhookSinkError where
  | invalidUrl (message : String)
  | internalTarget
  | httpStatus (status : UInt16)
  | transport (message : String)
  deriving DecidableEq

def WebhookSinkError.text : WebhookSinkError → String
  | .invalidUrl message => "invalid webhook URL: " ++ message
  | .internalTarget =>
    "webhook URL resolves to internal address (set allow_internal_targets to override)"
  | .httpStatus status => "webhook returned HTTP " ++ toString status.toNat
  | .transport message => "webhook transport error after retries: " ++ message

inductive Op where
  /-- The lookup of `to_socket_addrs`. -/
  | resolve (host : String)
  | sleep (ms : UInt64)

abbrev Op.Answer : Op → Type
  | .resolve _ => Except String (List IpAddr)
  | .sleep _ => Unit

/-- The operations of the sink, beside those of its client. -/
abbrev ownEffects : Signature := ⟨Op, Op.Answer⟩

abbrev effects : Signature := ownEffects.sum Post.effects

structure WebhookDecisionSink where
  client : ClientConfig
  config : WebhookConfig

def clientConfig (config : WebhookConfig) : ClientConfig where
  timeoutMs := config.timeoutSecs.toNat * 1000
  userAgent := "aex-policy/" ++ version ++ " webhook-decision-sink"

def WebhookDecisionSink.new (crates : Post.Crates) (config : WebhookConfig) :
    Except WebhookSinkError WebhookDecisionSink := do
  let url ← (crates.parse config.url).mapError .invalidUrl
  if url.scheme ≠ "https" then
    .error (.invalidUrl ("scheme must be https, got '" ++ url.scheme ++ "'"))
  else
    (crates.build (clientConfig config)).mapError .transport
    pure ⟨clientConfig config, config⟩

/-- `to_socket_addrs` of the host and port 0. -/
def toSocketAddrs {ε : Type} (host : String) : Program effects ε (Except String (List IpAddr)) :=
  match IpAddr.fromStr host with
  | some ip => pure (.ok [ip])
  | none => performLeft (S := ownEffects) (T := Post.effects) (.resolve host)

def checkHost (config : WebhookConfig) (url : Url) : Program effects WebhookSinkError Unit :=
  if config.allowInternalTargets then pure ()
  else do
    let host ← okOr url.hostStr (.invalidUrl "URL has no host")
    match ← toSocketAddrs host with
    | .error _ => pure ()
    | .ok resolved => ensure (resolved.any isForbiddenIp = false) .internalTarget

def isRetriable (status : ℕ) : Bool :=
  status = 408 || status = 425 || status = 429 || (500 ≤ status && status ≤ 599)

def backoffMs (attempts : ℕ) : UInt64 := UInt64.ofNat (250 * 2 ^ min attempts 5)

/-- The loop, with so many attempts left after the next one. -/
def attemptLoop (crates : Post.Crates) (client : ClientConfig) (request : Post.Request) (max : ℕ)
    (left : ℕ) : Program effects DecisionSinkError Unit := do
  let attempts := max - left
  let received ← (crates.post client request).attempt
  match received with
  | .ok response =>
    if isSuccess response.status then pure ()
    else
      match left with
      | 0 => .fail (.infra ("webhook returned " ++ toString response.status ++ " after " ++
          toString attempts ++ " attempts"))
      | left + 1 =>
        if isRetriable response.status then do
          performLeft (S := ownEffects) (T := Post.effects) (.sleep (backoffMs attempts))
          attemptLoop crates client request max left
        else .fail (.infra ("webhook returned " ++ toString response.status ++ " after " ++
          toString attempts ++ " attempts"))
  | .error e =>
    match left with
    | 0 => .fail (.infra ("webhook transport failed after " ++ toString attempts ++
        " attempts: " ++ e))
    | left + 1 => do
      performLeft (S := ownEffects) (T := Post.effects) (.sleep (backoffMs attempts))
      attemptLoop crates client request max left

def WebhookDecisionSink.submit (crates : Post.Crates) (sink : WebhookDecisionSink)
    (request : DecisionRequest) : Program effects DecisionSinkError Unit := do
  let url ← lift ((crates.parse sink.config.url).mapError fun e => .infra ("invalid url: " ++ e))
  (checkHost sink.config url).mapError fun e => .infra e.text
  let max := Nat.max sink.config.maxRetries.toNat 1
  attemptLoop crates sink.client ⟨url, sink.config.bearerToken, some request.toJson⟩ max (max - 1)

/-! ## Where the requests go -/

/-- The host is no address of a forbidden block. -/
def LiteralAllowed (url : Url) : Prop := ∀ ip, url.literal = some ip → isForbiddenIp ip = false

/-- A token is for a URL with https only. -/
def TokenSafe (request : Post.Request) : Prop :=
  request.bearer ≠ none → request.url.scheme = "https"

/-- No connection to a forbidden address, and no token to a URL without https. -/
def Guarded : effects.Op → Prop
  | .inr (.connect addr) => isForbiddenIp addr.ip = false
  | .inr (.exchange request) => TokenSafe request
  | _ => True

/-- The answer leads the client neither to a forbidden address nor, with the token, to a URL
without https. -/
def Harmless : Event Post.effects → Prop
  | ⟨.lookupIp _, .ok ips⟩ => ∀ ip ∈ ips, isForbiddenIp ip = false
  | ⟨.exchange request, .ok response⟩ => ∀ next, response.location = some next →
      LiteralAllowed next ∧ TokenSafe (request.redirected response.status next)
  | _ => True

/-- An operation after answers that are all harmless is guarded. -/
def GuardedAfter (past : List (Event effects)) (op : effects.Op) : Prop :=
  (∀ e : Event Post.effects, e.inr ∈ past → Harmless e) → Guarded op

section Submit

variable {crates : Post.Crates} {config : WebhookConfig} {client : ClientConfig}
  {past : List (Event effects)} {own : List (Event Post.effects)}

theorem requested_safe {request r : Post.Request} (hr : Post.Requested client request own r)
    (hliteral : LiteralAllowed request.url) (htoken : TokenSafe request)
    (hown : ∀ e ∈ own, Harmless e) : LiteralAllowed r.url ∧ TokenSafe r := by
  induction hr with
  | given => exact ⟨hliteral, htoken⟩
  | redirected _ _ hmem hlocation _ => exact hown _ hmem _ hlocation

theorem documented_guarded {request : Post.Request} {op : Post.Op}
    (hop : crates.Documented client request own op)
    (hliteral : LiteralAllowed request.url) (htoken : TokenSafe request)
    (hproxies : ∀ addr ∈ crates.proxies, isForbiddenIp addr.ip = false)
    (hown : ∀ e ∈ own, Harmless e) : Guarded (.inr op) := by
  cases op with
  | lookupIp host => trivial
  | connect addr =>
    rcases hop with ⟨r, hr, hdestination⟩ | ⟨-, hproxy⟩
    · have hsafe := (requested_safe hr hliteral htoken hown).1
      unfold Post.Destination at hdestination
      split at hdestination
      · rename_i ip hip
        rw [Guarded, hdestination]
        exact hsafe ip hip
      · obtain ⟨host, ips, -, hlookup, haddr⟩ := hdestination
        exact hown _ hlookup _ haddr
    · exact hproxies addr hproxy
  | exchange r => exact (requested_safe hop hliteral htoken hown).2

/-- One attempt is guarded, whatever the earlier ones were answered. -/
theorem attempt_guarded (h : crates.Honours) (hclient : client.pins = [])
    {request : Post.Request} (hliteral : LiteralAllowed request.url) (htoken : TokenSafe request)
    (hproxies : ∀ addr ∈ crates.proxies, isForbiddenIp addr.ip = false) :
    ((crates.post client request).attempt : Program effects DecisionSinkError _).Spec GuardedAfter
      (fun _ result => ∃ received, result = .ok received) past := by
  have hpost := (h.post client request hclient).attempt (S := ownEffects)
    (ζ := DecisionSinkError) past
  rw [List.map_nil, List.append_nil] at hpost
  apply hpost.mono
  · rintro past' op ⟨own, top, rfl, rfl, htop⟩ hharmless
    apply documented_guarded htop hliteral htoken hproxies
    intro e he
    exact hharmless e (List.mem_append_right _ (List.mem_map_of_mem he))
  · rintro past' result ⟨own, received, -, rfl, -⟩
    exact ⟨received, rfl⟩

theorem attemptLoop_guarded (h : crates.Honours) (hclient : client.pins = [])
    {request : Post.Request} (hliteral : LiteralAllowed request.url) (htoken : TokenSafe request)
    (hproxies : ∀ addr ∈ crates.proxies, isForbiddenIp addr.ip = false) (max left : ℕ) :
    (attemptLoop crates client request max left).Spec GuardedAfter (fun _ _ => True) past := by
  induction left generalizing past with
  | zero =>
    unfold attemptLoop
    apply Program.spec_bind.mpr
    apply (attempt_guarded h hclient hliteral htoken hproxies).mono fun _ _ h => h
    rintro past' _ ⟨received, rfl⟩
    cases received with
    | ok response =>
      dsimp only
      split_ifs <;> trivial
    | error e => trivial
  | succ left ih =>
    unfold attemptLoop
    apply Program.spec_bind.mpr
    apply (attempt_guarded h hclient hliteral htoken hproxies).mono fun _ _ h => h
    rintro past' _ ⟨received, rfl⟩
    cases received with
    | ok response =>
      dsimp only
      split_ifs with hsuccess hretriable
      · trivial
      · exact ⟨fun _ => trivial, fun _ => ih⟩
      · trivial
    | error e => exact ⟨fun _ => trivial, fun _ => ih⟩

/-- The check lets no IPv4 host of a forbidden block pass. -/
theorem checkHost_spec (h : crates.Honours) {text : String} {url : Url}
    (hparse : crates.parse text = .ok url) (hinternal : config.allowInternalTargets = false) :
    (checkHost config url).Spec GuardedAfter (fun _ result => result = .ok () →
      ∀ ip, url.literal = some (.v4 ip) → isForbiddenIp (.v4 ip) = false) past := by
  unfold checkHost
  rw [if_neg (by simp [hinternal])]
  apply Program.spec_okOr_bind.mpr
  refine ⟨fun host hhost => ?_, fun _ => by simp⟩
  unfold toSocketAddrs
  split
  · rename_i ip hip
    apply Program.spec_ensure.mpr
    constructor
    · intro hallowed _ v4 hv4
      have hv4host := h.host text url v4 hparse hv4
      rw [hhost, Option.some.injEq] at hv4host
      rw [hv4host, IpAddr.fromStr_ipv4Text] at hip
      cases hip
      simpa using hallowed
    · intro _ hok
      cases hok
  · rename_i hnone
    -- a host that is looked up is no IPv4 address
    have hnot : ∀ ip, url.literal = some (.v4 ip) → isForbiddenIp (.v4 ip) = false := by
      intro v4 hv4
      have hv4host := h.host text url v4 hparse hv4
      rw [hhost, Option.some.injEq] at hv4host
      rw [hv4host, IpAddr.fromStr_ipv4Text] at hnone
      cases hnone
    refine ⟨fun _ => trivial, fun answer => ?_⟩
    cases answer with
    | error e => exact fun _ => hnot
    | ok resolved => exact Program.spec_ensure.mpr ⟨fun _ _ => hnot, fun _ _ => hnot⟩

/-- A sink that is built has a URL with https, and the defaults of the client. -/
theorem of_new {sink : WebhookDecisionSink}
    (hnew : WebhookDecisionSink.new crates config = .ok sink) :
    (∃ url, crates.parse config.url = .ok url ∧ url.scheme = "https") ∧
      sink = ⟨clientConfig config, config⟩ := by
  unfold WebhookDecisionSink.new at hnew
  cases hparse : crates.parse config.url with
  | error e =>
    rw [hparse] at hnew
    cases hnew
  | ok url =>
    rw [hparse] at hnew
    change (if url.scheme ≠ "https" then _ else _) = _ at hnew
    split_ifs at hnew with hscheme
    cases hbuild : crates.build (clientConfig config) with
    | error e =>
      rw [hbuild] at hnew
      cases hnew
    | ok _ =>
      rw [hbuild] at hnew
      cases hnew
      exact ⟨⟨url, rfl, not_not.mp hscheme⟩, rfl⟩

theorem submit_guarded (h : crates.Honours) {sink : WebhookDecisionSink}
    (hnew : WebhookDecisionSink.new crates config = .ok sink)
    (hinternal : config.allowInternalTargets = false)
    (hhost : ∀ url ip, crates.parse config.url = .ok url → url.literal = some (.v6 ip) →
      isForbiddenIp (.v6 ip) = false)
    (hproxies : ∀ addr ∈ crates.proxies, isForbiddenIp addr.ip = false)
    (request : DecisionRequest) :
    (sink.submit crates request).Spec GuardedAfter (fun _ _ => True) [] := by
  obtain ⟨⟨url, hparse, hscheme⟩, rfl⟩ := of_new hnew
  unfold WebhookDecisionSink.submit
  apply Program.spec_lift_bind.mpr
  refine ⟨fun url' hurl' => ?_, fun _ _ => trivial⟩
  obtain rfl : url = url' := by
    rw [except_mapError_eq_ok, hparse] at hurl'
    exact Except.ok.inj hurl'
  apply Program.spec_bind.mpr
  apply Program.spec_mapError.mpr
  apply (checkHost_spec h hparse hinternal).mono fun _ _ h => h
  intro past result hresult
  cases result with
  | error e => trivial
  | ok _ =>
    apply attemptLoop_guarded h rfl _ (fun _ => hscheme) hproxies
    intro ip hip
    cases ip with
    | v4 ip => exact hresult rfl ip hip
    | v6 ip => exact hhost url ip hparse hip

end Submit

/-- Where the host of the configuration is no forbidden IPv6 address and no proxy is at one, each
operation of a submission is guarded as long as the answers before it were harmless. -/
theorem webhook_contained {crates : Post.Crates} (h : crates.Honours) {config : WebhookConfig}
    {sink : WebhookDecisionSink} (hnew : WebhookDecisionSink.new crates config = .ok sink)
    (hinternal : config.allowInternalTargets = false)
    (hhost : ∀ url ip, crates.parse config.url = .ok url → url.literal = some (.v6 ip) →
      isForbiddenIp (.v6 ip) = false)
    (hproxies : ∀ addr ∈ crates.proxies, isForbiddenIp addr.ip = false)
    {request : DecisionRequest} {events : List (Event effects)}
    {rest : Program effects DecisionSinkError Unit}
    (hruns : Program.Runs (sink.submit crates request) events rest) :
    ∀ before e after, events = before ++ e :: after →
      (∀ e' : Event Post.effects, e'.inr ∈ before → Harmless e') → Guarded e.op :=
  hruns.pre_of_mem (submit_guarded h hnew hinternal hhost hproxies request)

/-! ## Two submissions

One to a name, which is accepted at the third attempt, and one to an address in brackets, which
the resolver does not know as a name. -/
namespace Sample

def named : Url where
  text := "https://hooks.acme.com/decide"
  scheme := "https"
  hostStr := some "hooks.acme.com"
  literal := none
  portOrKnownDefault := some 443

def loopback : IpAddr := .v6 ⟨0, 0, 0, 0, 0, 0, 0, 1⟩

def bracketed : Url where
  text := "https://[::1]/decide"
  scheme := "https"
  hostStr := some "[::1]"
  literal := some loopback
  portOrKnownDefault := some 443

/-- The same host and port without https. -/
def plain : Url where
  text := "http://[::1]:443/decide"
  scheme := "http"
  hostStr := some "[::1]"
  literal := some loopback
  portOrKnownDefault := some 443

def crates : Post.Crates :=
  Post.plainCrates fun s =>
    if s = named.text then .ok named
    else if s = bracketed.text then .ok bracketed
    else .error "relative URL without a base"

def config (url : Url) : WebhookConfig where
  url := url.text
  bearerToken := some "secret"

def request : DecisionRequest where
  decisionId := "dec_001"
  transferId := "tx_abc"
  senderAgentId := "did:web:a.com#a"
  recipientAgentId := "did:web:b.com#b"
  declaredMime := "application/pdf"
  filename := "x.pdf"
  sizeBytes := 1024
  summary := "Q3 invoice"

def posted (url : Url) : Post.Request := ⟨url, some "secret", some request.toJson⟩

def address : IpAddr := .v4 ⟨203, 0, 113, 7⟩

/-- Requests are redirected, or refused until the third. -/
def respond (next : Option Url) (requests : ℕ) (r : Post.Request) : Response :=
  match next with
  | some u =>
    if r.url = u then { status := 202, statusText := "202 Accepted" }
    else { status := 307, statusText := "307 Temporary Redirect", location := some u }
  | none =>
    if requests < 2 then { status := 503, statusText := "503 Service Unavailable" }
    else { status := 202, statusText := "202 Accepted" }

/-- A network that knows the name, and counts the requests. -/
def network (next : Option Url) (requests : ℕ) :
    (op : effects.Op) → Unit → effects.Answer op × ℕ
  | .inl (.resolve host), _ =>
    (if host = "hooks.acme.com" then .ok [address] else .error "Name or service not known",
      requests)
  | .inl (.sleep _), _ => ((), requests)
  | .inr (.lookupIp _), _ => (.ok [address], requests)
  | .inr (.connect _), _ => (.ok (), requests)
  | .inr (.exchange r), _ => (.ok (respond next requests r), requests + 1)

def sink (url : Url) : WebhookDecisionSink := ⟨clientConfig (config url), config url⟩

def submission (next : Option Url) (url : Url) : Execution effects ℕ DecisionSinkError Unit :=
  ((sink url).submit crates request).execute (network next) (fun _ => ()) 0

theorem crates_honours : crates.Honours := by
  apply Post.plainCrates_honours
  intro text url ip hparse hliteral
  split_ifs at hparse
  · cases hparse
    cases hliteral
  · cases hparse
    cases hliteral

theorem harmless_of_mem {url : Url} {e : Event Post.effects}
    (he : e.inr ∈ (submission none url).events) : Harmless e := by
  obtain ⟨requests, _, hanswer⟩ := Program.answer_of_mem_execute he
  obtain ⟨op, answer⟩ := e
  have hop : answer = (network none requests (.inr op) ()).1 := hanswer
  cases op with
  | lookupIp host =>
    rw [hop]
    intro ip hip
    rw [List.mem_singleton.mp hip]
    decide
  | connect addr => trivial
  | exchange r =>
    rw [hop]
    intro next hnext
    simp only [respond] at hnext
    split_ifs at hnext

end Sample

theorem webhook_contained_named :
    (Sample.submission none Sample.named).outcome = .ok () ∧
      (Sample.submission none Sample.named).events.length = 12 ∧
      ∀ e ∈ (Sample.submission none Sample.named).events, Guarded e.op := by
  have houtcome : (Sample.submission none Sample.named).outcome = .ok () := by
    unfold Sample.submission WebhookDecisionSink.submit attemptLoop attemptLoop attemptLoop
    rfl
  have hlength : (Sample.submission none Sample.named).events.length = 12 := by
    unfold Sample.submission WebhookDecisionSink.submit attemptLoop attemptLoop attemptLoop
    rfl
  refine ⟨houtcome, hlength, fun e he => ?_⟩
  obtain ⟨rest, hruns, -⟩ : ∃ rest, Program.Runs
      ((Sample.sink Sample.named).submit Sample.crates Sample.request)
      (Sample.submission none Sample.named).events rest ∧ _ := Program.runs_execute
  obtain ⟨before, after, hevents⟩ := List.append_of_mem he
  have hnew : WebhookDecisionSink.new Sample.crates (Sample.config Sample.named) =
    .ok (Sample.sink Sample.named) := rfl
  apply webhook_contained Sample.crates_honours hnew rfl _ _ hruns before e after hevents
  · intro e' he'
    apply Sample.harmless_of_mem
    rw [hevents]
    exact List.mem_append_left _ he'
  · rintro url ip hparse hip
    cases hparse
    cases hip
  · rintro addr ⟨⟩

/-- The host in brackets passes the check, and the redirect takes the token along. -/
theorem webhook_reaches_loopback :
    Sample.crates.Honours ∧
      (Sample.config Sample.bracketed).allowInternalTargets = false ∧
      WebhookDecisionSink.new Sample.crates (Sample.config Sample.bracketed) =
        .ok (Sample.sink Sample.bracketed) ∧
      (∃ rest, Program.Runs
        ((Sample.sink Sample.bracketed).submit Sample.crates Sample.request)
        (Sample.submission (some Sample.plain) Sample.bracketed).events rest) ∧
      (Sample.submission (some Sample.plain) Sample.bracketed).events.map Event.op =
        [.inl (.resolve "[::1]"), .inr (.connect ⟨Sample.loopback, 443⟩),
          .inr (.exchange (Sample.posted Sample.bracketed)),
          .inr (.connect ⟨Sample.loopback, 443⟩),
          .inr (.exchange (Sample.posted Sample.plain))] ∧
      ¬Guarded (.inr (.connect ⟨Sample.loopback, 443⟩)) ∧
      ¬Guarded (.inr (.exchange (Sample.posted Sample.plain))) := by
  have hevents : (Sample.submission (some Sample.plain) Sample.bracketed).events.map Event.op =
      [.inl (.resolve "[::1]"), .inr (.connect ⟨Sample.loopback, 443⟩),
        .inr (.exchange (Sample.posted Sample.bracketed)),
        .inr (.connect ⟨Sample.loopback, 443⟩),
        .inr (.exchange (Sample.posted Sample.plain))] := by
    unfold Sample.submission WebhookDecisionSink.submit attemptLoop
    rfl
  obtain ⟨rest, hruns, -⟩ : ∃ rest, Program.Runs
      ((Sample.sink Sample.bracketed).submit Sample.crates Sample.request)
      (Sample.submission (some Sample.plain) Sample.bracketed).events rest ∧ _ :=
    Program.runs_execute
  have hconnect : ¬Guarded (.inr (.connect ⟨Sample.loopback, 443⟩)) := by
    intro hguarded
    cases hguarded
  have htoken : ¬Guarded (.inr (.exchange (Sample.posted Sample.plain))) := by
    intro hguarded
    have hscheme : Sample.plain.scheme = "https" := hguarded (by simp [Sample.posted])
    exact absurd hscheme (by decide)
  exact ⟨Sample.crates_honours, rfl, rfl, ⟨rest, hruns⟩, hevents, hconnect, htoken⟩

end Webhook

end AgentExchange
