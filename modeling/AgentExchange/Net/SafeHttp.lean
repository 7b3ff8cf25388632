import AgentExchange.Library.Execution
import AgentExchange.Net.Client

/-!
# SSRF-resistant fetching

`safe_get`: the scheme is checked, the host is resolved once, every address of the answer
is classified, and the client is built with the first of them fixed, without redirects
and without a proxy. The body is read chunk by chunk up to a cap.
-/
namespace AgentExchange.Net

open Library
open Program (lift ensure okOr)

def safeHttpTimeoutMs : ℕ := 5000
def safeHttpMaxBody : ℕ := 64 * 1024

inductive SafeHttpError where
  | invalidUrl (message : String)
  | nonHttpsScheme (scheme : String)
  | missingHost
  | dnsFailure (message : String)
  | internalAddrForbidden (ip : IpAddr)
  | unexpectedRedirect (status : ℕ)
  | httpStatus (status : ℕ)
  | bodyTooLarge
  | transport (message : String)
  deriving DecidableEq

structure SafeHttpResponse where
  status : ℕ
  body : Bytes
  etag : Option String

abbrev Fetch := Program effects SafeHttpError

def IpAddr.isV6 : IpAddr → Bool
  | .v4 _ => false
  | .v6 _ => true

/-- The addresses of a host, IPv4 first; there is at least one. -/
def resolveHost (host : String) : Fetch {ips : List IpAddr // ips ≠ []} := do
  let lookup ← ask (.lookupIp host)
  let ips ← lift (lookup.mapError .dnsFailure)
  if h : ips = [] then .fail (.dnsFailure ("no A/AAAA records for " ++ host))
  else pure ⟨ips.insertionSort fun a b => a.isV6 ≤ b.isV6, by
    simpa [← List.length_eq_zero_iff] using h⟩

/-- The loop over the resolved addresses. -/
def rejectInternal : List IpAddr → Except SafeHttpError Unit
  | [] => .ok ()
  | ip :: rest => if isForbiddenIp ip then .error (.internalAddrForbidden ip) else rejectInternal rest

/-- The client for one fetch, with the address of the host fixed. -/
def safeClient (componentName host : String) (addr : SocketAddr) : ClientConfig where
  timeoutMs := safeHttpTimeoutMs
  userAgent := userAgent componentName
  redirect := .none
  proxy := false
  pins := [(host, addr)]

/-- The loop over the chunks that are left. -/
def readBody (broken : Option String) : Bytes → List Bytes → Except SafeHttpError Bytes
  | body, [] =>
    match broken with
    | some e => .error (.transport e)
    | none => .ok body
  | body, chunk :: rest =>
    if safeHttpMaxBody < body.length + chunk.length then .error .bodyTooLarge
    else readBody broken (body ++ chunk) rest

def safeGet (crates : Crates) (url componentName : String) : Fetch SafeHttpResponse := do
  let parsed ← lift ((crates.parse url).mapError .invalidUrl)
  ensure (parsed.scheme = "https") (.nonHttpsScheme parsed.scheme)
  let host ← okOr parsed.hostStr .missingHost
  let port := parsed.portOrKnownDefault.getD 443
  let ips ← resolveHost host
  lift (rejectInternal ips)
  let addr : SocketAddr := ⟨ips.1.head ips.2, port⟩
  let client := safeClient componentName host addr
  lift ((crates.build client).mapError .transport)
  let response ← (crates.send client parsed).mapError .transport
  ensure (isRedirection response.status = false) (.unexpectedRedirect response.status)
  ensure (isSuccess response.status = true) (.httpStatus response.status)
  let body ← lift (readBody response.broken [] response.chunks)
  pure ⟨response.status, body, response.etag⟩

theorem rejectInternal_eq_ok {ips : List IpAddr} :
    rejectInternal ips = .ok () ↔ ∀ ip ∈ ips, isForbiddenIp ip = false := by
  induction ips with
  | nil => simp [rejectInternal]
  | cons ip rest ih =>
    unfold rejectInternal
    cases hip : isForbiddenIp ip <;> simp [hip, ih]

/-- The whole body is read, or nothing of it is returned. -/
theorem readBody_eq_ok {broken : Option String} {body out : Bytes} {chunks : List Bytes}
    (hbody : body.length ≤ safeHttpMaxBody) :
    readBody broken body chunks = .ok out ↔
      broken = none ∧ out = body ++ chunks.flatten ∧ out.length ≤ safeHttpMaxBody := by
  induction chunks generalizing body with
  | nil =>
    cases broken with
    | none =>
      simp only [readBody, List.flatten_nil, List.append_nil, true_and, Except.ok.injEq]
      constructor
      · rintro rfl
        exact ⟨rfl, hbody⟩
      · rintro ⟨rfl, -⟩
        rfl
    | some e => simp [readBody]
  | cons chunk rest ih =>
    unfold readBody
    split_ifs with hcap
    · simp only [false_iff, not_and, not_le]
      rintro - rfl
      simp only [List.length_append, List.flatten_cons]
      omega
    · rw [ih (by simp only [List.length_append]; omega), List.append_assoc, List.flatten_cons]

/-- What a fetch of the URL may do: connect to an address of an answer for its host, none of which
is forbidden, and request nothing but the URL itself. -/
def Permitted (crates : Crates) (url : String) (past : List (Event effects)) : Op → Prop
  | .connect addr => ∃ parsed host ips, crates.parse url = .ok parsed ∧ parsed.scheme = "https" ∧
      parsed.hostStr = some host ∧ (⟨.lookupIp host, .ok ips⟩ : Event effects) ∈ past ∧
      (∀ ip ∈ ips, isForbiddenIp ip = false) ∧ addr.ip ∈ ips
  | .exchange u => crates.parse url = .ok u
  | _ => True

/-- What is returned is a 2xx response of the URL, with its whole body within the cap. -/
def Delivered (crates : Crates) (url : String) (past : List (Event effects))
    (result : Except SafeHttpError SafeHttpResponse) : Prop :=
  ∀ out, result = .ok out → (200 ≤ out.status ∧ out.status < 300) ∧
    ∃ u response, crates.parse url = .ok u ∧
      (⟨.exchange u, .ok response⟩ : Event effects) ∈ past ∧ response.status = out.status ∧
      response.broken = none ∧ out.body = response.chunks.flatten ∧
      out.body.length ≤ safeHttpMaxBody

section Fetch

variable {crates : Crates} {url : String} {past : List (Event effects)} {α : Type}
  {post : List (Event effects) → Except SafeHttpError α → Prop}

theorem spec_resolveHost_bind {host : String} {f : {ips : List IpAddr // ips ≠ []} → Fetch α}
    (herr : ∀ past e, post past (.error e))
    (hok : ∀ answer ips, (∀ ip, ip ∈ ips.1 ↔ ip ∈ answer) →
      (f ips).Spec (Permitted crates url) post (past ++ [⟨.lookupIp host, .ok answer⟩])) :
    (resolveHost host >>= f).Spec (Permitted crates url) post past := by
  apply Program.spec_bind.mpr
  unfold resolveHost
  apply Program.spec_call_bind.mpr
  refine ⟨trivial, fun lookup => ?_⟩
  apply Program.spec_lift_bind.mpr
  constructor
  · intro answer hanswer
    obtain rfl : lookup = .ok answer := except_mapError_eq_ok.mp hanswer
    split_ifs with hempty
    · exact herr _ _
    · exact hok answer _ fun ip => by simp [List.mem_insertionSort]
  · intro e _
    exact herr _ _

/-- A client with the address of the host fixed, without redirects and without a proxy. -/
theorem Crates.Honours.spec_send_bind (h : crates.Honours) {parsed : Url}
    {host component : String} {answer : List IpAddr} {addr : SocketAddr} {f : Response → Fetch α}
    (hparsed : crates.parse url = .ok parsed) (hscheme : parsed.scheme = "https")
    (hhost : parsed.hostStr = some host)
    (hanswer : (⟨.lookupIp host, .ok answer⟩ : Event effects) ∈ past)
    (hallowed : ∀ ip ∈ answer, isForbiddenIp ip = false) (haddr : addr.ip ∈ answer)
    (herr : ∀ past e, post past (.error e))
    (hok : ∀ response past', (⟨.exchange parsed, .ok response⟩ : Event effects) ∈ past' →
      (f response).Spec (Permitted crates url) post past') :
    ((crates.send (safeClient component host addr) parsed).mapError .transport >>= f).Spec
      (Permitted crates url) post past := by
  have hrequested {own : List (Event effects)} {u : Url}
      (hu : Requested (safeClient component host addr) parsed own u) : u = parsed := by
    rcases hu with rfl | ⟨hpolicy, -⟩
    · rfl
    · exact absurd rfl hpolicy
  have hsend := (h (safeClient component host addr) parsed).shift past
  rw [List.append_nil] at hsend
  apply Program.spec_bind.mpr
  apply Program.spec_mapError.mpr
  apply hsend.mono
  · rintro past' op ⟨own, rfl, hdocumented⟩
    cases op with
    | connect addr' =>
      rcases hdocumented with ⟨u, hu, hdestination⟩ | ⟨hproxy, -⟩
      · obtain rfl := hrequested hu
        -- the host is the one whose address is fixed
        have hpinned : addr' = addr := by
          simpa [Destination, hhost, safeClient] using hdestination
        rw [hpinned]
        exact ⟨u, host, answer, hparsed, hscheme, hhost, List.mem_append_left _ hanswer,
          hallowed, haddr⟩
      · cases hproxy
    | exchange u =>
      obtain rfl := hrequested hdocumented
      exact hparsed
    | _ => trivial
  · rintro past' result ⟨own, rfl, hresult⟩
    cases result with
    | error e => exact herr _ _
    | ok response =>
      obtain ⟨u, hu, hexchange⟩ := hresult response rfl
      obtain rfl := hrequested hu
      exact hok response _ (List.mem_append_right _ hexchange)

theorem safeGet_spec (h : crates.Honours) (component : String) :
    (safeGet crates url component).Spec (Permitted crates url) (Delivered crates url) [] := by
  have herr (past : List (Event effects)) (e : SafeHttpError) :
      Delivered crates url past (.error e) := by
    intro out hout
    cases hout
  unfold safeGet
  refine Program.spec_lift_bind.mpr ⟨fun parsed hparse => ?_, fun e _ => herr _ e⟩
  have hparsed := except_mapError_eq_ok.mp hparse
  refine Program.spec_ensure_bind.mpr ⟨fun hscheme => ?_, fun _ => herr _ _⟩
  refine Program.spec_okOr_bind.mpr ⟨fun host hhost => ?_, fun _ => herr _ _⟩
  apply spec_resolveHost_bind herr
  intro answer ips hips
  refine Program.spec_lift_bind.mpr ⟨fun _ hallowed => ?_, fun e _ => herr _ e⟩
  have hnone : ∀ ip ∈ answer, isForbiddenIp ip = false := fun ip hip =>
    rejectInternal_eq_ok.mp hallowed ip ((hips ip).mpr hip)
  refine Program.spec_lift_bind.mpr ⟨fun _ _ => ?_, fun e _ => herr _ e⟩
  apply h.spec_send_bind hparsed hscheme hhost (by simp) hnone
    ((hips _).mp (List.head_mem ips.2)) herr
  intro response past' hexchange
  refine Program.spec_ensure_bind.mpr ⟨fun _ => ?_, fun _ => herr _ _⟩
  refine Program.spec_ensure_bind.mpr ⟨fun hsuccess => ?_, fun _ => herr _ _⟩
  refine Program.spec_lift_bind.mpr ⟨fun body hbody => ?_, fun e _ => herr _ e⟩
  rintro out ⟨⟩
  obtain ⟨hbroken, hflatten, hcap⟩ := (readBody_eq_ok (by simp [safeHttpMaxBody])).mp hbody
  have hstatus : 200 ≤ response.status ∧ response.status < 300 := by
    simpa [isSuccess] using hsuccess
  exact ⟨hstatus, parsed, response, hparsed, hexchange, rfl, hbroken, hflatten, hcap⟩

end Fetch

/-- The classification is that of the blocks, and every history of a fetch stays within what is
permitted, up to what it returns. -/
theorem safe_get_policy {crates : Crates} (h : crates.Honours) :
    (∀ ip, isForbiddenIp ip = true ↔ InForbiddenBlock ip) ∧
      ∀ url component events rest,
        Program.Runs (safeGet crates url component) events rest →
        (∀ before e after, events = before ++ e :: after → Permitted crates url before e.op) ∧
          ∀ result, rest.outcome = some result → Delivered crates url events result := by
  refine ⟨fun ip => isForbiddenIp_iff, fun url component events rest hruns => ⟨?_, ?_⟩⟩
  · exact hruns.pre_of_mem (safeGet_spec h component)
  · intro result hresult
    exact hruns.outcome_spec (safeGet_spec h component) hresult

/-! ## One fetch

A host with two addresses, the second of them IPv4, and a body in two chunks. -/
namespace Sample

def cardUrl : Url where
  text := "https://acme.com/.well-known/agent-card.json"
  scheme := "https"
  hostStr := some "acme.com"
  literal := none
  portOrKnownDefault := some 443

def crates : Crates :=
  plainCrates fun s => if s = cardUrl.text then .ok cardUrl else .error "relative URL without a base"

def address : IpAddr := .v4 ⟨203, 0, 113, 7⟩

/-- The answers of the network. -/
def network (s : Unit) : (op : Op) → Unit → op.Answer × Unit
  | .lookupIp _, _ => (.ok [.v6 ⟨0x2001, 0xdb8, 0, 0, 0, 0, 0, 7⟩, address], s)
  | .connect _, _ => (.ok (), s)
  | .exchange _, _ =>
    (.ok { status := 200, statusText := "200 OK", chunks := [[0x7b], [0x7d]] }, s)
  | .expired, _ => (none, s)

def fetch : Execution effects Unit SafeHttpError SafeHttpResponse :=
  (safeGet crates cardUrl.text "control-plane").execute network (fun _ => ()) ()

end Sample

theorem safe_get_policy_sample :
    Sample.fetch.outcome = .ok ⟨200, [0x7b, 0x7d], none⟩ ∧
      Sample.fetch.events.map Event.op =
        [.lookupIp "acme.com", .connect ⟨Sample.address, 443⟩, .exchange Sample.cardUrl] ∧
      Delivered Sample.crates Sample.cardUrl.text Sample.fetch.events Sample.fetch.outcome := by
  have hrun : ∃ rest, Program.Runs (safeGet Sample.crates Sample.cardUrl.text "control-plane")
      Sample.fetch.events rest ∧ rest.outcome = some Sample.fetch.outcome := Program.runs_execute
  obtain ⟨rest, hruns, hrest⟩ := hrun
  have hcrates : Sample.crates.Honours := plainCrates_honours
  exact ⟨rfl, rfl, ((safe_get_policy hcrates).2 _ _ _ _ hruns).2 _ hrest⟩

end AgentExchange.Net
