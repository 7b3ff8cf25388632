import AgentExchange.ControlPlane.Lifecycle
import AgentExchange.Net.Client

/-!
# Where probes connect

The probes of `create_transfer` and of the health monitor go through clients with the
defaults of `reqwest`: redirects are followed, the environment's proxies are used, and no
address is looked at. Each probe is expanded here into what its client does on the
network, so a run of the server is also a run of lookups, connections and requests.
-/
namespace AgentExchange.ControlPlane

open Library

/-- The operations of the handlers beside those of the network. -/
abbrev wire : Signature := effects.sum Net.effects

/-- The client of a probe; `verify_tunnel_http_healthz` builds it with twice the time-out. -/
def probeClient : Net.ClientConfig := Net.clientWithTimeout "control-plane" 5000

/-- One probe, as its client carries it out. -/
def httpGet (crates : Net.Crates) (url : String) : Program wire ApiError HttpAnswer :=
  match crates.parse url with
  | .error e => pure (.failure e)
  | .ok u => do
    let result ← (crates.send probeClient u).attempt
    let expired ← (Program.perform (S := wire) (.inr .expired) pure :
      Program wire ApiError (Option UInt64))
    pure (match expired, result with
      | some latencyMs, _ => .timeout latencyMs
      | none, .ok response => .response response.statusText (Net.isSuccess response.status)
      | none, .error e => .failure e)

def carryOut (crates : Net.Crates) : (op : Op) → Program wire ApiError op.Answer
  | .httpGet url => httpGet crates url
  | op => Program.performLeft (S := effects) (T := Net.effects) op

/-- What the world answers, on the network and otherwise. -/
structure WireChoice where
  plane : Choice := {}
  network : (op : Net.Op) → op.Answer

def wireExec (env : Env) (s : State) : (op : wire.Op) → WireChoice → wire.Answer op × State
  | .inl op, c => exec env s op c.plane
  | .inr op, c => (c.network op, s)

abbrev WireLabel := Library.Label Request WireChoice ClockChange
abbrev WireWorld := Pool wire State Request ApiError Response

def wireSemantics (env : Env) (crates : Net.Crates) :
    Semantics wire State Request ApiError Response WireChoice ClockChange where
  handler r := (handler env r).expand (carryOut crates)
  exec := wireExec env
  environment t s := { s with now := t.now, dbNow := t.dbNow }

/-- The server on its network after a run, started on empty tables. -/
def runWire (env : Env) (crates : Net.Crates) (labels : List WireLabel) : WireWorld :=
  Pool.run (wireSemantics env crates) {} labels

/-! ## What the handlers probe -/

/-- The URLs a request brings along. -/
def Request.urls : Request → List String
  | .createTransfer req => (req.reachableAt.getD []).map (·.url) ++ req.tunnelUrl.toList
  | _ => []

/-- An operation that probes only the given URLs, and stores no other ones. -/
def Op.Names (urls : String → Prop) : Op → Prop
  | .httpGet url => ∃ u, urls u ∧ url = healthzUrl u
  | .insertTransfer t => ∀ ep ∈ t.reachableAt, urls ep.url
  | .persistReachableAt _ endpoints => ∀ ep ∈ endpoints, urls ep.url
  | _ => True

section Handlers

variable {env : Env} {urls : String → Prop}

theorem checkTunnel_names {tunnelUrl : String} (h : urls tunnelUrl) :
    (checkTunnel env tunnelUrl).Only (Op.Names urls) := by
  have hattempts (n : ℕ) (lastErr : String) :
      (healthzAttempts tunnelUrl n lastErr).Only (Op.Names urls) := by
    induction n generalizing lastErr with
    | zero => trivial
    | succ n ih =>
      apply Program.Only.bind (Program.only_call ⟨tunnelUrl, h, rfl⟩)
      intro answer
      cases answer with
      | response status success => cases success <;> first | trivial | exact ih _
      | failure error => exact ih _
      | timeout latencyMs => exact ih _
  unfold checkTunnel
  split_ifs
  · trivial
  · apply Program.Only.bind (Program.only_call trivial)
    intro client
    exact .bind (Program.only_lift _) fun _ => hattempts 6 ""

theorem validateAll_names {endpoints : List Endpoint} (h : ∀ ep ∈ endpoints, urls ep.url) :
    (validateAll endpoints).Only (Op.Names urls) := by
  induction endpoints with
  | nil => trivial
  | cons ep rest ih =>
    have hprobe : (probeEndpoint ep).Only (Op.Names urls) := by
      unfold probeEndpoint
      apply Program.Only.bind (Program.only_call trivial)
      intro budgetLeft
      split_ifs
      · trivial
      · exact .bind (Program.only_call ⟨ep.url, h ep (by simp), rfl⟩) fun _ => trivial
      · trivial
      · trivial
    apply hprobe.bind
    intro result
    exact (ih fun ep' hep' => h ep' (by simp [hep'])).bind fun _ => trivial

theorem mem_healthyEndpoints {results : List EndpointProbeResult} {input : List Endpoint}
    {ep : Endpoint} (h : ep ∈ healthyEndpoints results input) : ep ∈ input := by
  simp only [healthyEndpoints, List.mem_map, List.mem_filter] at h
  obtain ⟨⟨ep', i⟩, ⟨hmem, -⟩, rfl⟩ := h
  exact List.fst_mem_of_mem_zipIdx hmem

/-- The endpoints come back in order, with their health updated. -/
theorem probeAll_names (nowUnix : Int64) {endpoints : List Endpoint}
    (h : ∀ ep ∈ endpoints, urls ep.url) (past : List (Event effects)) :
    (probeAll nowUnix endpoints).Spec (fun _ (op : Op) => op.Names urls)
      (fun _ r => ∀ updated, r = .ok updated → updated.map (·.url) = endpoints.map (·.url)) past := by
  induction endpoints generalizing past with
  | nil =>
    rintro updated ⟨⟩
    rfl
  | cons ep rest ih =>
    have hfirst : (validateAll [ep]).Only (Op.Names urls) :=
      validateAll_names (by simpa using h ep (by simp))
    apply hfirst.spec_bind (fun _ _ hop => hop) (fun _ _ _ _ h => by cases h)
    intro es _ results
    apply Program.spec_bind.mpr
    apply (ih (fun ep' hep' => h ep' (by simp [hep'])) _).mono fun _ _ hop => hop
    intro past' result hresult
    cases result with
    | error e => simp
    | ok updated =>
      rintro _ ⟨⟩
      simp [hresult updated rfl, foldHealth]

theorem tickRows_names (nowUnix : Int64) {rows : List (String × List Endpoint)}
    (h : ∀ row ∈ rows, ∀ ep ∈ row.2, urls ep.url) (touched : ℕ) (past : List (Event effects)) :
    (tickRows nowUnix rows touched).Spec (fun _ (op : Op) => op.Names urls) (fun _ _ => True) past := by
  induction rows generalizing touched past with
  | nil => trivial
  | cons row rest ih =>
    obtain ⟨transferId, endpoints⟩ := row
    have hrest : ∀ row ∈ rest, ∀ ep ∈ row.2, urls ep.url := fun row hrow => h row (by simp [hrow])
    unfold tickRows
    split_ifs
    · exact ih hrest touched past
    · apply Program.spec_bind.mpr
      apply (probeAll_names nowUnix (h (transferId, endpoints) (by simp)) past).mono fun _ _ hop => hop
      intro past' result hresult
      cases result with
      | error e => trivial
      | ok updated =>
        have hurls : ∀ ep ∈ updated, urls ep.url := by
          intro ep hep
          have hmem := List.mem_map_of_mem (f := (·.url)) hep
          rw [hresult updated rfl] at hmem
          obtain ⟨ep', hep', heq⟩ := List.mem_map.mp hmem
          rw [← heq]
          exact h (transferId, endpoints) (by simp) ep' hep'
        refine Program.spec_call_bind.mpr ⟨hurls, fun persisted => ?_⟩
        refine Program.spec_lift_bind.mpr ⟨fun _ _ => ?_, fun _ _ => trivial⟩
        exact ih hrest _ _

/-- The operations that neither probe nor store endpoints. -/
def Op.Local : Op → Prop
  | .httpGet _ | .insertTransfer _ | .persistReachableAt _ _ => False
  | _ => True

theorem Op.Local.names (op : Op) (h : op.Local) : op.Names urls := by
  cases op <;> first | exact trivial | exact h.elim

theorem checkNonce_local (nonce message : String) : (checkNonce nonce message).Only Op.Local :=
  .bind (Program.only_ensure _ _) fun _ => Program.only_ensure _ _

theorem checkSkew_local (issuedAt : Int64) (message : String) :
    (checkSkew issuedAt message).Only Op.Local :=
  .bind (Program.only_call trivial) fun _ => .bind (Program.only_ensure _ _) fun _ => trivial

theorem verifyWithValidKeys_local (agentId : String) (at_ : Timestamp)
    (canonical signature : Bytes) :
    (verifyWithValidKeys env agentId at_ canonical signature).Only Op.Local := by
  unfold verifyWithValidKeys
  refine .bind (Program.only_ensure _ _) fun _ => ?_
  refine .bind (Program.only_call trivial) fun rows => ?_
  refine .bind (Program.only_lift _) fun rows => ?_
  exact .bind (Program.only_ensure _ _) fun _ => Program.only_ensure _ _

theorem verifyRecipientReceipt_local (transferId : String) (req : RecipientReceiptRequest)
    (action : String) : (verifyRecipientReceipt env transferId req action).Only Op.Local := by
  unfold verifyRecipientReceipt
  refine .bind (checkNonce_local _ _) fun _ => ?_
  refine .bind (checkSkew_local _ _) fun _ => ?_
  refine .bind (Program.only_lift _) fun recipient => ?_
  refine .bind (Program.only_call trivial) fun found => ?_
  refine .bind (Program.only_lift _) fun found => ?_
  refine .bind (Program.only_okOr _ _) fun row => ?_
  refine .bind (Program.only_ensure _ _) fun _ => ?_
  refine .bind (Program.only_lift _) fun canonical => ?_
  refine .bind (Program.only_lift _) fun signature => ?_
  refine .bind (Program.only_call trivial) fun now => ?_
  exact .bind (verifyWithValidKeys_local _ _ _ _) fun _ => trivial

theorem auditWarn_local (event : Audit.Event) : (auditWarn event).Only Op.Local :=
  .bind (Program.only_call trivial) fun _ => trivial

/-- No other request probes or stores endpoints: each of its steps is a check or another
operation. -/
theorem handler_local {r : Request} (hcreate : ∀ req, r ≠ .createTransfer req)
    (htick : r ≠ .tick) : (handler env r).Only Op.Local := by
  cases r with
  | createTransfer req => exact absurd rfl (hcreate req)
  | tick => exact absurd rfl htick
  | _ =>
    refine Program.Only.bind ?_ fun _ => trivial
    first
      | unfold register
      | unfold getAgent
      | unfold rotateKey
      | unfold getTransfer
      | unfold downloadTransfer
      | unfold ackTransfer
      | unfold issueTicket
      | unfold listInbox
    repeat' first
      | with_reducible exact Program.only_lift _
      | with_reducible exact Program.only_ensure _ _
      | with_reducible exact Program.only_okOr _ _
      | with_reducible exact checkNonce_local _ _
      | with_reducible exact checkSkew_local _ _
      | with_reducible exact verifyWithValidKeys_local _ _ _ _
      | with_reducible exact verifyRecipientReceipt_local _ _ _
      | with_reducible exact auditWarn_local _
      | with_reducible exact Program.only_pure
      | with_reducible refine Program.Only.bind ?_ fun _ => ?_
      | unfold orSqlx
      | unfold orCore
      | unfold orBadRequest
      | exact Program.only_call trivial

theorem insertRow_names {t : InsertTransfer} (h : ∀ ep ∈ t.reachableAt, urls ep.url) :
    (insertRow t).Only (Op.Names urls) :=
  .bind (Program.only_call h) fun _ => Program.only_lift _

variable {req : CreateTransferRequest} (sender : AgentId)

theorem admitDeclared_local (declaredSize : UInt64) :
    (admitDeclared env req sender declaredSize).Only Op.Local := by
  unfold admitDeclared
  refine .bind (Program.only_lift _) fun canonical => ?_
  refine .bind (Program.only_lift _) fun signature => ?_
  refine .bind (Program.only_call trivial) fun now => ?_
  refine .bind (verifyWithValidKeys_local _ _ _ _) fun _ => ?_
  refine .bind (Program.only_call trivial) fun consumed => ?_
  exact .bind (Program.only_lift _) fun _ => trivial

theorem createReachable_names {endpoints : List Endpoint} (h : ∀ ep ∈ endpoints, urls ep.url) :
    (createReachable env req sender endpoints).Only (Op.Names urls) := by
  unfold createReachable
  refine .bind (Program.only_ensure _ _) fun _ => ?_
  refine .bind (Program.only_ensure _ _) fun _ => ?_
  refine .bind (Program.only_ensure _ _) fun _ => ?_
  refine .bind (Program.only_okOr _ _) fun declaredSize => ?_
  refine .bind (validateAll_names h) fun results => ?_
  refine .bind (Program.only_ensure _ _) fun _ => ?_
  refine .bind ((admitDeclared_local sender declaredSize).mono Op.Local.names) fun _ => ?_
  refine .bind (Program.only_call trivial) fun id => ?_
  refine .bind (insertRow_names ?_) fun row => trivial
  intro ep hep
  exact h ep (mem_healthyEndpoints hep)

theorem createTunnel_names {tunnelUrl : String} (h : urls tunnelUrl) :
    (createTunnel env req sender tunnelUrl).Only (Op.Names urls) := by
  unfold createTunnel
  refine .bind (Program.only_ensure _ _) fun _ => ?_
  refine .bind (Program.only_okOr _ _) fun declaredSize => ?_
  refine .bind (Program.only_ensure _ _) fun _ => ?_
  refine .bind (checkTunnel_names h) fun _ => ?_
  refine .bind ((admitDeclared_local sender declaredSize).mono Op.Local.names) fun _ => ?_
  refine .bind (Program.only_call trivial) fun id => ?_
  refine .bind (insertRow_names ?_) fun row => trivial
  intro ep hep
  rw [List.mem_singleton.mp hep]
  exact h

theorem createBlob_names (senderRow : AgentRow) :
    (createBlob env req sender senderRow).Only (Op.Names urls) := by
  have local' {α : Type} {p : Prog α} (h : p.Only Op.Local) : p.Only (Op.Names urls) :=
    h.mono Op.Local.names
  have hrejected (transferId : String) (kind : RecipientKind) (sizeBytes : UInt64)
      (verdict : Option PipelineVerdict) (decision : PolicyDecision) (code reason : String) :
      (persistRejected transferId sender req kind sizeBytes verdict decision code reason).Only
        (Op.Names urls) :=
    .bind (insertRow_names (by simp)) fun _ => .bind (local' (auditWarn_local _)) fun _ => trivial
  unfold createBlob
  refine .bind (Program.only_lift _) fun blob => ?_
  refine .bind (Program.only_lift _) fun signature => ?_
  refine .bind (Program.only_lift _) fun canonical => ?_
  refine .bind (Program.only_call trivial) fun now => ?_
  refine .bind (local' (verifyWithValidKeys_local _ _ _ _)) fun _ => ?_
  refine .bind (Program.only_call trivial) fun fresh => ?_
  refine .bind (Program.only_lift _) fun fresh => ?_
  refine .bind (Program.only_ensure _ _) fun _ => ?_
  refine .bind (Program.only_call trivial) fun id => ?_
  refine .bind (local' (auditWarn_local _)) fun _ => ?_
  refine .bind (Program.only_call trivial) fun preDecision => ?_
  refine .bind (local' (auditWarn_local _)) fun _ => ?_
  split
  · exact .bind (hrejected _ _ _ _ _ _ _) fun row => trivial
  refine .bind (Program.only_call trivial) fun verdict => ?_
  refine .bind (local' (auditWarn_local _)) fun _ => ?_
  refine .bind (Program.only_call trivial) fun postDecision => ?_
  refine .bind (local' (auditWarn_local _)) fun _ => ?_
  split
  · exact .bind (hrejected _ _ _ _ _ _ _) fun row => trivial
  refine .bind (Program.only_call trivial) fun put => ?_
  refine .bind (Program.only_lift _) fun _ => ?_
  exact .bind (insertRow_names (by simp [storedInsert])) fun row => trivial

theorem createTransfer_names (req : CreateTransferRequest) :
    (createTransfer env req).Only
      (Op.Names fun url => url ∈ (Request.createTransfer req).urls) := by
  unfold createTransfer
  refine .bind (Program.only_lift _) fun sender => ?_
  refine .bind (Program.only_call trivial) fun found => ?_
  refine .bind (Program.only_lift _) fun found => ?_
  refine .bind (Program.only_okOr _ _) fun senderRow => ?_
  refine .bind (Program.only_ensure _ _) fun _ => ?_
  refine .bind ((checkNonce_local _ _).mono Op.Local.names) fun _ => ?_
  refine .bind ((checkSkew_local _ _).mono Op.Local.names) fun _ => ?_
  split
  · rename_i endpoints hreachable
    apply createReachable_names
    intro ep hep
    simp only [Request.urls, hreachable, Option.getD_some, List.mem_append, List.mem_map]
    exact Or.inl ⟨ep, hep, rfl⟩
  · split
    · rename_i tunnelUrl htunnel
      apply createTunnel_names
      simp [Request.urls, htunnel]
    · exact createBlob_names sender senderRow

end Handlers

/-- The rows that transfers were loaded with, as events of a handler. -/
abbrev Loads (rows : List (String × List Endpoint)) : Event effects :=
  ⟨.loadInFlightTransfers, .ok rows⟩

/-- A URL the request brought along, or one stored with a transfer the task has loaded. -/
def Supplied (r : Request) (loaded : List (String × List Endpoint) → Prop) (url : String) : Prop :=
  url ∈ r.urls ∨ ∃ rows, loaded rows ∧ ∃ row ∈ rows, ∃ ep ∈ row.2, ep.url = url

theorem Supplied.mono {r : Request} {loaded loaded' : List (String × List Endpoint) → Prop}
    {url : String} (h : Supplied r loaded url) (hmono : ∀ rows, loaded rows → loaded' rows) :
    Supplied r loaded' url := by
  rcases h with hurl | ⟨rows, hrows, hrest⟩
  · exact Or.inl hurl
  · exact Or.inr ⟨rows, hmono rows hrows, hrest⟩

theorem Op.Names.mono {urls urls' : String → Prop} {op : Op} (h : op.Names urls)
    (hurls : ∀ url, urls url → urls' url) : op.Names urls' := by
  cases op with
  | httpGet url =>
    obtain ⟨u, hu, rfl⟩ := h
    exact ⟨u, hurls u hu, rfl⟩
  | insertTransfer t => exact fun ep hep => hurls _ (h ep hep)
  | persistReachableAt transferId endpoints => exact fun ep hep => hurls _ (h ep hep)
  | _ => trivial

theorem handler_names (env : Env) (r : Request) :
    (handler env r).Spec (fun own (op : Op) => op.Names (Supplied r fun rows => Loads rows ∈ own))
      (fun _ _ => True) [] := by
  by_cases htick : r = .tick
  · subst htick
    apply Program.spec_bind.mpr
    unfold tick
    refine Program.spec_call_bind.mpr ⟨trivial, fun answer => ?_⟩
    refine Program.spec_lift_bind.mpr ⟨fun rows hrows => ?_, fun _ _ => trivial⟩
    obtain rfl : answer = .ok rows := except_mapError_eq_ok.mp hrows
    refine Program.spec_call_bind.mpr ⟨trivial, fun now => ?_⟩
    have hnames := @tickRows_names (fun url => ∃ row ∈ rows, ∃ ep ∈ row.2, ep.url = url)
      (unixTimestamp now) rows (fun row hrow ep hep => ⟨row, hrow, ep, hep, rfl⟩) 0 []
    -- what was loaded stays part of the history
    have hlater := hnames.shift
      ([] ++ [⟨.loadInFlightTransfers, .ok rows⟩] ++ [⟨.clockNow, now⟩] : List (Event effects))
    rw [List.append_nil] at hlater
    apply hlater.mono
    · rintro own op ⟨later, rfl, hop⟩
      exact hop.mono fun url hurl => Or.inr ⟨rows, by simp, hurl⟩
    · intro _ result _
      cases result <;> trivial
  · have hnames : (handler env r).Only (Op.Names fun url => url ∈ r.urls) := by
      by_cases hcreate : ∃ req, r = .createTransfer req
      · obtain ⟨req, rfl⟩ := hcreate
        exact (createTransfer_names req).bind fun _ => trivial
      · exact (handler_local (not_exists.mp hcreate) htick).mono Op.Local.names
    apply hnames.spec
    · intro own op hop
      exact Op.Names.mono hop fun url hurl => Or.inl hurl
    · intro _ _
      trivial

/-! ## What the probes do on the network -/

section Wire

variable {env : Env} {crates : Net.Crates}

/-- A URL supplied to a task, by what it has done on the wire. -/
abbrev WireSupplied (r : Request) (past : List (Event wire)) : String → Prop :=
  Supplied r fun rows => Event.inl (Loads rows) ∈ past

/-- A network operation that the probe of a supplied URL may perform. -/
def Probes (crates : Net.Crates) (r : Request) (past : List (Event wire)) (op : Net.Op) : Prop :=
  ∃ url u own, WireSupplied r past url ∧ crates.parse (healthzUrl url) = .ok u ∧
    (∀ e ∈ own, Event.inr e ∈ past) ∧ crates.Documented probeClient u own op

/-- What each operation of a task may be, over the earlier events of the task. -/
def WirePre (crates : Net.Crates) (r : Request) (past : List (Event wire)) : wire.Op → Prop
  | .inl op => op.Names (WireSupplied r past)
  | .inr .expired => True
  | .inr op => Probes crates r past op

theorem httpGet_probes (hcrates : crates.Honours) {r : Request} {url : String}
    {past : List (Event wire)} (hurl : WireSupplied r past url) :
    (httpGet crates (healthzUrl url)).Spec (WirePre crates r)
      (fun past' _ => ∀ e ∈ past, e ∈ past') past := by
  unfold httpGet
  split
  · exact fun e he => he
  · rename_i u hparse
    apply Program.spec_bind.mpr
    have hsend := (hcrates probeClient u).attempt (S := effects) (ζ := ApiError) past
    rw [List.map_nil, List.append_nil] at hsend
    apply hsend.mono
    · rintro past' op ⟨own, top, rfl, rfl, htop⟩
      cases top with
      | expired => trivial
      | _ =>
        refine ⟨url, u, own, hurl.mono fun rows => List.mem_append_left _, hparse, ?_, htop⟩
        exact fun e he => List.mem_append_right _ (List.mem_map_of_mem he)
    · rintro past' result ⟨own, result', rfl, rfl, -⟩
      refine Program.spec_bind.mpr ⟨trivial, fun expired => ?_⟩
      intro e he
      simp [he]

theorem wire_handler_spec (hcrates : crates.Honours) (r : Request) :
    ((wireSemantics env crates).handler r).Spec (WirePre crates r) (fun _ _ => True) [] := by
  -- what the task has loaded is part of what happened on the wire
  refine Program.spec_expand (R := fun own past => ∀ rows, Loads rows ∈ own →
    Event.inl (Loads rows) ∈ past) (handler_names env r) (by simp) ?_ ?_ ?_
  · intro own past op hR hop
    cases op with
    | httpGet url =>
      obtain ⟨u, hu, rfl⟩ := hop
      apply (httpGet_probes hcrates (hu.mono hR)).mono (fun _ _ h => h)
      intro past' result hpast a _ rows hrows
      exact hpast _ (hR rows (by simpa using hrows))
    | _ =>
      refine ⟨hop.mono fun url hurl => hurl.mono hR, fun answer => ?_⟩
      rintro _ ⟨⟩ rows hrows
      rcases List.mem_append.mp hrows with hrows | hrows
      · exact List.mem_append_left _ (hR rows hrows)
      · apply List.mem_append_right
        exact List.mem_singleton.mpr (congrArg Event.inl (List.mem_singleton.mp hrows))
  · intros
    trivial
  · intros
    trivial

end Wire

end AgentExchange.ControlPlane
