import AgentExchange.ControlPlane.Replay
import AgentExchange.ControlPlane.Probing
import AgentExchange.Library.Join

/-!
# The rows that create_transfer inserts

What stands in a new row, branch by branch, and which rows the responses show. The
endpoints of a `reachable_at` request are those whose own probe found them healthy; the
probes run at once, and `validateAll` is their sequence.
-/
namespace AgentExchange.ControlPlane

open Library Wire
open Program (lift ensure okOr)

/-- The endpoint that old SDKs are given. -/
def legacyTunnelUrl (healthy : List Endpoint) : Option String :=
  (healthy.find? fun e => startsWith "https://" e.url).map (·.url)

/-- Each endpoint was probed on events of its own among those of the task. -/
def Validated (past : History) (endpoints : List Endpoint) (results : List EndpointProbeResult) :
    Prop :=
  ∃ runs, List.Forall₂ Program.Returns (endpoints.map probeEndpoint) runs ∧
    (runs.map Prod.fst).flatten <:+: past ∧ results = runs.map Prod.snd

/-- The row that each branch of `create_transfer` inserts. -/
inductive Inserts (req : CreateTransferRequest) (past : History) : InsertTransfer → Prop
  | reachable {endpoints : List Endpoint} {results : List EndpointProbeResult}
      {declaredSize : UInt64} (transferId : String) (hreq : req.reachableAt = some endpoints)
      (hsize : req.declaredSize = some declaredSize) (hresults : Validated past endpoints results) :
    Inserts req past (declaredInsert req ⟨req.senderAgentId⟩ declaredSize transferId
      (legacyTunnelUrl (healthyEndpoints results endpoints)) (healthyEndpoints results endpoints))
  | tunnel {tunnelUrl : String} {declaredSize : UInt64} (transferId : String)
      (hreq : req.reachableAt = none) (hurl : req.tunnelUrl = some tunnelUrl)
      (hsize : req.declaredSize = some declaredSize) :
    Inserts req past (declaredInsert req ⟨req.senderAgentId⟩ declaredSize transferId
      (some tunnelUrl) [{ kind := Endpoint.kindCloudflareQuick, url := tunnelUrl }])
  | blob {blob : Bytes} {t : InsertTransfer} (hblob : req.IsBlob)
      (hbytes : hexDecode req.blobHex = .ok blob)
      (hsize : t.sizeBytes = (UInt64.ofNat blob.length).toInt64) (htunnel : t.tunnelUrl = none)
      (hreachable : t.reachableAt = []) : Inserts req past t

/-- What the request's program may insert. -/
def inserts (r : Request) (past : History) (op : Op) : Prop :=
  ∀ t, op = .insertTransfer t → ∃ req, r = .createTransfer req ∧ Inserts req past t

def inboxEntry (row : TransferRow) : InboxEntry :=
  ⟨row.transferId, row.senderAgentId, row.state, row.sizeBytes.toUInt64, row.declaredMime,
    row.filename, row.createdAt⟩

/-- The rows that a response shows were read, or inserted, by its own task. -/
def shows (past : History) : Except ApiError Response → Prop
  | .ok (.transfer _ body) => ∃ row : TransferRow, body = rowToResponse row ∧
      ((∃ t, Saw past (.insertTransfer t) (.ok row)) ∨
        ∃ transferId, Saw past (.findTransfer transferId) (.ok (some row)))
  | .ok (.inbox body) => ∃ recipient limit rows, Saw past (.listInbox recipient limit) (.ok rows) ∧
      body.entries = rows.map inboxEntry
  | _ => True

theorem Validated.mono {past es : History} {endpoints : List Endpoint}
    {results : List EndpointProbeResult} (h : Validated past endpoints results) :
    Validated (past ++ es) endpoints results := by
  obtain ⟨runs, hruns, hblock, hresults⟩ := h
  exact ⟨runs, hruns, hblock.trans (List.prefix_append past es).isInfix, hresults⟩

theorem validateAll_eq_sequence (endpoints : List Endpoint) :
    validateAll endpoints = Program.sequence (endpoints.map probeEndpoint) := by
  induction endpoints with
  | nil => rfl
  | cons ep rest ih =>
    rw [validateAll, ih]
    rfl

theorem validated_of_runs {past es : History} {endpoints : List Endpoint}
    {results : List EndpointProbeResult}
    (h : Program.Runs (validateAll endpoints) es (.pure results)) :
    Validated (past ++ es) endpoints results := by
  rw [validateAll_eq_sequence] at h
  obtain ⟨runs, hruns, rfl, rfl⟩ := Program.runs_sequence.mp h
  exact ⟨runs, hruns, (List.suffix_append past _).isInfix, rfl⟩

theorem Op.Local.inserts {r : Request} (past : History) (op : Op) (h : op.Local) :
    inserts r past op := by
  rintro t rfl
  exact h.elim

theorem Op.Probes.inserts {r : Request} (past : History) (op : Op) (h : op.Probes) :
    inserts r past op := by
  rintro t rfl
  exact h.elim

section Create

variable {env : Env} {req : CreateTransferRequest} {past : History}

/-- The response shows the row that was inserted. -/
def ShowsInserted (past : History) (out : Except ApiError (ℕ × TransferResponse)) : Prop :=
  ∀ status body, out = .ok (status, body) → ∃ row : TransferRow, body = rowToResponse row ∧
    ∃ t, Saw past (.insertTransfer t) (.ok row)

theorem spec_insertRow_bind_inserts {t : InsertTransfer} {status : ℕ}
    (h : Inserts req past t) :
    (insertRow t >>= fun row => pure (status, rowToResponse row) : Prog (ℕ × TransferResponse)).Spec
      (inserts (.createTransfer req)) ShowsInserted past := by
  unfold insertRow
  refine ⟨?_, fun inserted => ?_⟩
  · rintro _ ⟨⟩
    exact ⟨req, rfl, h⟩
  · cases inserted with
    | error e => rintro status body ⟨⟩
    | ok row =>
      rintro _ _ ⟨⟩
      exact ⟨row, rfl, t, saw_snoc past (.insertTransfer t) (.ok row)⟩

/-- A part that inserts nothing, in front of the rest of the handler. -/
theorem spec_local_bind {α : Type} {p : Prog α} {f : α → Prog (ℕ × TransferResponse)}
    (hp : p.Only Op.Local)
    (hok : ∀ a es, (f a).Spec (inserts (.createTransfer req)) ShowsInserted (past ++ es)) :
    (p >>= f).Spec (inserts (.createTransfer req)) ShowsInserted past :=
  hp.spec_bind Op.Local.inserts (fun _ _ _ => by rintro _ _ ⟨⟩) fun es _ a => hok a es

theorem createReachable_inserts {endpoints : List Endpoint} (hr : req.reachableAt = some endpoints) :
    (createReachable env req ⟨req.senderAgentId⟩ endpoints).Spec (inserts (.createTransfer req))
      ShowsInserted past := by
  unfold createReachable
  refine spec_local_bind (Program.only_ensure _ _) fun _ _ => ?_
  refine spec_local_bind (Program.only_ensure _ _) fun _ _ => ?_
  refine spec_local_bind (Program.only_ensure _ _) fun _ _ => ?_
  rw [Program.spec_okOr_bind]
  refine ⟨fun declaredSize hsize => ?_, fun _ => by rintro _ _ ⟨⟩⟩
  refine (validateAll_probes endpoints).runs_bind Op.Probes.inserts (fun _ _ => by rintro _ _ ⟨⟩)
    fun es results hruns _ => ?_
  refine spec_local_bind (Program.only_ensure _ _) fun _ _ => ?_
  refine spec_local_bind (admitDeclared_local _ declaredSize) fun _ _ => ?_
  refine spec_local_bind (Program.only_call trivial) fun id _ => ?_
  exact spec_insertRow_bind_inserts (.reachable _ hr hsize (validated_of_runs hruns).mono.mono.mono)

theorem createTunnel_inserts {tunnelUrl : String} (hr : req.reachableAt = none)
    (hurl : req.tunnelUrl = some tunnelUrl) :
    (createTunnel env req ⟨req.senderAgentId⟩ tunnelUrl).Spec (inserts (.createTransfer req))
      ShowsInserted past := by
  unfold createTunnel
  refine spec_local_bind (Program.only_ensure _ _) fun _ _ => ?_
  rw [Program.spec_okOr_bind]
  refine ⟨fun declaredSize hsize => ?_, fun _ => by rintro _ _ ⟨⟩⟩
  refine spec_local_bind (Program.only_ensure _ _) fun _ _ => ?_
  refine (checkTunnel_probes env tunnelUrl).runs_bind Op.Probes.inserts (fun _ _ => by rintro _ _ ⟨⟩)
    fun _ _ _ _ => ?_
  refine spec_local_bind (admitDeclared_local _ declaredSize) fun _ _ => ?_
  refine spec_local_bind (Program.only_call trivial) fun id _ => ?_
  exact spec_insertRow_bind_inserts (.tunnel _ hr hurl hsize)

theorem spec_persistRejected_bind {blob : Bytes} (hblob : req.IsBlob)
    (hbytes : hexDecode req.blobHex = .ok blob) (transferId : String) (kind : RecipientKind)
    (verdict : Option PipelineVerdict) (decision : PolicyDecision) (code reason : String) :
    (persistRejected transferId ⟨req.senderAgentId⟩ req kind (.ofNat blob.length) verdict decision
      code reason >>= fun row => pure (200, rowToResponse row) : Prog (ℕ × TransferResponse)).Spec
      (inserts (.createTransfer req)) ShowsInserted past := by
  rw [Program.spec_bind]
  unfold persistRejected insertRow
  refine ⟨?_, fun inserted => ?_⟩
  · rintro _ ⟨⟩
    exact ⟨req, rfl, .blob hblob hbytes rfl rfl rfl⟩
  · cases inserted with
    | error e => rintro status body ⟨⟩
    | ok row =>
      refine (auditWarn_local _).spec_bind Op.Local.inserts (fun _ _ _ => by rintro _ _ ⟨⟩) ?_
      rintro es _ _ _ _ ⟨⟩
      exact ⟨row, rfl, _, (saw_snoc past _ _).mono (List.subset_append_left _ es)⟩

theorem createBlob_inserts (senderRow : AgentRow) (hblob : req.IsBlob) :
    (createBlob env req ⟨req.senderAgentId⟩ senderRow).Spec (inserts (.createTransfer req))
      ShowsInserted past := by
  unfold createBlob
  refine spec_mapError_bind (fun _ => by rintro _ _ ⟨⟩) fun blob hbytes => ?_
  refine spec_local_bind (Program.only_lift _) fun signature _ => ?_
  refine spec_local_bind (Program.only_lift _) fun canonical _ => ?_
  refine spec_local_bind (Program.only_call trivial) fun now _ => ?_
  refine spec_local_bind (verifyWithValidKeys_local _ _ _ _) fun _ _ => ?_
  refine spec_local_bind (Program.only_call trivial) fun fresh _ => ?_
  refine spec_local_bind (Program.only_lift _) fun fresh _ => ?_
  refine spec_local_bind (Program.only_ensure _ _) fun _ _ => ?_
  refine spec_local_bind (Program.only_call trivial) fun id _ => ?_
  refine spec_local_bind (auditWarn_local _) fun _ _ => ?_
  refine spec_local_bind (Program.only_call trivial) fun preDecision _ => ?_
  refine spec_local_bind (auditWarn_local _) fun _ _ => ?_
  split
  · exact spec_persistRejected_bind hblob hbytes _ _ _ _ _ _
  refine spec_local_bind (Program.only_call trivial) fun verdict _ => ?_
  refine spec_local_bind (auditWarn_local _) fun _ _ => ?_
  refine spec_local_bind (Program.only_call trivial) fun postDecision _ => ?_
  refine spec_local_bind (auditWarn_local _) fun _ _ => ?_
  split
  · exact spec_persistRejected_bind hblob hbytes _ _ _ _ _ _
  refine spec_local_bind (Program.only_call trivial) fun put _ => ?_
  refine spec_local_bind (Program.only_lift _) fun _ _ => ?_
  exact spec_insertRow_bind_inserts (.blob hblob hbytes rfl rfl rfl)

theorem createTransfer_inserts (env : Env) (req : CreateTransferRequest) :
    (createTransfer env req).Spec (inserts (.createTransfer req)) ShowsInserted [] := by
  unfold createTransfer
  refine spec_mapError_bind (fun _ => by rintro _ _ ⟨⟩) fun sender hsender => ?_
  obtain rfl := AgentId.eq_of_new hsender
  refine spec_local_bind (Program.only_call trivial) fun found _ => ?_
  refine spec_local_bind (Program.only_lift _) fun found _ => ?_
  refine spec_local_bind (Program.only_okOr _ _) fun senderRow _ => ?_
  refine spec_local_bind (Program.only_ensure _ _) fun _ _ => ?_
  refine spec_local_bind (checkNonce_local _ _) fun _ _ => ?_
  refine spec_local_bind (checkSkew_local _ _) fun _ _ => ?_
  cases hr : req.reachableAt with
  | some endpoints => exact createReachable_inserts hr
  | none =>
    cases ht : req.tunnelUrl with
    | some tunnelUrl => exact createTunnel_inserts hr ht
    | none => exact createBlob_inserts senderRow ⟨hr, ht⟩

end Create

theorem getTransfer_shows (transferId : String) :
    (getTransfer transferId).Spec (inserts (.getTransfer transferId))
      (fun past out => shows past (out.map (.transfer 200))) [] := by
  unfold getTransfer
  refine Program.spec_call_bind.mpr ⟨by rintro _ ⟨⟩, fun found => ?_⟩
  refine spec_mapError_bind (fun _ => trivial) fun found' hfound => ?_
  subst hfound
  refine Program.spec_okOr_bind.mpr ⟨fun row hrow => ?_, fun _ => trivial⟩
  subst hrow
  exact ⟨row, rfl, Or.inr ⟨transferId, saw_snoc [] (.findTransfer transferId) (.ok (some row))⟩⟩

theorem listInbox_shows (env : Env) (req : RecipientReceiptRequest) :
    (listInbox env req).Spec (inserts (.listInbox req))
      (fun past out => shows past (out.map .inbox)) [] := by
  have hlocal {α : Type} {past : History} {p : Prog α} {f : α → Prog InboxResponse}
      (hp : p.Only Op.Local)
      (hok : ∀ a es, (f a).Spec (inserts (.listInbox req))
        (fun past out => shows past (out.map .inbox)) (past ++ es)) :
      (p >>= f).Spec (inserts (.listInbox req)) (fun past out => shows past (out.map .inbox)) past :=
    hp.spec_bind Op.Local.inserts (fun _ _ _ => trivial) fun es _ a => hok a es
  unfold listInbox
  refine hlocal (checkNonce_local _ _) fun _ _ => ?_
  refine hlocal (checkSkew_local _ _) fun _ _ => ?_
  refine hlocal (Program.only_lift _) fun recipient _ => ?_
  refine hlocal (Program.only_lift _) fun canonical _ => ?_
  refine hlocal (Program.only_lift _) fun signature _ => ?_
  refine hlocal (Program.only_call trivial) fun now _ => ?_
  refine hlocal (verifyWithValidKeys_local _ _ _ _) fun _ _ => ?_
  refine Program.spec_call_bind.mpr ⟨by rintro _ ⟨⟩, fun answer => ?_⟩
  refine spec_mapError_bind (fun _ => trivial) fun rows hrows => ?_
  subst hrows
  exact ⟨_, _, rows, saw_snoc _ (.listInbox _ inboxLimit) (.ok rows), rfl⟩

/-- A handler that inserts nothing, and whose responses show no row. -/
theorem spec_silent {α : Type} {Q : Op → Prop} {r : Request} {p : Prog α} {f : α → Response}
    (hp : p.Only Q) (hQ : ∀ op, Q op → ∀ t, op ≠ .insertTransfer t)
    (hf : ∀ past a, shows past (.ok (f a))) :
    (p >>= fun a => pure (f a) : Prog Response).Spec (inserts r) shows [] :=
  hp.spec_bind (fun _ op hop t ht => absurd ht (hQ op hop t)) (fun _ _ _ => trivial)
    fun _ _ a => hf _ a

theorem Op.Local.ne_insertTransfer (op : Op) (h : op.Local) (t : InsertTransfer) :
    op ≠ .insertTransfer t := by
  rintro rfl
  exact h

/-- Every handler inserts what it should, and shows the rows it has seen. -/
theorem handler_inserts (env : Env) (r : Request) :
    (handler env r).Spec (inserts r) shows [] := by
  have hlocal (hcreate : ∀ req, r ≠ .createTransfer req) (htick : r ≠ .tick) :
      (handler env r).Only Op.Local := handler_local hcreate htick
  cases r with
  | createTransfer req =>
    refine Program.spec_bind.mpr ((createTransfer_inserts env req).mono (fun _ _ h => h) ?_)
    rintro past (e | ⟨status, body⟩) hshows
    · trivial
    · obtain ⟨row, hbody, t, ht⟩ := hshows status body rfl
      exact ⟨row, hbody, Or.inl ⟨t, ht⟩⟩
  | getTransfer transferId =>
    refine Program.spec_bind.mpr ((getTransfer_shows transferId).mono (fun _ _ h => h) ?_)
    rintro past (e | body) hshows <;> exact hshows
  | listInbox req =>
    refine Program.spec_bind.mpr ((listInbox_shows env req).mono (fun _ _ h => h) ?_)
    rintro past (e | body) hshows <;> exact hshows
  | tick =>
    exact spec_silent tick_only (fun op hop => (Op.Plain.harmless op hop).ne_insertTransfer)
      fun _ _ => trivial
  | _ =>
    exact spec_silent (hlocal (by simp) (by simp)).of_bind Op.Local.ne_insertTransfer
      fun _ _ => trivial

/-- The branch a new row comes from, in every run. -/
theorem inserted {env : Env} {labels : List Label} {past rest : Trace}
    {e : Entry effects State Request} {req : CreateTransferRequest} {row : TransferRow}
    (he : (run env labels).trace = past ++ e :: rest) (hrow : insertion e = some (req, row)) :
    ∃ t, row = { t with createdAt := e.before.dbNow } ∧ e.event = ⟨.insertTransfer t, .ok row⟩ ∧
      Inserts req (Pool.eventsOf past e.task) t := by
  have hconf := Pool.run_conforms (semantics env) {} labels
  have hinserts := hconf.operation_spec (handler_inserts env) he
  obtain ⟨hreq, t, hevent⟩ := insertion_eq_some hrow
  obtain ⟨req', t', hreq', hop, hrow', -⟩ := created_admitted he ⟨t, hevent⟩
  obtain rfl : t = t' := by simpa [hevent] using hop
  obtain ⟨req'', hreq'', hcase⟩ := hinserts t hop
  obtain rfl : req = req'' := by simpa using hreq.symm.trans hreq''
  exact ⟨t, hrow', hevent, hcase⟩

namespace Sample

def frpEndpoint (url : String) (priority : Int32) : Endpoint :=
  { kind := Endpoint.kindFrp, url := url, priority := priority }

/-- The signed intent of the tunnel, with a list of endpoints. -/
def reachableRequest (endpoints : List Endpoint) : CreateTransferRequest :=
  { tunnelRequest with tunnelUrl := none, reachableAt := some endpoints }

/-- Alice registers and sends the list; the request takes `n` operations. -/
def announcesEndpoints (endpoints : List Endpoint) (n : ℕ) : List Label :=
  clockAt 1700000000 :: serve 0 (.register registerAlice) 3 ++
    serve 1 (.createTransfer (reachableRequest endpoints)) n 1

end Sample

end AgentExchange.ControlPlane
