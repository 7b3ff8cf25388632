import AgentExchange.ControlPlane.System
import AgentExchange.Core.WireMessages

/-!
# What each handler establishes before it acts

`permits` says, for every operation another task could notice, which request
performs it and what the handler has seen by then; `ensures` says what a returned
response or error stands for. `handler_spec` proves both for every request, over
the handler's own history of operations and answers.
-/
namespace AgentExchange.ControlPlane

open Library Wire
open Program (lift ensure okOr)

/-- The operations of one handler so far, with their answers. -/
abbrev History := List (Library.Event effects)

def Saw (past : History) (op : Op) (answer : op.Answer) : Prop :=
  (⟨op, answer⟩ : Library.Event effects) ∈ past

/-- The clock was read close to the timestamp of the request. -/
def Fresh (past : History) (issuedAt : Int64) : Prop :=
  ∃ t, Saw past .clockNow t ∧ isWithinClockSkew (unixTimestamp t) issuedAt = true

/-- One of the listed keys verifies the signature over the message. -/
def Verifies (env : Env) (message : Message) (signatureHex : String) (rows : List AgentKeyRow) :
    Prop :=
  ∃ canonical signature, message.encode = .ok canonical ∧ hexDecode signatureHex = .ok signature ∧
    ∃ row ∈ rows, keyVerifies env canonical signature row.publicKey = true

/-- The signature was checked against the keys the ledger listed at a clock reading. -/
def Verified (env : Env) (past : History) (agentId : String) (message : Message)
    (signatureHex : String) : Prop :=
  ∃ now rows, Saw past .clockNow now ∧ Saw past (.validKeysAt agentId now) (.ok rows) ∧
    Verifies env message signatureHex rows

/-- The transfer was looked up and is addressed to the agent. -/
def Addressed (past : History) (transferId recipient : String) : Prop :=
  ∃ row, Saw past (.findTransfer transferId) (.ok (some row)) ∧ row.recipient = recipient

/-- The request takes the branch that uploads the bytes. -/
def CreateTransferRequest.IsBlob (req : CreateTransferRequest) : Prop :=
  req.reachableAt = none ∧ req.tunnelUrl = none

def CreateTransferRequest.intent (req : CreateTransferRequest) (sizeBytes : UInt64) : Message :=
  .transferIntentBytes req.senderAgentId req.recipient sizeBytes req.declaredMime req.filename
    req.nonce req.issuedAt

/-- What the nonce table was asked for the request, and what it answered. -/
def NoncePresented (past : History) (req : CreateTransferRequest) : Prop :=
  (req.IsBlob ∧ Saw past (.consumeIntentNonce req.nonce req.senderAgentId) (.ok true)) ∨
    (¬req.IsBlob ∧ ∃ fresh, Saw past (.consumeIntentNonce req.senderAgentId req.nonce) (.ok fresh))

/-- Both policy decisions, the scan and the upload behind a stored blob. -/
structure BlobChecked (env : Env) (req : CreateTransferRequest) (past : History)
    (t : InsertTransfer) (org : String) (blob : Bytes) (verdict : PipelineVerdict)
    (pre post : PolicyDecision) : Prop where
  decoded : hexDecode req.blobHex = .ok blob
  preScan : Saw past
    (.evaluate (preScanRequest req ⟨req.senderAgentId⟩ org (.ofNat blob.length))) pre
  preScan_passed : ∀ code reason, pre ≠ .deny code reason
  scanned : Saw past (.scan ⟨blob, optStr req.declaredMime, optStr req.filename⟩) verdict
  postScan : Saw past
    (.evaluate (postScanRequest req ⟨req.senderAgentId⟩ org (.ofNat blob.length) verdict)) post
  postScan_passed : ∀ code reason, post ≠ .deny code reason
  stored : Saw past (.blobPut t.transferId blob) (.ok ())
  row : t = storedInsert env req ⟨req.senderAgentId⟩ blob t.transferId verdict post

/-- No row was inserted so far. -/
def Uninserted (past : History) : Prop := ∀ e ∈ past, ∀ t, e.op ≠ .insertTransfer t

/-- The intent of the request passed every check on it. -/
structure IntentChecked (env : Env) (req : CreateTransferRequest) (past : History)
    (sizeBytes : UInt64) : Prop where
  fresh : Fresh past req.issuedAt
  verified : Verified env past req.senderAgentId (req.intent sizeBytes) req.intentSignatureHex
  nonce : NoncePresented past req
  first : Uninserted past

/-- What `create_transfer` knows when it inserts a row. -/
structure Admitted (env : Env) (req : CreateTransferRequest) (past : History)
    (t : InsertTransfer) : Prop extends IntentChecked env req past t.sizeBytes.toUInt64 where
  sender : t.senderAgentId = req.senderAgentId
  recipient : t.recipient = req.recipient
  mime : t.declaredMime = optStr req.declaredMime
  filename : t.filename = optStr req.filename
  state : t.state = .readyForPickup ∨ t.state = .rejected
  blob : req.IsBlob → t.state = .readyForPickup →
    ∃ org blob verdict pre post, BlobChecked env req past t org blob verdict pre post

/-- What `rotate_key` knows when it replaces a key. -/
def RotationVerified (env : Env) (req : RotateKeyRequest) (past : History)
    (expectedHex : String) (now : Timestamp) : Prop :=
  ∃ current canonical signature, Saw past (.currentKey req.agentId) (.ok (some current)) ∧
    current.publicKeyHex = expectedHex ∧
    rotateKeyChallengeBytes req.agentId expectedHex req.newPublicKeyHex req.nonce req.issuedAt =
      .ok canonical ∧
    hexDecode req.signatureHex = .ok signature ∧
    env.verify current.publicKey canonical signature = true ∧ Saw past .clockNow now

/-- The receipt a request of a recipient carries, and the fields it is built from. -/
def Request.receipt : Request → Option (RecipientReceiptRequest × Message)
  | .downloadTransfer transferId req => some (req, .transferReceiptBytes req.recipientAgentId
      transferId "download" req.nonce req.issuedAt)
  | .ackTransfer transferId req => some (req, .transferReceiptBytes req.recipientAgentId
      transferId "ack" req.nonce req.issuedAt)
  | .issueTicket transferId req => some (req, .transferReceiptBytes req.recipientAgentId
      transferId ticketAction req.nonce req.issuedAt)
  | .listInbox req => some (req, .transferReceiptBytes req.recipientAgentId
      inboxTransferMarker "inbox" req.nonce req.issuedAt)
  | _ => none

/-- The receipt of the request was fresh and its signature was accepted. -/
def Request.Receipted (env : Env) (past : History) (r : Request) : Prop :=
  ∀ req message, r.receipt = some (req, message) →
    Fresh past req.issuedAt ∧ Verified env past req.recipientAgentId message req.signatureHex

/-- Which request performs an operation, and what its handler has seen by then. -/
def permits (env : Env) (r : Request) (past : History) : Op → Prop
  | .validKeysAt _ at_ => Saw past .clockNow at_
  | .insertAgent _ _ _ _ _ => ∃ req, r = .register req
  | .insertRotation agentId expectedHex newHex _ now => ∃ req, r = .rotateKey req ∧
      agentId = req.agentId ∧ newHex = req.newPublicKeyHex ∧
      RotationVerified env req past expectedHex now
  | .consumeIntentNonce _ _ => ∃ req, r = .createTransfer req
  | .insertTransfer t => ∃ req, r = .createTransfer req ∧ Admitted env req past t
  | .markAccepted transferId => ∃ req, r = .downloadTransfer transferId req ∧
      r.Receipted env past ∧ Addressed past transferId req.recipientAgentId
  | .markDelivered transferId => ∃ req, r = .ackTransfer transferId req ∧
      r.Receipted env past ∧ Addressed past transferId req.recipientAgentId
  | .insertTicketNonce _ transferId _ => ∃ req, r = .issueTicket transferId req ∧
      r.Receipted env past ∧ Addressed past transferId req.recipientAgentId
  | .listInbox recipient _ => ∃ req, r = .listInbox req ∧ recipient = req.recipientAgentId ∧
      r.Receipted env past
  | _ => True

/-- The event changed `agents` or `agent_keys`. -/
def WroteLedger : Library.Event effects → Prop
  | ⟨.insertAgent _ _ _ _ _, .ok _⟩ => True
  | ⟨.insertRotation _ _ _ _ _, .ok _⟩ => True
  | _ => False

/-- What a returned response or error stands for. -/
def ensures (env : Env) (r : Request) (past : History) : Except ApiError Response → Prop
  | .ok _ => r.Receipted env past ∧
    match r with
    | .downloadTransfer transferId req =>
      ∃ bytes, Saw past (.blobGet transferId) (.ok bytes) ∧
        Addressed past transferId req.recipientAgentId
    | .ackTransfer transferId req =>
      ∃ updated, updated ≠ 0 ∧ Saw past (.markDelivered transferId) (.ok updated) ∧
        Addressed past transferId req.recipientAgentId
    | .issueTicket transferId req => Addressed past transferId req.recipientAgentId
    | _ => True
  | .error _ =>
    match r with
    | .register _ => ∀ e ∈ past, ¬WroteLedger e
    | .rotateKey _ => ∀ e ∈ past, ¬WroteLedger e
    | _ => True

section Facts

variable {past past' : History} {env : Env}

theorem saw_snoc (past : History) (op : Op) (answer : op.Answer) :
    Saw (past ++ [⟨op, answer⟩]) op answer := by
  simp [Saw]

theorem Saw.mono {op : Op} {answer : op.Answer} (h : Saw past op answer) (hs : past ⊆ past') :
    Saw past' op answer := hs h

theorem Fresh.mono {issuedAt : Int64} (h : Fresh past issuedAt) (hs : past ⊆ past') :
    Fresh past' issuedAt := by
  obtain ⟨t, ht, hskew⟩ := h
  exact ⟨t, ht.mono hs, hskew⟩

theorem Verified.mono {agentId signatureHex : String} {message : Message}
    (h : Verified env past agentId message signatureHex) (hs : past ⊆ past') :
    Verified env past' agentId message signatureHex := by
  obtain ⟨now, rows, hnow, hrows, hver⟩ := h
  exact ⟨now, rows, hnow.mono hs, hrows.mono hs, hver⟩

theorem Addressed.mono {transferId recipient : String} (h : Addressed past transferId recipient)
    (hs : past ⊆ past') : Addressed past' transferId recipient := by
  obtain ⟨row, hrow, hrec⟩ := h
  exact ⟨row, hrow.mono hs, hrec⟩

theorem NoncePresented.mono {req : CreateTransferRequest} (h : NoncePresented past req)
    (hs : past ⊆ past') : NoncePresented past' req := by
  rcases h with ⟨hblob, hsaw⟩ | ⟨hblob, fresh, hsaw⟩
  · exact Or.inl ⟨hblob, hsaw.mono hs⟩
  · exact Or.inr ⟨hblob, fresh, hsaw.mono hs⟩

theorem Request.Receipted.mono {r : Request} (h : r.Receipted env past) (hs : past ⊆ past') :
    r.Receipted env past' := by
  intro req message hr
  obtain ⟨hfresh, hver⟩ := h req message hr
  exact ⟨hfresh.mono hs, hver.mono hs⟩

/-- The history grew, without inserting a row. -/
def Grows (past past' : History) : Prop :=
  ∃ es : History, past' = past ++ es ∧ ∀ e ∈ es, ∀ t, e.op ≠ .insertTransfer t

theorem Grows.subset (h : Grows past past') : past ⊆ past' := by
  obtain ⟨es, rfl, -⟩ := h
  exact List.subset_append_left past es

theorem Uninserted.grow (hp : Uninserted past) (h : Grows past past') : Uninserted past' := by
  obtain ⟨es, rfl, hes⟩ := h
  intro e he
  rcases List.mem_append.mp he with he | he
  · exact hp e he
  · exact hes e he

theorem grows_snoc (past : History) (op : Op) (hop : ∀ t, op ≠ .insertTransfer t)
    (answer : op.Answer) : Grows past (past ++ [⟨op, answer⟩]) :=
  ⟨[⟨op, answer⟩], rfl, by simpa using hop⟩

theorem Grows.trans {past'' : History} (h : Grows past past') (h' : Grows past' past'') :
    Grows past past'' := by
  obtain ⟨es, rfl, hes⟩ := h
  obtain ⟨es', rfl, hes'⟩ := h'
  refine ⟨es ++ es', by simp, ?_⟩
  intro e he
  rcases List.mem_append.mp he with he | he
  · exact hes e he
  · exact hes' e he

theorem IntentChecked.grow {req : CreateTransferRequest} {sizeBytes : UInt64}
    (hc : IntentChecked env req past sizeBytes) (h : Grows past past') :
    IntentChecked env req past' sizeBytes :=
  ⟨hc.fresh.mono h.subset, hc.verified.mono h.subset, hc.nonce.mono h.subset, hc.first.grow h⟩

end Facts

section Rules

variable {α β ε : Type} {pre : History → Op → Prop} {post : History → Except ApiError α → Prop}
  {past : History}

/-- The `?` on a result, whatever the error is mapped to. -/
theorem spec_mapError_bind {x : Except ε β} {g : ε → ApiError} {f : β → Prog α}
    (herr : ∀ e, post past (.error e)) (hok : ∀ b, x = .ok b → (f b).Spec pre post past) :
    (lift (x.mapError g) >>= f : Prog α).Spec pre post past := by
  rw [Program.spec_lift_bind]
  refine ⟨?_, fun e _ => herr e⟩
  intro b hb
  cases x with
  | error e => cases hb
  | ok a => exact hok b (by cases hb; rfl)

theorem spec_ask_bind {op : Op} {f : op.Answer → Prog α} (hop : ∀ t, op ≠ .insertTransfer t)
    (hpre : pre past op)
    (hok : ∀ r past', Grows past past' → Saw past' op r → (f r).Spec pre post past') :
    (ask op >>= f).Spec pre post past :=
  ⟨hpre, fun r => hok r _ (grows_snoc past op hop r) (saw_snoc past op r)⟩

theorem spec_checkNonce_bind {nonce message : String} {f : Unit → Prog α}
    (herr : ∀ e, post past (.error e)) (hok : (f ()).Spec pre post past) :
    (checkNonce nonce message >>= f).Spec pre post past := by
  rw [Program.spec_bind]
  unfold checkNonce
  rw [Program.spec_ensure_bind]
  refine ⟨fun _ => ?_, fun _ => herr _⟩
  rw [Program.spec_ensure]
  exact ⟨fun _ => hok, fun _ => herr _⟩

theorem spec_checkSkew_bind_exact {issuedAt : Int64} {message : String} {f : Int64 → Prog α}
    (hpre : pre past .clockNow) (herr : ∀ t e, post (past ++ [⟨.clockNow, t⟩]) (.error e))
    (hok : ∀ t, isWithinClockSkew (unixTimestamp t) issuedAt = true →
      (f (unixTimestamp t)).Spec pre post (past ++ [⟨.clockNow, t⟩])) :
    (checkSkew issuedAt message >>= f).Spec pre post past := by
  rw [Program.spec_bind]
  unfold checkSkew
  rw [Program.spec_call_bind]
  refine ⟨hpre, fun t => ?_⟩
  rw [Program.spec_ensure_bind]
  exact ⟨fun hskew => hok t hskew, fun _ => herr t _⟩

theorem spec_checkSkew_bind {issuedAt : Int64} {message : String} {f : Int64 → Prog α}
    (hpre : pre past .clockNow) (herr : ∀ t e, post (past ++ [⟨.clockNow, t⟩]) (.error e))
    (hok : ∀ t past', Grows past past' → Fresh past' issuedAt →
      (f (unixTimestamp t)).Spec pre post past') :
    (checkSkew issuedAt message >>= f).Spec pre post past :=
  spec_checkSkew_bind_exact hpre herr fun t hskew =>
    hok t _ (grows_snoc past .clockNow (by simp) t) ⟨t, saw_snoc past .clockNow t, hskew⟩

theorem spec_verifyWithValidKeys_bind (message : Message) {env : Env}
    {agentId signatureHex : String} {at_ : Timestamp} {canonical signature : Bytes}
    {f : Unit → Prog α}
    (hcanonical : message.encode = .ok canonical)
    (hsignature : hexDecode signatureHex = .ok signature)
    (hpre : pre past (.validKeysAt agentId at_)) (hnow : Saw past .clockNow at_)
    (herr : ∀ past e, post past (.error e))
    (hok : ∀ past', Grows past past' → Verified env past' agentId message signatureHex →
      (f ()).Spec pre post past') :
    (verifyWithValidKeys env agentId at_ canonical signature >>= f).Spec pre post past := by
  rw [Program.spec_bind]
  unfold verifyWithValidKeys
  rw [Program.spec_ensure_bind]
  refine ⟨fun _ => ⟨hpre, fun rows => ?_⟩, fun _ => herr _ _⟩
  refine spec_mapError_bind (fun _ => herr _ _) fun keys hkeys => ?_
  subst hkeys
  rw [Program.spec_ensure_bind]
  refine ⟨fun _ => ?_, fun _ => herr _ _⟩
  rw [Program.spec_ensure]
  refine ⟨fun hany => ?_, fun _ => herr _ _⟩
  obtain ⟨row, hrow, hver⟩ := List.any_eq_true.mp hany
  have hgrow := grows_snoc past (.validKeysAt agentId at_) (by simp) (.ok keys)
  refine hok _ hgrow ⟨at_, keys, hnow.mono hgrow.subset,
    saw_snoc past (.validKeysAt agentId at_) (.ok keys), ?_⟩
  exact ⟨canonical, signature, hcanonical, hsignature, row, hrow, hver⟩

end Rules

end AgentExchange.ControlPlane
