import AgentExchange.ControlPlane.Agents

/-!
# Transfer endpoints

`create_transfer` with its three branches, the recipient's requests, ticket
issuance, the inbox, and one pass of the health monitor. Parallel probes touch no
shared state, so they are written one after the other.
-/
namespace AgentExchange.ControlPlane

open Library Wire
open Program (lift ensure okOr)

structure CreateTransferRequest where
  senderAgentId : String
  recipient : String
  declaredMime : String := ""
  filename : String := ""
  nonce : String
  issuedAt : Int64
  intentSignatureHex : String
  blobHex : String := ""
  tunnelUrl : Option String := none
  reachableAt : Option (List Endpoint) := none
  declaredSize : Option UInt64 := none
  deriving DecidableEq

structure TransferResponse where
  transferId : String
  state : TransferState
  senderAgentId : String
  recipient : String
  sizeBytes : UInt64
  declaredMime : Option String
  filename : Option String
  scannerVerdict : Option PipelineVerdict
  policyDecision : Option PolicyDecision
  rejectionCode : Option String
  rejectionReason : Option String
  createdAt : Timestamp
  deriving DecidableEq

def rowToResponse (row : TransferRow) : TransferResponse where
  transferId := row.transferId
  state := row.state
  senderAgentId := row.senderAgentId
  recipient := row.recipient
  sizeBytes := row.sizeBytes.toUInt64
  declaredMime := row.declaredMime
  filename := row.filename
  scannerVerdict := row.scannerVerdict
  policyDecision := row.policyDecision
  rejectionCode := row.rejectionCode
  rejectionReason := row.rejectionReason
  createdAt := row.createdAt

def classifyRecipient (recipient : String) : RecipientKind :=
  if startsWith "spize:" recipient then .spizeNative
  else if startsWith "did:" recipient then .did
  else if '@' ∈ recipient.toList ∨ startsWith "+" recipient then .humanBridge
  else .unknown

def recipientKindStr : RecipientKind → String
  | .spizeNative => "spize_native"
  | .did => "did"
  | .humanBridge => "human_bridge"
  | .unknown => "unknown"

def optStr (s : String) : Option String := if s.isEmpty then none else some s

/-- Append to the audit log; a failure is logged and the request goes on. -/
def auditWarn (event : Audit.Event) : Prog Unit := do
  let _ ← ask (.auditAppend event)

/-! ## Probes -/

def trimEndSlashes (s : String) : String :=
  String.ofList (s.toList.reverse.dropWhile (· = '/')).reverse

def healthzUrl (url : String) : String := trimEndSlashes url ++ "/healthz"

/-- The attempts left of `verify_tunnel_http_healthz`. -/
def healthzAttempts (tunnelUrl : String) : ℕ → String → Prog Unit
  | 0, lastErr =>
    throw (.badRequest ("tunnel_url " ++ tunnelUrl ++
      " did not respond 200 on /healthz after 6 attempts (last: " ++ lastErr ++
      "). Ensure the data plane is running and AEX_READY=1 has been emitted before calling " ++
      "send_via_tunnel."))
  | n + 1, _ => do
    let answer ← ask (.httpGet (healthzUrl tunnelUrl))
    match answer with
    | .response _ true => pure ()
    | .response status false => healthzAttempts tunnelUrl n ("status " ++ status)
    | .failure error => healthzAttempts tunnelUrl n error
    | .timeout latencyMs => healthzAttempts tunnelUrl n ("timeout after " ++ toString latencyMs ++ "ms")

def verifyTunnelHttpHealthz (tunnelUrl : String) : Prog Unit := do
  let client ← ask .buildHttpClient
  lift (client.mapError fun e => .internal ("aex-net http client build: " ++ e))
  healthzAttempts tunnelUrl 6 ""

/-- The probe is skipped where the environment says so. -/
def checkTunnel (env : Env) (tunnelUrl : String) : Prog Unit :=
  if env.skipTunnelValidation then pure () else verifyTunnelHttpHealthz tunnelUrl

structure EndpointProbeResult where
  healthy : Bool
  error : Option String
  deriving DecidableEq

def probeHttpHealthz (ep : Endpoint) : Prog EndpointProbeResult := do
  let answer ← ask (.httpGet (healthzUrl ep.url))
  pure (match answer with
    | .response _ true => ⟨true, none⟩
    | .response status false => ⟨false, some ("http status " ++ status)⟩
    | .failure error => ⟨false, some error⟩
    | .timeout latencyMs => ⟨false, some ("timeout after " ++ toString latencyMs ++ "ms")⟩)

def probeEndpoint (ep : Endpoint) : Prog EndpointProbeResult := do
  let budgetLeft ← ask .budgetLeft
  if !budgetLeft then
    pure ⟨false, some "budget exhausted before probe started"⟩
  else if ep.kind ∈ [Endpoint.kindCloudflareQuick, Endpoint.kindCloudflareNamed,
      Endpoint.kindTailscaleFunnel, Endpoint.kindFrp] then
    probeHttpHealthz ep
  else if ep.kind = Endpoint.kindIroh then
    pure ⟨true, none⟩
  else
    pure ⟨false, some ("unknown endpoint kind: " ++ ep.kind)⟩

def validateAll : List Endpoint → Prog (List EndpointProbeResult)
  | [] => pure []
  | ep :: rest => do
    let result ← probeEndpoint ep
    let results ← validateAll rest
    pure (result :: results)

def atLeastOneHealthy (results : List EndpointProbeResult) : Bool := results.any (·.healthy)

def healthyEndpoints (results : List EndpointProbeResult) (input : List Endpoint) :
    List Endpoint :=
  (input.zipIdx.filter fun p => (results[p.2]?.map (·.healthy)).getD false).map Prod.fst

/-! ## POST / -/

/-- The error mapping the two branches without a blob put around the nonce table. -/
def intentConflict : SqlxError → ApiError
  | .uniqueViolation constraint =>
    if constraint = "transfer_intent_nonces_pkey" then .conflict "intent nonce already used"
    else .ofSqlx (.uniqueViolation constraint)
  | e => .ofSqlx e

/-- Signature check and nonce of the two branches without a blob. The sender and the nonce
stand in each other's place in the nonce table, and the answer of the table is dropped. -/
def admitDeclared (env : Env) (req : CreateTransferRequest) (sender : AgentId)
    (declaredSize : UInt64) : Prog Unit := do
  let canonical ← orBadRequest "cannot build intent: " Error.display
    (transferIntentBytes sender.asStr req.recipient declaredSize req.declaredMime req.filename
      req.nonce req.issuedAt)
  let signature ← orBadRequest "intent_signature_hex: " FromHexError.display
    (hexDecode req.intentSignatureHex)
  let now ← ask .clockNow
  verifyWithValidKeys env sender.asStr now canonical signature
  let consumed ← ask (.consumeIntentNonce sender.asStr req.nonce)
  let _ ← lift (consumed.mapError intentConflict)

/-- The row of a transfer whose bytes stay with the sender. -/
def declaredInsert (req : CreateTransferRequest) (sender : AgentId) (declaredSize : UInt64)
    (transferId : String) (tunnelUrl : Option String) (reachableAt : List Endpoint) :
    InsertTransfer where
  transferId := transferId
  senderAgentId := sender.asStr
  recipient := req.recipient
  recipientKind := recipientKindStr (classifyRecipient req.recipient)
  state := .readyForPickup
  sizeBytes := declaredSize.toInt64
  declaredMime := optStr req.declaredMime
  filename := optStr req.filename
  tunnelUrl := tunnelUrl
  reachableAt := reachableAt

def insertRow (t : InsertTransfer) : Prog TransferRow := do
  let inserted ← ask (.insertTransfer t)
  orSqlx inserted

def firstProbeError (results : List EndpointProbeResult) : String :=
  (results.findSome? (·.error)).getD "no endpoints reachable"

def createReachable (env : Env) (req : CreateTransferRequest) (sender : AgentId)
    (endpoints : List Endpoint) : Prog (ℕ × TransferResponse) := do
  ensure (endpoints ≠ [])
    (.badRequest "reachable_at[] must contain at least one endpoint")
  ensure (req.blobHex.isEmpty) (.badRequest "blob_hex and reachable_at are mutually exclusive")
  ensure (req.tunnelUrl = none) (.badRequest "tunnel_url and reachable_at are mutually exclusive")
  let declaredSize ← okOr req.declaredSize
    (.badRequest "declared_size is required when reachable_at is set")
  let results ← validateAll endpoints
  ensure (atLeastOneHealthy results)
    (.badRequest ("all reachable_at endpoints failed validation (" ++ toString endpoints.length ++
      " entries). First error: " ++ firstProbeError results))
  let healthy := healthyEndpoints results endpoints
  admitDeclared env req sender declaredSize
  let id ← ask .random16
  let legacyTunnelUrl := (healthy.find? fun e => startsWith "https://" e.url).map (·.url)
  let row ← insertRow (declaredInsert req sender declaredSize ("tx_" ++ hexEncode id)
    legacyTunnelUrl healthy)
  pure (201, rowToResponse row)

def createTunnel (env : Env) (req : CreateTransferRequest) (sender : AgentId)
    (tunnelUrl : String) : Prog (ℕ × TransferResponse) := do
  ensure (startsWith "https://" tunnelUrl) (.badRequest "tunnel_url must be https://")
  let declaredSize ← okOr req.declaredSize
    (.badRequest "declared_size is required when tunnel_url is set")
  ensure (req.blobHex.isEmpty) (.badRequest "blob_hex and tunnel_url are mutually exclusive")
  checkTunnel env tunnelUrl
  admitDeclared env req sender declaredSize
  let id ← ask .random16
  let row ← insertRow (declaredInsert req sender declaredSize ("tx_" ++ hexEncode id)
    (some tunnelUrl) [{ kind := Endpoint.kindCloudflareQuick, url := tunnelUrl }])
  pure (201, rowToResponse row)

def persistRejected (transferId : String) (sender : AgentId) (req : CreateTransferRequest)
    (recipientKind : RecipientKind) (sizeBytes : UInt64) (verdict : Option PipelineVerdict)
    (policyDecision : PolicyDecision) (code reason : String) : Prog TransferRow := do
  let row ← insertRow
    { transferId := transferId
      senderAgentId := sender.asStr
      recipient := req.recipient
      recipientKind := recipientKindStr recipientKind
      state := .rejected
      sizeBytes := sizeBytes.toInt64
      declaredMime := optStr req.declaredMime
      filename := optStr req.filename
      scannerVerdict := verdict
      policyDecision := some policyDecision
      rejectionCode := some code
      rejectionReason := some reason }
  auditWarn ⟨.transferRejected, sender.asStr, transferId,
    .obj [("code", .str code), ("reason", .str reason)]⟩
  pure row

def optJson (s : Option String) : Json :=
  match s with
  | some s => .str s
  | none => .null

/-- The row of a blob both decisions let through. -/
def storedInsert (env : Env) (req : CreateTransferRequest) (sender : AgentId) (blob : Bytes)
    (transferId : String) (verdict : PipelineVerdict) (decision : PolicyDecision) :
    InsertTransfer where
  transferId := transferId
  senderAgentId := sender.asStr
  recipient := req.recipient
  recipientKind := recipientKindStr (classifyRecipient req.recipient)
  state := .readyForPickup
  sizeBytes := (UInt64.ofNat blob.length).toInt64
  declaredMime := optStr req.declaredMime
  filename := optStr req.filename
  blobSha256 := some (hexEncode (env.sha256 blob))
  scannerVerdict := some verdict
  policyDecision := some decision

def preScanRequest (req : CreateTransferRequest) (sender : AgentId) (senderOrg : String)
    (sizeBytes : UInt64) : PolicyRequest where
  sender := sender
  senderOrg := senderOrg
  recipient := req.recipient
  recipientKind := classifyRecipient req.recipient
  sizeBytes := sizeBytes
  declaredMime := optStr req.declaredMime

def postScanRequest (req : CreateTransferRequest) (sender : AgentId) (senderOrg : String)
    (sizeBytes : UInt64) (verdict : PipelineVerdict) : PolicyRequest :=
  { preScanRequest req sender senderOrg sizeBytes with scannerVerdict := some verdict }

def createBlob (env : Env) (req : CreateTransferRequest) (sender : AgentId)
    (senderRow : AgentRow) : Prog (ℕ × TransferResponse) := do
  let blob ← orBadRequest "blob_hex: " FromHexError.display (hexDecode req.blobHex)
  let signature ← orBadRequest "intent_signature_hex: " FromHexError.display
    (hexDecode req.intentSignatureHex)
  let sizeBytes := UInt64.ofNat blob.length
  let canonical ← orBadRequest "cannot build intent: " Error.display
    (transferIntentBytes sender.asStr req.recipient sizeBytes req.declaredMime req.filename
      req.nonce req.issuedAt)
  let now ← ask .clockNow
  verifyWithValidKeys env sender.asStr now canonical signature
  let fresh ← ask (.consumeIntentNonce req.nonce sender.asStr)
  let fresh ← orSqlx fresh
  ensure (fresh = true) (.conflict "intent nonce already used")
  let id ← ask .random16
  let transferId := "tx_" ++ hexEncode id
  let recipientKind := classifyRecipient req.recipient
  auditWarn ⟨.transferInitiated, sender.asStr, transferId,
    .obj [("recipient", .str req.recipient),
      ("recipient_kind", .str (recipientKindStr recipientKind)),
      ("size_bytes", .num (.ofUInt64 sizeBytes)), ("declared_mime", optJson (optStr req.declaredMime)),
      ("filename", optJson (optStr req.filename))]⟩
  let preDecision ← ask (.evaluate (preScanRequest req sender senderRow.org sizeBytes))
  auditWarn ⟨.transferPolicyDecision, sender.asStr, transferId,
    .obj [("phase", .str "pre_scan"), ("decision", preDecision.toJson)]⟩
  match preDecision with
  | .deny code reason => do
    let row ← persistRejected transferId sender req recipientKind sizeBytes none
      (.deny code reason) code reason
    pure (200, rowToResponse row)
  | _ => do
    let verdict ← ask (.scan ⟨blob, optStr req.declaredMime, optStr req.filename⟩)
    auditWarn ⟨.transferScannerVerdict, sender.asStr, transferId, verdict.toJson⟩
    let postDecision ← ask (.evaluate
      (postScanRequest req sender senderRow.org sizeBytes verdict))
    auditWarn ⟨.transferPolicyDecision, sender.asStr, transferId,
      .obj [("phase", .str "post_scan"), ("decision", postDecision.toJson)]⟩
    match postDecision with
    | .deny code reason => do
      let row ← persistRejected transferId sender req recipientKind sizeBytes (some verdict)
        (.deny code reason) code reason
      pure (200, rowToResponse row)
    | _ => do
      let put ← ask (.blobPut transferId blob)
      lift (put.mapError .internal)
      let row ← insertRow (storedInsert env req sender blob transferId verdict postDecision)
      pure (201, rowToResponse row)

def createTransfer (env : Env) (req : CreateTransferRequest) : Prog (ℕ × TransferResponse) := do
  let sender ← orCore (AgentId.new req.senderAgentId)
  let found ← ask (.findAgent sender.asStr)
  let found ← orSqlx found
  let senderRow ← okOr found (.unauthorized "unknown sender")
  ensure (req.recipient.isEmpty = false) (.badRequest "recipient is empty")
  checkNonce req.nonce "nonce length out of range"
  let _ ← checkSkew req.issuedAt "issued_at outside allowed skew"
  match req.reachableAt with
  | some endpoints => createReachable env req sender endpoints
  | none =>
    match req.tunnelUrl with
    | some tunnelUrl => createTunnel env req sender tunnelUrl
    | none => createBlob env req sender senderRow

def getTransfer (transferId : String) : Prog TransferResponse := do
  let found ← ask (.findTransfer transferId)
  let found ← orSqlx found
  let row ← okOr found (.notFound ("transfer " ++ transferId ++ " not found"))
  pure (rowToResponse row)

/-! ## The recipient's requests -/

/-- `RecipientReceiptRequest`, `TicketRequest` and `InboxRequest` have the same fields. -/
structure RecipientReceiptRequest where
  recipientAgentId : String
  nonce : String
  issuedAt : Int64
  signatureHex : String
  deriving DecidableEq

def verifyRecipientReceipt (env : Env) (transferId : String) (req : RecipientReceiptRequest)
    (action : String) : Prog TransferRow := do
  checkNonce req.nonce "nonce length out of range"
  let _ ← checkSkew req.issuedAt "issued_at outside allowed skew"
  let recipient ← orCore (AgentId.new req.recipientAgentId)
  let found ← ask (.findTransfer transferId)
  let found ← orSqlx found
  let row ← okOr found (.notFound ("transfer " ++ transferId ++ " not found"))
  ensure (row.recipient = recipient.asStr) (.unauthorized "you are not the recipient")
  let canonical ← orBadRequest "canonical: " Error.display
    (transferReceiptBytes recipient.asStr transferId action req.nonce req.issuedAt)
  let signature ← orBadRequest "signature_hex: " FromHexError.display (hexDecode req.signatureHex)
  let now ← ask .clockNow
  verifyWithValidKeys env recipient.asStr now canonical signature
  pure row

structure DownloadResponse where
  transferId : String
  blobHex : String
  blobSha256 : String
  filename : Option String
  declaredMime : Option String
  deriving DecidableEq

def downloadTransfer (env : Env) (transferId : String) (req : RecipientReceiptRequest) :
    Prog DownloadResponse := do
  let row ← verifyRecipientReceipt env transferId req "download"
  ensure (row.state ≠ .rejected) (.notFound "transfer was rejected")
  ensure (row.state = .readyForPickup ∨ row.state = .accepted)
    (.conflict ("transfer is in state '" ++ row.state.asStr ++ "', cannot download"))
  let bytes ← ask (.blobGet transferId)
  let bytes ← lift (bytes.mapError .internal)
  let marked ← ask (.markAccepted transferId)
  let _ ← orSqlx marked
  auditWarn ⟨.transferAccepted, req.recipientAgentId, transferId, .obj [("nonce", .str req.nonce)]⟩
  pure ⟨row.transferId, hexEncode bytes, row.blobSha256.getD "", row.filename, row.declaredMime⟩

structure AckResponse where
  transferId : String
  state : TransferState
  auditChainHead : String
  deriving DecidableEq

def AuditError.display : Audit.AuditError → String
  | .io m => "I/O error: " ++ m
  | .serialization m => "serialization error: " ++ m
  | .chainBroken position expected found =>
    "chain broken at position " ++ toString position ++ ": expected prev_hash " ++ expected ++
      ", found " ++ found
  | .hashMismatch position stored recomputed =>
    "hash mismatch at position " ++ toString position ++ ": stored " ++ stored ++
      ", recomputed " ++ recomputed
  | .invalidEvent m => "invalid event: " ++ m

def ackTransfer (env : Env) (transferId : String) (req : RecipientReceiptRequest) :
    Prog AckResponse := do
  let _ ← verifyRecipientReceipt env transferId req "ack"
  let marked ← ask (.markDelivered transferId)
  let updated ← orSqlx marked
  ensure (updated ≠ 0) (.conflict "transfer is not in a state that can be acked")
  let appended ← ask (.auditAppend
    ⟨.transferDelivered, req.recipientAgentId, transferId, .obj [("nonce", .str req.nonce)]⟩)
  let receipt ← lift (appended.mapError fun e => .internal (AuditError.display e))
  let _ ← ask (.blobDelete transferId)
  pure ⟨transferId, .delivered, receipt.chainHead⟩

structure TicketResponse where
  transferId : String
  recipient : String
  dataPlaneUrl : String
  expires : Int64
  nonce : String
  signature : String
  deriving DecidableEq

def ticketAction : String := "request_ticket"
def ticketTtlSeconds : Int64 := 60

def issueTicket (env : Env) (transferId : String) (req : RecipientReceiptRequest) :
    Prog TicketResponse := do
  let sign ← okOr env.signer (.internal "control plane signing key is not configured")
  let recipient ← orCore (AgentId.new req.recipientAgentId)
  checkNonce req.nonce "nonce length out of range"
  let nowUnix ← checkSkew req.issuedAt "issued_at outside allowed skew"
  let found ← ask (.findTransfer transferId)
  let found ← orSqlx found
  let row ← okOr found (.notFound ("unknown transfer: " ++ transferId))
  ensure (row.recipient = recipient.asStr) (.unauthorized "recipient does not match transfer")
  ensure (row.state = .readyForPickup)
    (.badRequest ("transfer is in state '" ++ row.state.asStr ++ "', not ready_for_pickup"))
  let tunnelUrl ← okOr row.tunnelUrl (.badRequest "transfer has no data-plane tunnel URL")
  let canonical ← orBadRequest "canonicalisation: " Error.display
    (transferReceiptBytes recipient.asStr transferId ticketAction req.nonce req.issuedAt)
  let signature ← orBadRequest "receipt_signature_hex: " FromHexError.display
    (hexDecode req.signatureHex)
  let now ← ask .clockNow
  verifyWithValidKeys env recipient.asStr now canonical signature
  let expires := nowUnix + ticketTtlSeconds
  let ticketNonce ← ask .random16
  let canon ← lift ((dataTicketBytes transferId recipient.asStr tunnelUrl expires
    (hexEncode ticketNonce)).mapError fun e => .internal ("canonicalisation: " ++ e.display))
  let inserted ← ask (.insertTicketNonce (hexEncode ticketNonce) transferId expires)
  orSqlx inserted
  pure ⟨transferId, recipient.asStr, tunnelUrl, expires, hexEncode ticketNonce,
    hexEncode (sign canon)⟩

structure InboxEntry where
  transferId : String
  senderAgentId : String
  state : TransferState
  sizeBytes : UInt64
  declaredMime : Option String
  filename : Option String
  createdAt : Timestamp
  deriving DecidableEq

structure InboxResponse where
  agentId : String
  count : ℕ
  entries : List InboxEntry
  deriving DecidableEq

def inboxTransferMarker : String := "inbox"
def inboxLimit : ℕ := 100

def listInbox (env : Env) (req : RecipientReceiptRequest) : Prog InboxResponse := do
  checkNonce req.nonce "nonce length out of range"
  let _ ← checkSkew req.issuedAt "issued_at outside allowed skew"
  let recipient ← orCore (AgentId.new req.recipientAgentId)
  let canonical ← orBadRequest "canonical: " Error.display
    (transferReceiptBytes recipient.asStr inboxTransferMarker "inbox" req.nonce req.issuedAt)
  let signature ← orBadRequest "signature_hex: " FromHexError.display (hexDecode req.signatureHex)
  let now ← ask .clockNow
  verifyWithValidKeys env recipient.asStr now canonical signature
  let rows ← ask (.listInbox recipient.asStr inboxLimit)
  let rows ← orSqlx rows
  let entries := rows.map fun r => (⟨r.transferId, r.senderAgentId, r.state,
    r.sizeBytes.toUInt64, r.declaredMime, r.filename, r.createdAt⟩ : InboxEntry)
  pure ⟨recipient.asStr, entries.length, entries⟩

/-! ## The health monitor -/

def foldHealth (ep : Endpoint) (success : Bool) (nowUnix : Int64) : Endpoint :=
  let current := ep.health.getD (.freshHealthy nowUnix)
  { ep with health := some (if success then current.onProbeSuccess nowUnix
      else current.onProbeFailure nowUnix) }

/-- `ValidatorProber::probe` on every endpoint, folded into its health. -/
def probeAll (nowUnix : Int64) : List Endpoint → Prog (List Endpoint)
  | [] => pure []
  | ep :: rest => do
    let results ← validateAll [ep]
    let updated ← probeAll nowUnix rest
    pure (foldHealth ep (atLeastOneHealthy results) nowUnix :: updated)

def tickRows (nowUnix : Int64) : List (String × List Endpoint) → ℕ → Prog ℕ
  | [], touched => pure touched
  | (transferId, endpoints) :: rest, touched =>
    if endpoints.isEmpty then tickRows nowUnix rest touched
    else do
      let updated ← probeAll nowUnix endpoints
      let persisted ← ask (.persistReachableAt transferId updated)
      let _ ← orSqlx persisted
      tickRows nowUnix rest (touched + 1)

/-- One pass over the transfers in flight: how many were touched. -/
def tick : Prog ℕ := do
  let rows ← ask .loadInFlightTransfers
  let rows ← orSqlx rows
  let now ← ask .clockNow
  tickRows (unixTimestamp now) rows 0

end AgentExchange.ControlPlane
