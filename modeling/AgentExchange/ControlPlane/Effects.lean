import AgentExchange.ControlPlane.Db
import AgentExchange.Audit.Log
import AgentExchange.Library.TaskPool

/-!
# What a handler can do

Every await point of a handler is one atomic operation: a statement or a
transaction on the tables, a call to the blob store or the audit log, a reading of
the clock, a draw of random bytes, a probe, a scan or a policy decision. `exec`
interprets them. A choice says what the world answers: whether the operation fails
before it takes effect, which bytes are drawn, what a probe or a scan finds.

The injected clock and the database clock are two readings the environment sets.
-/
namespace AgentExchange.ControlPlane

open Library

/-- What the server is built with. Ed25519, SHA-256 and the policy engine are parameters. -/
structure Env where
  /-- `VerifyingKey::from_bytes` on 32 bytes -/
  verifyingKey : Bytes → Except String Unit
  /-- `Verifier::verify`: key, message, signature -/
  verify : Bytes → Bytes → Bytes → Bool
  sha256 : Bytes → Bytes
  policy : PolicyRequest → PolicyDecision
  signer : Option (Bytes → Bytes)
  skipTunnelValidation : Bool

inductive ApiError where
  | badRequest (message : String)
  | unauthorized (message : String)
  | notFound (message : String)
  | conflict (message : String)
  | internal (message : String)
  deriving DecidableEq

def SqlxError.display : SqlxError → String
  | .rowNotFound => "no rows returned by a query that expected to return at least one row"
  | .uniqueViolation constraint =>
    "duplicate key value violates unique constraint \"" ++ constraint ++ "\""
  | .other message => message

/-- `From<sqlx::Error>`. -/
def ApiError.ofSqlx : SqlxError → ApiError
  | .rowNotFound => .notFound "row not found"
  | other => .internal other.display

/-- `From<aex_core::Error>`. -/
def ApiError.ofCore : Error → ApiError
  | .invalidAgentId m => .badRequest ("invalid agent_id: " ++ m)
  | .unknownIdentityScheme => .badRequest "unknown identity scheme"
  | .signatureInvalid => .unauthorized "signature verification failed"
  | .signatureFormat m => .badRequest ("bad signature: " ++ m)
  | .keyUnavailable m => .internal ("key unavailable: " ++ m)
  | .notFound m => .notFound m
  | .io m => .internal m
  | .crypto m => .badRequest ("crypto error: " ++ m)
  | .internal m => .internal m

/-- What came back from one HTTP request of a probe. -/
inductive HttpAnswer where
  | response (status : String) (success : Bool)
  | failure (error : String)
  | timeout (latencyMs : UInt64)
  deriving DecidableEq

inductive Op where
  | clockNow
  | findAgent (agentId : String)
  | consumeNonce (nonce : String) (publicKey : Bytes)
  | insertAgent (agentId : String) (publicKey : Bytes) (fingerprint org name : String)
  | currentKey (agentId : String)
  | validKeysAt (agentId : String) (at_ : Timestamp)
  | consumeRotateNonce (nonce agentId : String)
  | insertRotation (agentId expectedHex newHex : String) (newKey : Bytes) (now : Timestamp)
  | consumeIntentNonce (nonce agentId : String)
  | insertTransfer (t : InsertTransfer)
  | findTransfer (transferId : String)
  | markAccepted (transferId : String)
  | markDelivered (transferId : String)
  | listInbox (recipient : String) (limit : ℕ)
  | insertTicketNonce (nonce transferId : String) (expiresAt : Int64)
  | loadInFlightTransfers
  | persistReachableAt (transferId : String) (endpoints : List Endpoint)
  | blobPut (transferId : String) (bytes : Bytes)
  | blobGet (transferId : String)
  | blobDelete (transferId : String)
  | auditAppend (event : Audit.Event)
  | scan (input : ScanInput)
  | evaluate (req : PolicyRequest)
  | buildHttpClient
  | httpGet (url : String)
  | budgetLeft
  | random16

abbrev Op.Answer : Op → Type
  | .clockNow => Timestamp
  | .findAgent _ => Except SqlxError (Option AgentRow)
  | .consumeNonce _ _ => Except SqlxError Bool
  | .insertAgent _ _ _ _ _ => Except SqlxError AgentRow
  | .currentKey _ => Except SqlxError (Option AgentKeyRow)
  | .validKeysAt _ _ => Except SqlxError (List AgentKeyRow)
  | .consumeRotateNonce _ _ => Except SqlxError Bool
  | .insertRotation _ _ _ _ _ => Except SqlxError AgentKeyRow
  | .consumeIntentNonce _ _ => Except SqlxError Bool
  | .insertTransfer _ => Except SqlxError TransferRow
  | .findTransfer _ => Except SqlxError (Option TransferRow)
  | .markAccepted _ => Except SqlxError ℕ
  | .markDelivered _ => Except SqlxError ℕ
  | .listInbox _ _ => Except SqlxError (List TransferRow)
  | .insertTicketNonce _ _ _ => Except SqlxError Unit
  | .loadInFlightTransfers => Except SqlxError (List (String × List Endpoint))
  | .persistReachableAt _ _ => Except SqlxError ℕ
  | .blobPut _ _ => Except String Unit
  | .blobGet _ => Except String Bytes
  | .blobDelete _ => Except String Unit
  | .auditAppend _ => Except Audit.AuditError Audit.EventReceipt
  | .scan _ => PipelineVerdict
  | .evaluate _ => PolicyDecision
  | .buildHttpClient => Except String Unit
  | .httpGet _ => HttpAnswer
  | .budgetLeft => Bool
  | .random16 => Bytes

abbrev effects : Signature := ⟨Op, Op.Answer⟩

/-- A handler's program. -/
abbrev Prog := Program effects ApiError

abbrev ask (op : Op) : Prog op.Answer := Program.call (S := effects) op

/-- What the world answers to one operation. -/
structure Choice where
  failure : Option String := none
  bytes : Bytes := []
  verdict : PipelineVerdict := ⟨.clean, [], 0⟩
  http : HttpAnswer := .response "200 OK" true
  budgetLeft : Bool := true
  receipt : Audit.EventReceipt := ⟨"", 0, ⟨0, 0⟩, ""⟩

structure State where
  db : Db := {}
  blobs : List (String × Bytes) := []
  audit : List Audit.Event := []
  now : Timestamp := 0
  dbNow : Timestamp := 0

namespace State

/-- A query that may fail. -/
def read {α : Type} (c : Choice) (a : α) : Except SqlxError α :=
  match c.failure with
  | some message => .error (.other message)
  | none => .ok a

/-- A statement that may fail; if it does, nothing is written. -/
def write {α : Type} (s : State) (c : Choice) (out : Except SqlxError (α × Db)) :
    Except SqlxError α × State :=
  match c.failure with
  | some message => (.error (.other message), s)
  | none =>
    match out with
    | .error e => (.error e, s)
    | .ok (a, db) => (.ok a, { s with db := db })

def storeBlob (s : State) (c : Choice) (blobs : List (String × Bytes)) :
    Except String Unit × State :=
  match c.failure with
  | some message => (.error message, s)
  | none => (.ok (), { s with blobs := blobs })

def loadBlob (s : State) (c : Choice) (transferId : String) : Except String Bytes :=
  match c.failure with
  | some message => .error message
  | none =>
    match s.blobs.lookup transferId with
    | some bytes => .ok bytes
    | none => .error "blob not found"

def appendAudit (s : State) (c : Choice) (event : Audit.Event) :
    Except Audit.AuditError Audit.EventReceipt × State :=
  match c.failure with
  | some message => (.error (.io message), s)
  | none =>
    if Audit.isObject event.payload then
      (.ok c.receipt, { s with audit := s.audit ++ [event] })
    else (.error (.invalidEvent "payload must be a JSON object"), s)

end State

open State in
/-- One atomic operation. -/
def exec (env : Env) (s : State) : (op : Op) → Choice → op.Answer × State
  | .clockNow, _ => (s.now, s)
  | .findAgent agentId, c => (read c (s.db.findAgent agentId), s)
  | .consumeNonce nonce publicKey, c =>
    let out := consume s.db.registrationNonces nonce publicKey
    s.write c (.ok (out.1, { s.db with registrationNonces := out.2 }))
  | .insertAgent agentId publicKey fingerprint org name, c =>
    s.write c (s.db.insertAgent s.dbNow agentId publicKey fingerprint org name)
  | .currentKey agentId, c => (read c (s.db.currentKey agentId), s)
  | .validKeysAt agentId at_, c => (read c (s.db.validKeysAt agentId at_), s)
  | .consumeRotateNonce nonce agentId, c =>
    let out := consume s.db.rotateKeyNonces nonce agentId
    s.write c (.ok (out.1, { s.db with rotateKeyNonces := out.2 }))
  | .insertRotation agentId expectedHex newHex newKey now, c =>
    s.write c (s.db.insertRotation agentId expectedHex newHex newKey now)
  | .consumeIntentNonce nonce agentId, c =>
    let out := consume s.db.transferIntentNonces nonce agentId
    s.write c (.ok (out.1, { s.db with transferIntentNonces := out.2 }))
  | .insertTransfer t, c => s.write c (s.db.insertTransfer s.dbNow t)
  | .findTransfer transferId, c => (read c (s.db.findTransfer transferId), s)
  | .markAccepted transferId, c => s.write c (.ok (s.db.markAccepted s.dbNow transferId))
  | .markDelivered transferId, c => s.write c (.ok (s.db.markDelivered s.dbNow transferId))
  | .listInbox recipient limit, c => (read c (s.db.listInbox recipient limit), s)
  | .insertTicketNonce nonce transferId expiresAt, c =>
    s.write c ((s.db.insertTicketNonce nonce transferId expiresAt).map fun db => ((), db))
  | .loadInFlightTransfers, c => (read c s.db.loadInFlightTransfers, s)
  | .persistReachableAt transferId endpoints, c =>
    s.write c (.ok (s.db.persistReachableAt transferId endpoints))
  | .blobPut transferId bytes, c =>
    s.storeBlob c ((transferId, bytes) :: s.blobs.filter fun b => b.1 ≠ transferId)
  | .blobGet transferId, c => (s.loadBlob c transferId, s)
  | .blobDelete transferId, c => s.storeBlob c (s.blobs.filter fun b => b.1 ≠ transferId)
  | .auditAppend event, c => s.appendAudit c event
  | .scan _, c => (c.verdict, s)
  | .evaluate req, _ => (env.policy req, s)
  | .buildHttpClient, c =>
    (match c.failure with
      | some message => .error message
      | none => .ok (), s)
  | .httpGet _, c => (c.http, s)
  | .budgetLeft, c => (c.budgetLeft, s)
  | .random16, c => (c.bytes, s)

end AgentExchange.ControlPlane
