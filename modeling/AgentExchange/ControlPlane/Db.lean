import AgentExchange.Core.Endpoint
import AgentExchange.Policy.Engine

/-!
# The control plane's tables

The Postgres tables as lists of rows, and each statement or transaction of the
database layer as one function on them. A unique index is checked where the
statement that could violate it runs; a statement that fails leaves the tables as
they were. Timestamps are microseconds, the precision of `TIMESTAMPTZ`.

Surrogate keys and columns nothing reads back are left out, and the endpoint list
of a transfer is kept as the list its JSON column holds.
-/
namespace AgentExchange.ControlPlane

/-- Microseconds since the Unix epoch. -/
abbrev Timestamp := ℤ

/-- `OffsetDateTime::unix_timestamp`. -/
def unixTimestamp (t : Timestamp) : Int64 := Int64.ofInt (t / 1000000)

/-- `sqlx::Error`, as far as callers tell errors apart. -/
inductive SqlxError where
  | rowNotFound
  | uniqueViolation (constraint : String)
  | other (message : String)
  deriving DecidableEq

structure AgentRow where
  agentId : String
  publicKey : Bytes
  fingerprint : String
  org : String
  name : String
  createdAt : Timestamp
  deriving DecidableEq

structure AgentKeyRow where
  agentId : String
  publicKeyHex : String
  publicKey : Bytes
  validFrom : Timestamp
  validTo : Option Timestamp
  deriving DecidableEq

inductive TransferState where
  | readyForPickup
  | accepted
  | delivered
  | rejected
  deriving DecidableEq, Repr

def TransferState.asStr : TransferState → String
  | .readyForPickup => "ready_for_pickup"
  | .accepted => "accepted"
  | .delivered => "delivered"
  | .rejected => "rejected"

structure InsertTransfer where
  transferId : String
  senderAgentId : String
  recipient : String
  recipientKind : String
  state : TransferState
  sizeBytes : Int64
  declaredMime : Option String
  filename : Option String
  blobSha256 : Option String := none
  scannerVerdict : Option PipelineVerdict := none
  policyDecision : Option PolicyDecision := none
  rejectionCode : Option String := none
  rejectionReason : Option String := none
  tunnelUrl : Option String := none
  reachableAt : List Endpoint := []
  deriving DecidableEq

/-- A row of `transfers`: what was inserted, and the lifecycle columns. -/
structure TransferRow extends InsertTransfer where
  createdAt : Timestamp
  acceptedAt : Option Timestamp := none
  deliveredAt : Option Timestamp := none
  deriving DecidableEq

structure TicketNonceRow where
  nonce : String
  transferId : String
  expiresAt : Int64
  deriving DecidableEq

structure Db where
  agents : List AgentRow := []
  agentKeys : List AgentKeyRow := []
  registrationNonces : List (String × Bytes) := []
  rotateKeyNonces : List (String × String) := []
  transfers : List TransferRow := []
  transferIntentNonces : List (String × String) := []
  dataPlaneTicketNonces : List TicketNonceRow := []

/-- `INSERT … ON CONFLICT (nonce) DO NOTHING` on a table of nonces: whether the row was new. -/
def consume {β : Type} (rows : List (String × β)) (nonce : String) (owner : β) :
    Bool × List (String × β) :=
  if nonce ∈ rows.map Prod.fst then (false, rows) else (true, rows ++ [(nonce, owner)])

namespace Db

variable (db : Db)

def findAgent (agentId : String) : Option AgentRow :=
  db.agents.find? fun row => row.agentId = agentId

/-- Insert a row into `agent_keys` under its two unique indexes. -/
def insertKey (row : AgentKeyRow) : Except SqlxError Db :=
  if db.agentKeys.any fun r => r.agentId = row.agentId ∧ r.publicKeyHex = row.publicKeyHex then
    .error (.uniqueViolation "agent_keys_agent_id_public_key_hex_key")
  else if row.validTo = none ∧
      db.agentKeys.any fun r => r.agentId = row.agentId ∧ r.validTo = none then
    .error (.uniqueViolation "idx_agent_keys_one_active_per_agent")
  else .ok { db with agentKeys := db.agentKeys ++ [row] }

/-- The transaction of `agents::insert`: the agent and its first key. -/
def insertAgent (now : Timestamp) (agentId : String) (publicKey : Bytes)
    (fingerprint org name : String) : Except SqlxError (AgentRow × Db) :=
  if db.agents.any fun r => r.agentId = agentId then
    .error (.uniqueViolation "agents_agent_id_key")
  else if db.agents.any fun r => r.publicKey = publicKey then
    .error (.uniqueViolation "agents_public_key_key")
  else
    let row : AgentRow := ⟨agentId, publicKey, fingerprint, org, name, now⟩
    ({ db with agents := db.agents ++ [row] }.insertKey
      ⟨row.agentId, hexEncode row.publicKey, row.publicKey, row.createdAt, none⟩).map
        fun db' => (row, db')

def keyValidAt (at_ : Timestamp) (row : AgentKeyRow) : Bool :=
  row.validFrom ≤ at_ && (match row.validTo with
    | none => true
    | some until_ => at_ < until_)

/-- Every key valid for the agent at the given time, the newest first. -/
def validKeysAt (agentId : String) (at_ : Timestamp) : List AgentKeyRow :=
  (db.agentKeys.filter fun row => row.agentId = agentId && keyValidAt at_ row).insertionSort
    fun a b => b.validFrom ≤ a.validFrom

/-- The row whose window is open. -/
def currentKey (agentId : String) : Option AgentKeyRow :=
  db.agentKeys.find? fun row => row.agentId = agentId ∧ row.validTo = none

def rotationGraceSecs : ℤ := 24 * 60 * 60

/-- Close the row `UPDATE agent_keys` matches. -/
def closeKey (agentId expectedHex : String) (graceEnd : Timestamp) (row : AgentKeyRow) :
    AgentKeyRow :=
  if row.agentId = agentId ∧ row.publicKeyHex = expectedHex ∧ row.validTo = none then
    { row with validTo := some graceEnd }
  else row

/-- The transaction of `insert_rotation`: close the expected current key, add its successor. -/
def insertRotation (agentId expectedCurrentPublicKeyHex newPublicKeyHex : String)
    (newPublicKey : Bytes) (now : Timestamp) : Except SqlxError (AgentKeyRow × Db) :=
  let graceEnd := now + rotationGraceSecs * 1000000
  if db.agentKeys.any fun r => r.agentId = agentId ∧
      r.publicKeyHex = expectedCurrentPublicKeyHex ∧ r.validTo = none then
    let closed := db.agentKeys.map (closeKey agentId expectedCurrentPublicKeyHex graceEnd)
    let row : AgentKeyRow := ⟨agentId, newPublicKeyHex, newPublicKey, now, none⟩
    ({ db with agentKeys := closed }.insertKey row).map fun db' => (row, db')
  else .error .rowNotFound

def insertTransfer (now : Timestamp) (t : InsertTransfer) : Except SqlxError (TransferRow × Db) :=
  if db.transfers.any fun r => r.transferId = t.transferId then
    .error (.uniqueViolation "transfers_transfer_id_key")
  else
    let row : TransferRow := { t with createdAt := now }
    .ok (row, { db with transfers := db.transfers ++ [row] })

def findTransfer (transferId : String) : Option TransferRow :=
  db.transfers.find? fun row => row.transferId = transferId

/-- `UPDATE transfers … WHERE transfer_id = $1 AND …`: the number of rows it matched. -/
def updateTransfers (matches_ : TransferRow → Bool) (change : TransferRow → TransferRow) :
    ℕ × Db :=
  (db.transfers.countP matches_,
    { db with transfers := db.transfers.map fun row => if matches_ row then change row else row })

def markAccepted (now : Timestamp) (transferId : String) : ℕ × Db :=
  db.updateTransfers (fun row => row.transferId = transferId && row.state = .readyForPickup)
    fun row => { row with state := .accepted, acceptedAt := some now }

def markDelivered (now : Timestamp) (transferId : String) : ℕ × Db :=
  db.updateTransfers
    (fun row => row.transferId = transferId &&
      (row.state = .accepted || row.state = .readyForPickup))
    fun row => { row with state := .delivered, deliveredAt := some now }

def persistReachableAt (transferId : String) (endpoints : List Endpoint) : ℕ × Db :=
  db.updateTransfers (fun row => row.transferId = transferId)
    fun row => { row with reachableAt := endpoints }

def listInbox (recipient : String) (limit : ℕ) : List TransferRow :=
  ((db.transfers.filter fun row => row.recipient = recipient &&
      (row.state = .readyForPickup || row.state = .accepted)).insertionSort
    fun a b => b.createdAt ≤ a.createdAt).take limit

def inFlightLimit : ℕ := 500

def loadInFlightTransfers : List (String × List Endpoint) :=
  (((db.transfers.filter fun row => row.state = .readyForPickup && !row.reachableAt.isEmpty)
    |>.insertionSort fun a b => a.createdAt ≤ b.createdAt).take inFlightLimit).map
      fun row => (row.transferId, row.reachableAt)

def insertTicketNonce (nonce transferId : String) (expiresAt : Int64) : Except SqlxError Db :=
  if db.dataPlaneTicketNonces.any fun r => r.nonce = nonce then
    .error (.uniqueViolation "data_plane_ticket_nonces_pkey")
  else .ok { db with
    dataPlaneTicketNonces := db.dataPlaneTicketNonces ++ [⟨nonce, transferId, expiresAt⟩] }

end Db

end AgentExchange.ControlPlane
