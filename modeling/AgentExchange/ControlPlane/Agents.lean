import AgentExchange.ControlPlane.Effects
import AgentExchange.Core.Wire

/-!
# Agent endpoints and signature verification

`register`, `rotate_key` and `get_agent`, and the helper every signed request goes
through: a signature counts when it verifies under any key valid for the agent at
the moment the request is evaluated.
-/
namespace AgentExchange.ControlPlane

open Library Wire
open Program (lift ensure okOr)

/-- The `?` on a database result. -/
def orSqlx {α : Type} (x : Except SqlxError α) : Prog α := lift (x.mapError .ofSqlx)

/-- The `?` on a result of the core crate. -/
def orCore {α : Type} (x : Except Error α) : Prog α := lift (x.mapError .ofCore)

/-- `map_err` to a bad request with a text in front. -/
def orBadRequest {ε α : Type} (label : String) (display : ε → String) (x : Except ε α) : Prog α :=
  lift (x.mapError fun e => .badRequest (label ++ display e))

def publicKeyLen : ℕ := 32
def signatureLen : ℕ := 64
def maxLabelLen : ℕ := 64

def validateLabel (s field : String) : Except ApiError Unit :=
  if s.isEmpty then .error (.badRequest (field ++ " is empty"))
  else if s.utf8ByteSize > maxLabelLen then
    .error (.badRequest (field ++ " exceeds " ++ toString maxLabelLen ++ " chars"))
  else if s.toList.all fun c => isAsciiAlphanumeric c || c = '-' || c = '_' then .ok ()
  else .error (.badRequest (field ++ " must match [a-zA-Z0-9_-]+"))

def decodeHexExact (s : String) (expected : ℕ) (field : String) : Except ApiError Bytes :=
  match hexDecode s with
  | .error e => .error (.badRequest (field ++ ": invalid hex (" ++ e.display ++ ")"))
  | .ok bytes =>
    if bytes.length ≠ expected then
      .error (.badRequest (field ++ ": expected " ++ toString expected ++ " bytes, got " ++
        toString bytes.length))
    else .ok bytes

def computeFingerprint (env : Env) (publicKey : Bytes) : String :=
  hexEncode ((env.sha256 publicKey).take 3)

/-- The shape of a nonce, with the texts of the two kinds of handlers. -/
def checkNonce (nonce lengthMessage : String) : Prog Unit := do
  ensure (minNonceLen ≤ nonce.utf8ByteSize ∧ nonce.utf8ByteSize ≤ maxNonceLen)
    (.badRequest lengthMessage)
  ensure (nonce.toList.all isAsciiHexdigit) (.badRequest "nonce must be hex")

def nonceLengthMessage : String :=
  "nonce length must be " ++ toString minNonceLen ++ "..=" ++ toString maxNonceLen ++ " hex chars"

/-- Read the clock and compare it with the request's timestamp. -/
def checkSkew (issuedAt : Int64) (message : String) : Prog Int64 := do
  let now ← ask .clockNow
  ensure (isWithinClockSkew (unixTimestamp now) issuedAt) (.badRequest message)
  pure (unixTimestamp now)

def skewMessage : String :=
  "issued_at is outside allowed skew (±" ++ toString maxClockSkewSecs ++ "s)"

/-- One candidate key against a signature; a key that does not parse is passed over. -/
def keyVerifies (env : Env) (canonical signature publicKey : Bytes) : Bool :=
  publicKey.length = publicKeyLen && (match env.verifyingKey publicKey with
    | .ok _ => env.verify publicKey canonical signature
    | .error _ => false)

/-- Any key valid for the agent at `at_` may have signed. -/
def verifyWithValidKeys (env : Env) (agentId : String) (at_ : Timestamp)
    (canonical signature : Bytes) : Prog Unit := do
  ensure (signature.length = signatureLen) (.badRequest "signature must be 64 bytes")
  let rows ← ask (.validKeysAt agentId at_)
  let rows ← orSqlx rows
  ensure (rows ≠ []) (.unauthorized "no active key for agent (unregistered or revoked)")
  ensure (rows.any fun row => keyVerifies env canonical signature row.publicKey)
    (.unauthorized "signature does not verify against any active key")

structure RegisterRequest where
  publicKeyHex : String
  org : String
  name : String
  nonce : String
  issuedAt : Int64
  signatureHex : String
  deriving DecidableEq

structure AgentResponse where
  agentId : String
  publicKeyHex : String
  fingerprint : String
  org : String
  name : String
  createdAt : Timestamp
  deriving DecidableEq

def AgentResponse.ofRow (row : AgentRow) : AgentResponse :=
  ⟨row.agentId, hexEncode row.publicKey, row.fingerprint, row.org, row.name, row.createdAt⟩

/-- `agents::unique_violation_field`. -/
def agentViolationField : SqlxError → Option String
  | .uniqueViolation constraint =>
    if constraint = "agents_agent_id_key" then some "agent_id"
    else if constraint = "agents_public_key_key" then some "public_key"
    else some "unknown"
  | _ => none

def registerConflict (e : SqlxError) : ApiError :=
  match agentViolationField e with
  | some field => .conflict (field ++ " already registered")
  | none => .ofSqlx e

def register (env : Env) (req : RegisterRequest) : Prog AgentResponse := do
  lift (validateLabel req.org "org")
  lift (validateLabel req.name "name")
  checkNonce req.nonce nonceLengthMessage
  let publicKey ← lift (decodeHexExact req.publicKeyHex publicKeyLen "public_key_hex")
  let signature ← lift (decodeHexExact req.signatureHex signatureLen "signature_hex")
  let _ ← checkSkew req.issuedAt skewMessage
  let challenge ← orBadRequest "cannot build challenge: " Error.display
    (registrationChallengeBytes req.publicKeyHex req.org req.name req.nonce req.issuedAt)
  orBadRequest "invalid public key: " id (env.verifyingKey publicKey)
  ensure (env.verify publicKey challenge signature)
    (.unauthorized "signature does not match challenge")
  let fresh ← ask (.consumeNonce req.nonce publicKey)
  let fresh ← orSqlx fresh
  ensure (fresh = true) (.conflict "nonce already used")
  let fingerprint := computeFingerprint env publicKey
  let agentId := "spize:" ++ req.org ++ "/" ++ req.name ++ ":" ++ fingerprint
  let inserted ← ask (.insertAgent agentId publicKey fingerprint req.org req.name)
  let row ← lift (inserted.mapError registerConflict)
  pure (.ofRow row)

def getAgent (agentId : String) : Prog AgentResponse := do
  let parsed ← orCore (AgentId.new agentId)
  let found ← ask (.findAgent parsed.asStr)
  let found ← orSqlx found
  let row ← okOr found (.notFound ("agent " ++ parsed.asStr ++ " not found"))
  pure (.ofRow row)

structure RotateKeyRequest where
  agentId : String
  newPublicKeyHex : String
  nonce : String
  issuedAt : Int64
  signatureHex : String
  deriving DecidableEq

structure RotateKeyResponse where
  agentId : String
  newPublicKeyHex : String
  validFrom : Int64
  previousKeyValidUntil : Int64
  deriving DecidableEq

/-- `agent_keys::unique_violation_field`. -/
def keyViolationField : SqlxError → Option String
  | .uniqueViolation constraint =>
    if constraint = "agent_keys_agent_id_public_key_hex_key" then some "agent_key"
    else if constraint = "idx_agent_keys_one_active_per_agent" then some "active_key_race"
    else if constraint = "rotate_key_nonces_pkey" then some "nonce"
    else some "unknown"
  | _ => none

def rotationConflict : SqlxError → ApiError
  | .rowNotFound => .conflict "agent key rotated concurrently; retry with the new current key"
  | e =>
    match keyViolationField e with
    | some field =>
      .conflict ("rotation conflict (" ++ field ++ "): another rotation to this key already exists")
    | none => .ofSqlx e

def rotateKey (env : Env) (req : RotateKeyRequest) : Prog RotateKeyResponse := do
  let agent ← orCore (AgentId.new req.agentId)
  checkNonce req.nonce nonceLengthMessage
  let newPublicKey ← lift (decodeHexExact req.newPublicKeyHex publicKeyLen "new_public_key_hex")
  let signature ← lift (decodeHexExact req.signatureHex signatureLen "signature_hex")
  let _ ← checkSkew req.issuedAt skewMessage
  let found ← ask (.currentKey agent.asStr)
  let found ← orSqlx found
  let current ← okOr found (.notFound ("agent " ++ agent.asStr ++ " not found"))
  ensure (current.publicKeyHex ≠ req.newPublicKeyHex)
    (.badRequest "new_public_key_hex must differ from the current key")
  let challenge ← orBadRequest "cannot build challenge: " Error.display
    (rotateKeyChallengeBytes agent.asStr current.publicKeyHex req.newPublicKeyHex req.nonce
      req.issuedAt)
  ensure (current.publicKey.length = publicKeyLen) (.internal "bad stored public_key length")
  lift ((env.verifyingKey current.publicKey).mapError .internal)
  ensure (env.verify current.publicKey challenge signature)
    (.unauthorized "signature does not match challenge")
  orBadRequest "invalid new public key: " id (env.verifyingKey newPublicKey)
  let fresh ← ask (.consumeRotateNonce req.nonce agent.asStr)
  let fresh ← orSqlx fresh
  ensure (fresh = true) (.conflict "nonce already used")
  let now ← ask .clockNow
  let inserted ← ask (.insertRotation agent.asStr current.publicKeyHex
    req.newPublicKeyHex newPublicKey now)
  let row ← lift (inserted.mapError rotationConflict)
  pure ⟨row.agentId, row.publicKeyHex, unixTimestamp row.validFrom,
    unixTimestamp now + Int64.ofInt Db.rotationGraceSecs⟩

end AgentExchange.ControlPlane
