import AgentExchange.ControlPlane.Bodies
import AgentExchange.Sdk.Python
import AgentExchange.Sdk.TypeScript

/-!
# The clients of the two SDKs

Identities and the signed operations of `SpizeClient`, up to the point where the
request leaves: what is posted, and which bytes were signed for it. The nonce is
drawn as random bytes and the time is read from the clock of the host.
-/
namespace AgentExchange.Sdk

open Library ControlPlane

/-- The primitives both SDKs take from libraries. -/
structure Crypto where
  /-- the Ed25519 public key of a secret -/
  publicKey : Bytes → Bytes
  /-- secret and message -/
  sign : Bytes → Bytes → Bytes
  sha256 : Bytes → Bytes

/-- A request that was sent, with the bytes that were signed for it. -/
structure Exchange where
  post : Post
  signed : Bytes

end AgentExchange.Sdk

/-! ## Python -/

namespace AgentExchange.Python

open Library ControlPlane Sdk

def labelAlphabet : List Char :=
  "abcdefghijklmnopqrstuvwxyzABCDEFGHIJKLMNOPQRSTUVWXYZ0123456789-_".toList

def labelMax : ℕ := 64

def validateLabel (s field : String) : Except Exception Unit :=
  if s.isEmpty then .error (.identityError (field ++ " is empty"))
  else if len s > labelMax then
    .error (.identityError (field ++ " exceeds " ++ toString labelMax ++ " chars"))
  else
    match s.toList.find? (· ∉ labelAlphabet) with
    | some c =>
      .error (.identityError (field ++ " must match [a-zA-Z0-9_-]+, got " ++ reprChar c))
    | none => .ok ()

def computeFingerprint (crypto : Crypto) (publicKeyBytes : Bytes) : String :=
  hexEncode ((crypto.sha256 publicKeyBytes).take 3)

structure Identity where
  org : String
  name : String
  privateKeyBytes : Bytes
  publicKeyBytes : Bytes

namespace Identity

/-- `Identity.from_secret`; the other constructors call it or draw the secret first. -/
def fromSecret (crypto : Crypto) (org name : String) (privateKeyBytes : Bytes) :
    Except Exception Identity := do
  validateLabel org "org"
  validateLabel name "name"
  if privateKeyBytes.length ≠ 32 then
    throw (.identityError
      ("Ed25519 secret must be 32 bytes, got " ++ toString privateKeyBytes.length))
  pure ⟨org, name, privateKeyBytes, crypto.publicKey privateKeyBytes⟩

def fingerprint (crypto : Crypto) (identity : Identity) : String :=
  computeFingerprint crypto identity.publicKeyBytes

def agentId (crypto : Crypto) (identity : Identity) : String :=
  "spize:" ++ identity.org ++ "/" ++ identity.name ++ ":" ++ identity.fingerprint crypto

def publicKeyHex (identity : Identity) : String := hexEncode identity.publicKeyBytes

def sign (crypto : Crypto) (identity : Identity) (message : Bytes) : Bytes :=
  crypto.sign identity.privateKeyBytes message

end Identity

def randomNonce (entropy : Bytes) : String := hexEncode entropy

/-- A `bytes` object; its length is an index of the interpreter. -/
structure Buffer where
  data : Bytes
  length_le : data.length ≤ 2 ^ 63 - 1

/-- A path and what is read from it. -/
structure File where
  name : String
  bytes : Buffer

structure Endpoint where
  kind : String
  url : String
  priority : ℤ := 0
  healthHintUnix : Option ℤ := none

/-- A `str` in a JSON body. A `str` with a surrogate in it has no text to send. -/
def str (s : String) : Document := .string (Utf16.encode s)

def Endpoint.toJson (e : Endpoint) : Document :=
  .object ([("kind", str e.kind), ("url", str e.url), ("priority", .integer e.priority)] ++
    match e.healthHintUnix with
    | some hint => [("health_hint_unix", .integer hint)]
    | none => [])

/-- The arguments the three ways to announce a transfer share. -/
structure Intent where
  recipient : String
  declaredMime : String := ""
  filename : String := ""

section Client

variable (crypto : Crypto) (identity : Identity) (entropy : Bytes) (issuedAt : ℤ)

def register : Except Exception Exchange := do
  let nonce := randomNonce entropy
  let challenge ← registrationChallengeBytes identity.publicKeyHex identity.org identity.name
    nonce issuedAt
  let signature := identity.sign crypto challenge
  pure ⟨⟨"/v1/agents/register", .object [("public_key_hex", str identity.publicKeyHex),
    ("org", str identity.org), ("name", str identity.name), ("nonce", str nonce),
    ("issued_at", .integer issuedAt), ("signature_hex", str (hexEncode signature))]⟩, challenge⟩

def rotateKey (newIdentity : Identity) : Except Exception Exchange := do
  if newIdentity.org ≠ identity.org ∨ newIdentity.name ≠ identity.name then
    throw (.spizeError "rotate_key: new identity must share org/name with current identity")
  if newIdentity.publicKeyHex = identity.publicKeyHex then
    throw (.spizeError "rotate_key: new key is identical to current key")
  let nonce := randomNonce entropy
  let challenge ← rotateKeyChallengeBytes (identity.agentId crypto) identity.publicKeyHex
    newIdentity.publicKeyHex nonce issuedAt
  let signature := identity.sign crypto challenge
  pure ⟨⟨"/v1/agents/rotate-key", .object [("agent_id", str (identity.agentId crypto)),
    ("new_public_key_hex", str newIdentity.publicKeyHex), ("nonce", str nonce),
    ("issued_at", .integer issuedAt), ("signature_hex", str (hexEncode signature))]⟩, challenge⟩

/-- Sign an intent and post it, with the entries that say where the bytes are. -/
def announce (intent : Intent) (sizeBytes : ℤ) (source : Entries) : Except Exception Exchange := do
  let nonce := randomNonce entropy
  let canonical ← transferIntentBytes (identity.agentId crypto) intent.recipient sizeBytes
    intent.declaredMime intent.filename nonce issuedAt
  let signature := identity.sign crypto canonical
  pure ⟨⟨"/v1/transfers", .object ([("sender_agent_id", str (identity.agentId crypto)),
    ("recipient", str intent.recipient), ("declared_mime", str intent.declaredMime),
    ("filename", str intent.filename), ("nonce", str nonce), ("issued_at", .integer issuedAt),
    ("intent_signature_hex", str (hexEncode signature))] ++ source)⟩, canonical⟩

def send (intent : Intent) (data : Option Buffer) (file : Option File) :
    Except Exception Exchange :=
  match data, file with
  | none, none | some _, some _ => throw (.spizeError "pass exactly one of data= or file=")
  | some data, none =>
    announce crypto identity entropy issuedAt intent data.data.length
      [("blob_hex", str (hexEncode data.data))]
  | none, some file =>
    let filename := if intent.filename.isEmpty then file.name else intent.filename
    announce crypto identity entropy issuedAt { intent with filename } file.bytes.data.length
      [("blob_hex", str (hexEncode file.bytes.data))]

def sendViaTunnel (intent : Intent) (declaredSize : ℤ) (tunnelUrl : String) :
    Except Exception Exchange :=
  announce crypto identity entropy issuedAt intent declaredSize
    [("blob_hex", str ""), ("tunnel_url", str tunnelUrl), ("declared_size", .integer declaredSize)]

def sendViaTransports (intent : Intent) (declaredSize : ℤ) (endpoints : List Endpoint) :
    Except Exception Exchange := do
  if endpoints.isEmpty then throw (.spizeError "endpoints[] must not be empty")
  announce crypto identity entropy issuedAt intent declaredSize
    [("blob_hex", str ""), ("reachable_at", .array (endpoints.map Endpoint.toJson)),
      ("declared_size", .integer declaredSize)]

/-- `_build_receipt`, posted to the path of the action. -/
def postReceipt (path transferId action : String) : Except Exception Exchange := do
  let nonce := randomNonce entropy
  let canonical ← transferReceiptBytes (identity.agentId crypto) transferId action nonce issuedAt
  let signature := identity.sign crypto canonical
  pure ⟨⟨path, .object [("recipient_agent_id", str (identity.agentId crypto)),
    ("nonce", str nonce), ("issued_at", .integer issuedAt),
    ("signature_hex", str (hexEncode signature))]⟩, canonical⟩

def download (transferId : String) : Except Exception Exchange :=
  postReceipt crypto identity entropy issuedAt ("/v1/transfers/" ++ transferId ++ "/download")
    transferId "download"

def ack (transferId : String) : Except Exception Exchange :=
  postReceipt crypto identity entropy issuedAt ("/v1/transfers/" ++ transferId ++ "/ack")
    transferId "ack"

def requestTicket (transferId : String) : Except Exception Exchange :=
  postReceipt crypto identity entropy issuedAt ("/v1/transfers/" ++ transferId ++ "/ticket")
    transferId "request_ticket"

def inbox : Except Exception Exchange :=
  postReceipt crypto identity entropy issuedAt "/v1/inbox" "inbox" "inbox"

end Client

/-- The signed operations of the client, with their arguments. -/
inductive Operation where
  | register
  | rotateKey (newIdentity : Identity)
  | send (intent : Intent) (data : Option Buffer) (file : Option File)
  | sendViaTunnel (intent : Intent) (declaredSize : ℤ) (tunnelUrl : String)
  | sendViaTransports (intent : Intent) (declaredSize : ℤ) (endpoints : List Endpoint)
  | download (transferId : String)
  | ack (transferId : String)
  | requestTicket (transferId : String)
  | inbox

def Operation.request (crypto : Crypto) (identity : Identity) (entropy : Bytes) (issuedAt : ℤ) :
    Operation → Except Exception Exchange
  | register => Python.register crypto identity entropy issuedAt
  | rotateKey n => Python.rotateKey crypto identity entropy issuedAt n
  | send i d f => Python.send crypto identity entropy issuedAt i d f
  | sendViaTunnel i z u => Python.sendViaTunnel crypto identity entropy issuedAt i z u
  | sendViaTransports i z es => Python.sendViaTransports crypto identity entropy issuedAt i z es
  | download x => Python.download crypto identity entropy issuedAt x
  | ack x => Python.ack crypto identity entropy issuedAt x
  | requestTicket x => Python.requestTicket crypto identity entropy issuedAt x
  | inbox => Python.inbox crypto identity entropy issuedAt

end AgentExchange.Python

/-! ## TypeScript -/

namespace AgentExchange.TypeScript

open Library ControlPlane Sdk

/-- The character class of `LABEL_RE`. -/
def isLabelUnit (u : UInt16) : Bool :=
  (0x61 ≤ u && u ≤ 0x7a) || (0x41 ≤ u && u ≤ 0x5a) || (0x30 ≤ u && u ≤ 0x39) || u == 0x5f ||
    u == 0x2d

def validateLabel (s : JsString) (field : String) : Except JsError Unit :=
  if 1 ≤ s.length ∧ s.length ≤ 64 ∧ s.all isLabelUnit then .ok ()
  else .error ⟨js (field ++ " must match [a-zA-Z0-9_-]\x7b1,64\x7d: got \"") ++ s ++ js "\""⟩

def toHex (bytes : Bytes) : JsString := js (hexEncode bytes)

def computeFingerprint (crypto : Crypto) (publicKey : Bytes) : JsString :=
  toHex ((crypto.sha256 publicKey).take 3)

structure Identity where
  org : JsString
  name : JsString
  privateKey : Bytes
  publicKey : Bytes

namespace Identity

/-- `Identity.fromSecret`; the other constructors call it or draw the secret first. -/
def fromSecret (crypto : Crypto) (org name : JsString) (privateKey : Bytes) :
    Except JsError Identity := do
  validateLabel org "org"
  validateLabel name "name"
  if privateKey.length ≠ 32 then
    throw ⟨js ("Ed25519 secret must be 32 bytes, got " ++ toString privateKey.length)⟩
  pure ⟨org, name, privateKey, crypto.publicKey privateKey⟩

def fingerprint (crypto : Crypto) (identity : Identity) : JsString :=
  computeFingerprint crypto identity.publicKey

def agentId (crypto : Crypto) (identity : Identity) : JsString :=
  js "spize:" ++ identity.org ++ js "/" ++ identity.name ++ js ":" ++ identity.fingerprint crypto

def publicKeyHex (identity : Identity) : JsString := toHex identity.publicKey

def sign (crypto : Crypto) (identity : Identity) (message : Bytes) : Bytes :=
  crypto.sign identity.privateKey message

end Identity

def randomNonce (entropy : Bytes) : JsString := toHex entropy

structure Uint8Array where
  data : Bytes
  length_le : data.length ≤ JsNumber.maxSafeInteger

/-- `length`, as a number. -/
def Uint8Array.length (a : Uint8Array) : JsNumber := .ofInt a.data.length a.length_le

structure Endpoint where
  kind : JsString
  url : JsString
  priority : JsNumber
  healthHintUnix : Option JsNumber := none

/-- `JSON.stringify` of a number: one that is not finite becomes `null`. -/
def JsNumber.toJson : JsNumber → Document
  | decimal n => .integer n
  | fractional t => .fraction t
  | nonFinite _ => .null

/-- `endpointToJson`, written by `JSON.stringify`. -/
def endpointToJson (e : Endpoint) : Document :=
  .object ([("kind", .string e.kind), ("url", .string e.url), ("priority", e.priority.toJson)] ++
    match e.healthHintUnix with
    | some hint => [("health_hint_unix", hint.toJson)]
    | none => [])

/-- The arguments the three ways to announce a transfer share. -/
structure Intent where
  recipient : JsString
  declaredMime : JsString
  filename : JsString

section Client

variable (crypto : Crypto) (identity : Identity) (entropy : Bytes) (issuedAt : JsNumber)

def register : Except JsError Exchange := do
  let nonce := randomNonce entropy
  let challenge ← registrationChallengeBytes identity.publicKeyHex identity.org identity.name
    nonce issuedAt
  let sig := identity.sign crypto challenge
  pure ⟨⟨"/v1/agents/register", .object [("public_key_hex", .string identity.publicKeyHex),
    ("org", .string identity.org), ("name", .string identity.name), ("nonce", .string nonce),
    ("issued_at", issuedAt.toJson), ("signature_hex", .string (toHex sig))]⟩, challenge⟩

def rotateKey (newIdentity : Identity) : Except JsError Exchange := do
  if newIdentity.org ≠ identity.org ∨ newIdentity.name ≠ identity.name then
    throw ⟨js "rotateKey: new identity must share org/name with current identity"⟩
  if newIdentity.publicKeyHex = identity.publicKeyHex then
    throw ⟨js "rotateKey: new key is identical to current key"⟩
  let nonce := randomNonce entropy
  let challenge ← rotateKeyChallengeBytes (identity.agentId crypto) identity.publicKeyHex
    newIdentity.publicKeyHex nonce issuedAt
  let sig := identity.sign crypto challenge
  pure ⟨⟨"/v1/agents/rotate-key", .object [("agent_id", .string (identity.agentId crypto)),
    ("new_public_key_hex", .string newIdentity.publicKeyHex), ("nonce", .string nonce),
    ("issued_at", issuedAt.toJson), ("signature_hex", .string (toHex sig))]⟩, challenge⟩

/-- Sign an intent and post it, with the entries that say where the bytes are. -/
def announce (intent : Intent) (sizeBytes : JsNumber) (source : Entries) :
    Except JsError Exchange := do
  let nonce := randomNonce entropy
  let canonical ← transferIntentBytes (identity.agentId crypto) intent.recipient sizeBytes
    intent.declaredMime intent.filename nonce issuedAt
  let sig := identity.sign crypto canonical
  pure ⟨⟨"/v1/transfers", .object ([("sender_agent_id", .string (identity.agentId crypto)),
    ("recipient", .string intent.recipient), ("declared_mime", .string intent.declaredMime),
    ("filename", .string intent.filename), ("nonce", .string nonce),
    ("issued_at", issuedAt.toJson), ("intent_signature_hex", .string (toHex sig))] ++ source)⟩,
    canonical⟩

def send (recipient : JsString) (data : Uint8Array) (declaredMime filename : Option JsString) :
    Except JsError Exchange :=
  announce crypto identity entropy issuedAt
    ⟨recipient, declaredMime.getD (js ""), filename.getD (js "")⟩ data.length
    [("blob_hex", .string (toHex data.data))]

def sendViaTunnel (intent : Intent) (declaredSize : JsNumber) (tunnelUrl : JsString) :
    Except JsError Exchange :=
  announce crypto identity entropy issuedAt intent declaredSize
    [("blob_hex", .string (js "")), ("tunnel_url", .string tunnelUrl),
      ("declared_size", declaredSize.toJson)]

def sendViaTransports (intent : Intent) (declaredSize : JsNumber) (endpoints : List Endpoint) :
    Except JsError Exchange := do
  if endpoints.length = 0 then throw ⟨js "endpoints[] must not be empty"⟩
  announce crypto identity entropy issuedAt intent declaredSize
    [("blob_hex", .string (js "")), ("reachable_at", .array (endpoints.map endpointToJson)),
      ("declared_size", declaredSize.toJson)]

/-- `buildReceipt`, posted to the path of the action. -/
def postReceipt (path transferId : JsString) (action : String) : Except JsError Exchange := do
  let nonce := randomNonce entropy
  let canonical ← transferReceiptBytes (identity.agentId crypto) transferId (js action) nonce
    issuedAt
  let sig := identity.sign crypto canonical
  pure ⟨⟨usvString path, .object [("recipient_agent_id", .string (identity.agentId crypto)),
    ("nonce", .string nonce), ("issued_at", issuedAt.toJson),
    ("signature_hex", .string (toHex sig))]⟩, canonical⟩

def download (transferId : JsString) : Except JsError Exchange :=
  postReceipt crypto identity entropy issuedAt
    (js "/v1/transfers/" ++ transferId ++ js "/download") transferId "download"

def ack (transferId : JsString) : Except JsError Exchange :=
  postReceipt crypto identity entropy issuedAt
    (js "/v1/transfers/" ++ transferId ++ js "/ack") transferId "ack"

def requestTicket (transferId : JsString) : Except JsError Exchange :=
  postReceipt crypto identity entropy issuedAt
    (js "/v1/transfers/" ++ transferId ++ js "/ticket") transferId "request_ticket"

def inbox : Except JsError Exchange :=
  postReceipt crypto identity entropy issuedAt (js "/v1/inbox") (js "inbox") "inbox"

end Client

/-- The signed operations of the client, with their arguments. -/
inductive Operation where
  | register
  | rotateKey (newIdentity : Identity)
  | send (recipient : JsString) (data : Uint8Array) (declaredMime filename : Option JsString)
  | sendViaTunnel (intent : Intent) (declaredSize : JsNumber) (tunnelUrl : JsString)
  | sendViaTransports (intent : Intent) (declaredSize : JsNumber) (endpoints : List Endpoint)
  | download (transferId : JsString)
  | ack (transferId : JsString)
  | requestTicket (transferId : JsString)
  | inbox

def Operation.request (crypto : Crypto) (identity : Identity) (entropy : Bytes)
    (issuedAt : JsNumber) : Operation → Except JsError Exchange
  | register => TypeScript.register crypto identity entropy issuedAt
  | rotateKey n => TypeScript.rotateKey crypto identity entropy issuedAt n
  | send r d m f => TypeScript.send crypto identity entropy issuedAt r d m f
  | sendViaTunnel i z u => TypeScript.sendViaTunnel crypto identity entropy issuedAt i z u
  | sendViaTransports i z es => TypeScript.sendViaTransports crypto identity entropy issuedAt i z es
  | download x => TypeScript.download crypto identity entropy issuedAt x
  | ack x => TypeScript.ack crypto identity entropy issuedAt x
  | requestTicket x => TypeScript.requestTicket crypto identity entropy issuedAt x
  | inbox => TypeScript.inbox crypto identity entropy issuedAt

end AgentExchange.TypeScript

/-! ## The agents of the small deployment -/

namespace AgentExchange.Sdk.Sample

open Wire ControlPlane ControlPlane.Sample

/-- The secrets of the two agents and of the key one of them rotates to. -/
def secrets : List (Bytes × Bytes) :=
  [(List.replicate 32 1, bytesOf aliceKeyHex), (List.replicate 32 2, bytesOf bobKeyHex),
    (List.replicate 32 3, bytesOf rotateAlice.newPublicKeyHex)]

def newKeyDigest : String := "b62e867fa2f33afe62d5d6b1642e1621d543307846b2a57b897e710919b76709"

/-- The digests and signatures of the deployment, and the digest of the new key. -/
def crypto : Crypto where
  publicKey := tabulated 32 secrets
  sign secret message :=
    match signatures.find? fun s => bytesOf s.publicKeyHex = tabulated 32 secrets secret &&
        s.message.encode = .ok message with
    | some s => bytesOf s.signatureHex
    | none => []
  sha256 := tabulated 32 ((digests.map fun d => (bytesOf d.1, bytesOf d.2)) ++
    [(bytesOf rotateAlice.newPublicKeyHex, bytesOf newKeyDigest)])

/-- Signing that looks for the message before the key, and checks no known message again. -/
def signs (secret message : Bytes) : Bytes :=
  match signatures.find? fun s => message = canonicalMessage s.message.header s.message.fields &&
      bytesOf s.publicKeyHex = tabulated 32 secrets secret with
  | some s => bytesOf s.signatureHex
  | none => []

theorem crypto_eq : crypto = { crypto with sign := signs } := by
  have hsign : crypto.sign = signs := by
    funext secret message
    have hfind : (signatures.find? fun s => bytesOf s.publicKeyHex = tabulated 32 secrets secret &&
        s.message.encode = .ok message) = signatures.find? fun s =>
          message = canonicalMessage s.message.header s.message.fields &&
            bytesOf s.publicKeyHex = tabulated 32 secrets secret := by
      apply List.find?_congr
      intro s hs
      rw [Bool.and_comm]
      simp only [Message.encode_eq_ok_iff (signatures_exact s hs).message]
    rw [crypto, signs]
    simp only [hfind]
  rw [← hsign]

end AgentExchange.Sdk.Sample
