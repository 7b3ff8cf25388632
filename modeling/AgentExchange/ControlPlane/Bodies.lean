import AgentExchange.ControlPlane.System
import AgentExchange.Library.Utf16

/-!
# Posted requests

What a client sends: a path and a JSON document, as it is written on the wire. The
router picks the handler by the segments of the path, and the derived deserialisers
read the body. A body that does not deserialise never reaches a handler.
-/
namespace AgentExchange.ControlPlane

open Library

/-- A JSON document as text: integers of any size, numerals with a fraction or an exponent, and
strings as the UTF-16 units their characters and escapes denote. -/
inductive Document where
  | null
  | bool (b : Bool)
  | integer (n : ℤ)
  | fraction (text : String)
  | string (units : List UInt16)
  | array (elements : List Document)
  | object (entries : List (String × Document))

namespace Document

/-- A string literal; a surrogate without its partner is refused. -/
def readString : Document → Option String
  | string units => Utf16.toText units
  | _ => none

/-- An integer type: a numeral with a fraction is not one, nor is an integer out of its range. -/
def readInt {α : Type} (lower upper : ℤ) (ofInt : ℤ → α) : Document → Option α
  | integer n => if lower ≤ n ∧ n ≤ upper then some (ofInt n) else none
  | _ => none

def readI64 : Document → Option Int64 := readInt (-2 ^ 63) (2 ^ 63 - 1) Int64.ofInt

def readU64 : Document → Option UInt64 := readInt 0 (2 ^ 64 - 1) fun n => UInt64.ofNat n.toNat

def readI32 : Document → Option Int32 := readInt (-2 ^ 31) (2 ^ 31 - 1) Int32.ofInt

def readU8 : Document → Option UInt8 := readInt 0 (2 ^ 8 - 1) fun n => UInt8.ofNat n.toNat

/-- `Option<T>`. -/
def readOption {α : Type} (read : Document → Option α) : Document → Option (Option α)
  | null => some none
  | value => (read value).map some

def readVec {α : Type} (read : Document → Option α) : Document → Option (List α)
  | array elements => elements.mapM read
  | _ => none

end Document

/-- The entries of an object, as the visitor of a derived deserialiser gets them. Other keys than
the fields of the structure are ignored. -/
abbrev Entries := List (String × Document)

namespace Entries

/-- The value of a field, if there is one. A field that occurs twice is an error. -/
def value (entries : Entries) (key : String) : Option (Option Document) :=
  match entries.filter (·.1 = key) with
  | [] => some none
  | [(_, v)] => some (some v)
  | _ => none

def field {α : Type} (entries : Entries) (key : String) (read : Document → Option α) :
    Option α := do
  match ← entries.value key with
  | some v => read v
  | none => none

/-- A field with `#[serde(default)]`. -/
def fieldOr {α : Type} (entries : Entries) (key : String) (read : Document → Option α)
    (default : α) : Option α := do
  match ← entries.value key with
  | some v => read v
  | none => some default

end Entries

open Document

def readHealthStatus : Document → Option HealthStatus
  | string units =>
    if units = Utf16.encode "healthy" then some .healthy
    else if units = Utf16.encode "unhealthy" then some .unhealthy
    else none
  | object [("healthy", null)] => some .healthy
  | object [("unhealthy", null)] => some .unhealthy
  | _ => none

def readEndpointHealth : Document → Option EndpointHealth
  | object entries => do
    let status ← Entries.field entries "status" readHealthStatus
    let consecutiveFails ← Entries.fieldOr entries "consecutive_fails" readU8 0
    let consecutiveSuccesses ← Entries.fieldOr entries "consecutive_successes" readU8 0
    let lastProbeUnix ← Entries.fieldOr entries "last_probe_unix" (readOption readI64) none
    pure ⟨status, consecutiveFails, consecutiveSuccesses, lastProbeUnix⟩
  | _ => none

def readEndpoint : Document → Option Endpoint
  | object entries => do
    let kind ← Entries.field entries "kind" readString
    let url ← Entries.field entries "url" readString
    let priority ← Entries.fieldOr entries "priority" readI32 0
    let healthHintUnix ← Entries.fieldOr entries "health_hint_unix" (readOption readI64) none
    let health ← Entries.fieldOr entries "health" (readOption readEndpointHealth) none
    pure ⟨kind, url, priority, healthHintUnix, health⟩
  | _ => none

def RegisterRequest.deserialize (entries : Entries) : Option RegisterRequest := do
  let publicKeyHex ← entries.field "public_key_hex" readString
  let org ← entries.field "org" readString
  let name ← entries.field "name" readString
  let nonce ← entries.field "nonce" readString
  let issuedAt ← entries.field "issued_at" readI64
  let signatureHex ← entries.field "signature_hex" readString
  pure ⟨publicKeyHex, org, name, nonce, issuedAt, signatureHex⟩

def RotateKeyRequest.deserialize (entries : Entries) : Option RotateKeyRequest := do
  let agentId ← entries.field "agent_id" readString
  let newPublicKeyHex ← entries.field "new_public_key_hex" readString
  let nonce ← entries.field "nonce" readString
  let issuedAt ← entries.field "issued_at" readI64
  let signatureHex ← entries.field "signature_hex" readString
  pure ⟨agentId, newPublicKeyHex, nonce, issuedAt, signatureHex⟩

def CreateTransferRequest.deserialize (entries : Entries) : Option CreateTransferRequest := do
  let senderAgentId ← entries.field "sender_agent_id" readString
  let recipient ← entries.field "recipient" readString
  let declaredMime ← entries.fieldOr "declared_mime" readString ""
  let filename ← entries.fieldOr "filename" readString ""
  let nonce ← entries.field "nonce" readString
  let issuedAt ← entries.field "issued_at" readI64
  let intentSignatureHex ← entries.field "intent_signature_hex" readString
  let blobHex ← entries.fieldOr "blob_hex" readString ""
  let tunnelUrl ← entries.fieldOr "tunnel_url" (readOption readString) none
  let reachableAt ← entries.fieldOr "reachable_at" (readOption (readVec readEndpoint)) none
  let declaredSize ← entries.fieldOr "declared_size" (readOption readU64) none
  pure ⟨senderAgentId, recipient, declaredMime, filename, nonce, issuedAt, intentSignatureHex,
    blobHex, tunnelUrl, reachableAt, declaredSize⟩

/-- `RecipientReceiptRequest`, `TicketRequest` and `InboxRequest`. -/
def RecipientReceiptRequest.deserialize (entries : Entries) : Option RecipientReceiptRequest := do
  let recipientAgentId ← entries.field "recipient_agent_id" readString
  let nonce ← entries.field "nonce" readString
  let issuedAt ← entries.field "issued_at" readI64
  let signatureHex ← entries.field "signature_hex" readString
  pure ⟨recipientAgentId, nonce, issuedAt, signatureHex⟩

/-- A POST request with a JSON body. -/
structure Post where
  path : String
  body : Document

def segments (path : String) : List String := (path.toList.splitOn '/').map String.ofList

/-- The POST routes of the signed requests. `pathParam` is what the extractor makes of the segment
that holds a transfer id. -/
def Post.request (pathParam : String → Option String) (post : Post) : Option Request :=
  match post.body with
  | .object entries =>
    match segments post.path with
    | ["", "v1", "agents", "register"] =>
      (RegisterRequest.deserialize entries).map .register
    | ["", "v1", "agents", "rotate-key"] =>
      (RotateKeyRequest.deserialize entries).map .rotateKey
    | ["", "v1", "transfers"] =>
      (CreateTransferRequest.deserialize entries).map .createTransfer
    | ["", "v1", "transfers", transferId, "download"] => do
      pure (.downloadTransfer (← pathParam transferId)
        (← RecipientReceiptRequest.deserialize entries))
    | ["", "v1", "transfers", transferId, "ack"] => do
      pure (.ackTransfer (← pathParam transferId) (← RecipientReceiptRequest.deserialize entries))
    | ["", "v1", "transfers", transferId, "ticket"] => do
      pure (.issueTicket (← pathParam transferId) (← RecipientReceiptRequest.deserialize entries))
    | ["", "v1", "inbox"] => (RecipientReceiptRequest.deserialize entries).map .listInbox
    | _ => none
  | _ => none

end AgentExchange.ControlPlane
