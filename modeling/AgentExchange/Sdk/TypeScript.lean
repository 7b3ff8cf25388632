import AgentExchange.Core.Wire
import AgentExchange.Library.Utf16

/-!
# The wire formats of the TypeScript SDK

`wire.ts` and `wire-v2.ts`. A string is a sequence of UTF-16 units and `length`
counts them; the formatted text goes through `TextEncoder`. Numbers are kept as
what a template literal prints for them.
-/
namespace AgentExchange.TypeScript

open Library

/-- A string value: UTF-16 units, possibly with surrogates that stand alone. -/
abbrev JsString := List UInt16

/-- The string value of a text. -/
abbrev js (s : String) : JsString := Utf16.encode s

/-- `WhiteSpace` and `LineTerminator`: what `trim`, `parseInt` and `\s` take for white space. -/
def isWhiteSpace (u : UInt16) : Bool :=
  (0x09 ≤ u && u ≤ 0x0d) || u == 0x20 || u == 0xa0 || u == 0x1680 ||
    (0x2000 ≤ u && u ≤ 0x200a) || u == 0x2028 || u == 0x2029 || u == 0x202f || u == 0x205f ||
    u == 0x3000 || u == 0xfeff

/-- `String.prototype.trim`. -/
def trim (s : JsString) : JsString :=
  ((s.dropWhile isWhiteSpace).reverse.dropWhile isWhiteSpace).reverse

/-- The text where a host interface wants scalar values: a surrogate that stands alone is
replaced. -/
def usvString (s : JsString) : String :=
  String.ofList ((Utf16.decode s).map fun c => c.getD '\ufffd')

/-- `new TextEncoder().encode`. -/
def textEncode (s : JsString) : Bytes := intoBytes (usvString s)

/-- A number value, as `Number::toString` prints it: a plain decimal numeral, a numeral with a
fraction or an exponent, or the name of a value that is not finite. -/
inductive JsNumber where
  | decimal (n : ℤ)
  | fractional (text : String)
  | nonFinite (text : String)
  deriving DecidableEq

namespace JsNumber

def maxSafeInteger : ℕ := 2 ^ 53 - 1

/-- The number of an integer. Up to this bound every integer is a number of its own, and is printed
in plain decimal notation. -/
def ofInt (n : ℤ) (_ : n.natAbs ≤ maxSafeInteger) : JsNumber := .decimal n

/-- A number inside a template literal. -/
def text : JsNumber → JsString
  | decimal n => js (toString n)
  | fractional t => js t
  | nonFinite t => js t

def isNegative : JsNumber → Bool
  | decimal n => n < 0
  | fractional t => startsWith "-" t
  | nonFinite t => startsWith "-" t

/-- `Number.isFinite`. -/
def isFinite : JsNumber → Bool
  | nonFinite _ => false
  | _ => true

end JsNumber

/-- What is thrown: an `Error` with its message. -/
structure JsError where
  message : JsString
  deriving DecidableEq

def protocolVersion : String := "v1"
def protocolVersionV2 : String := "v2"
def minNonceLen : ℕ := 32
def maxNonceLen : ℕ := 128

/-- The first unit the validating loop stops at. -/
def firstBadUnit (s : JsString) : Option (UInt16 × ℕ) :=
  s.zipIdx.find? fun p => p.1 > 0x7f || p.1 == 0x0a || p.1 == 0x0d || p.1 == 0x00

def validateAsciiLine (s : JsString) (field : String) (allowEmpty : Bool := false) :
    Except JsError Unit :=
  if s.length = 0 then
    if allowEmpty then .ok () else .error ⟨js (field ++ " is empty")⟩
  else
    match firstBadUnit s with
    | some (u, i) => .error ⟨js (field ++ " has invalid char at " ++ toString i ++ ": ") ++ [u]⟩
    | none => .ok ()

/-- The character class of `/^[0-9a-fA-F]+$/`. -/
def isHexUnit (u : UInt16) : Bool :=
  (0x30 ≤ u && u ≤ 0x39) || (0x61 ≤ u && u ≤ 0x66) || (0x41 ≤ u && u ≤ 0x46)

def validateNonce (nonce : JsString) : Except JsError Unit :=
  if nonce.length < minNonceLen ∨ nonce.length > maxNonceLen then
    .error ⟨js ("nonce length " ++ toString nonce.length ++ " outside [" ++
      toString minNonceLen ++ ", " ++ toString maxNonceLen ++ "]")⟩
  else if ¬(nonce ≠ [] ∧ nonce.all isHexUnit) then .error ⟨js "nonce must be hex"⟩
  else .ok ()

def registrationChallenge (header : String) (publicKeyHex org name nonce : JsString)
    (issuedAtUnix : JsNumber) : Except JsError Bytes := do
  validateAsciiLine publicKeyHex "public_key_hex"
  validateAsciiLine org "org"
  validateAsciiLine name "name"
  validateNonce nonce
  pure (textEncode (js header ++ js "\n" ++ js "pub=" ++ publicKeyHex ++ js "\n" ++ js "org=" ++
    org ++ js "\n" ++ js "name=" ++ name ++ js "\n" ++ js "nonce=" ++ nonce ++ js "\n" ++
    js "ts=" ++ issuedAtUnix.text))

def registrationChallengeBytes := registrationChallenge ("spize-register:" ++ protocolVersion)

def registrationChallengeBytesV2 := registrationChallenge ("aex-register:" ++ protocolVersionV2)

def transferIntent (header : String) (senderAgentId recipient : JsString) (sizeBytes : JsNumber)
    (declaredMime filename nonce : JsString) (issuedAtUnix : JsNumber) :
    Except JsError Bytes := do
  validateAsciiLine senderAgentId "sender_agent_id"
  validateAsciiLine recipient "recipient"
  validateAsciiLine declaredMime "declared_mime" true
  validateAsciiLine filename "filename" true
  validateNonce nonce
  pure (textEncode (js header ++ js "\n" ++ js "sender=" ++ senderAgentId ++ js "\n" ++
    js "recipient=" ++ recipient ++ js "\n" ++ js "size=" ++ sizeBytes.text ++ js "\n" ++
    js "mime=" ++ declaredMime ++ js "\n" ++ js "filename=" ++ filename ++ js "\n" ++
    js "nonce=" ++ nonce ++ js "\n" ++ js "ts=" ++ issuedAtUnix.text))

def transferIntentBytes := transferIntent ("spize-transfer-intent:" ++ protocolVersion)

def transferIntentBytesV2 := transferIntent ("aex-transfer-intent:" ++ protocolVersionV2)

def dataTicketBytesV2 (transferId recipientAgentId dataPlaneUrl : JsString)
    (expiresUnix : JsNumber) (nonce : JsString) : Except JsError Bytes := do
  validateAsciiLine transferId "transfer_id"
  validateAsciiLine recipientAgentId "recipient_agent_id"
  validateAsciiLine dataPlaneUrl "data_plane_url"
  validateNonce nonce
  pure (textEncode (js ("aex-data-ticket:" ++ protocolVersionV2) ++ js "\n" ++ js "transfer=" ++
    transferId ++ js "\n" ++ js "recipient=" ++ recipientAgentId ++ js "\n" ++ js "data_plane=" ++
    dataPlaneUrl ++ js "\n" ++ js "expires=" ++ expiresUnix.text ++ js "\n" ++ js "nonce=" ++
    nonce))

def rotateKeyChallenge (header : String) (agentId oldPublicKeyHex newPublicKeyHex nonce : JsString)
    (issuedAtUnix : JsNumber) : Except JsError Bytes := do
  validateAsciiLine agentId "agent_id"
  validateAsciiLine oldPublicKeyHex "old_public_key_hex"
  validateAsciiLine newPublicKeyHex "new_public_key_hex"
  validateNonce nonce
  if oldPublicKeyHex = newPublicKeyHex then
    throw ⟨js "old_public_key_hex and new_public_key_hex must differ"⟩
  pure (textEncode (js header ++ js "\n" ++ js "agent=" ++ agentId ++ js "\n" ++ js "old_pub=" ++
    oldPublicKeyHex ++ js "\n" ++ js "new_pub=" ++ newPublicKeyHex ++ js "\n" ++ js "nonce=" ++
    nonce ++ js "\n" ++ js "ts=" ++ issuedAtUnix.text))

def rotateKeyChallengeBytes := rotateKeyChallenge ("spize-rotate-key:" ++ protocolVersion)

def rotateKeyChallengeBytesV2 := rotateKeyChallenge ("aex-rotate-key:" ++ protocolVersionV2)

def transferReceipt (header : String) (recipientAgentId transferId action nonce : JsString)
    (issuedAtUnix : JsNumber) : Except JsError Bytes := do
  validateAsciiLine recipientAgentId "recipient_agent_id"
  validateAsciiLine transferId "transfer_id"
  validateAsciiLine action "action"
  validateNonce nonce
  if action ∉ [js "download", js "ack", js "inbox", js "request_ticket"] then
    throw ⟨js "action must be one of download, ack, inbox, request_ticket, got " ++ action⟩
  pure (textEncode (js header ++ js "\n" ++ js "recipient=" ++ recipientAgentId ++ js "\n" ++
    js "transfer=" ++ transferId ++ js "\n" ++ js "action=" ++ action ++ js "\n" ++ js "nonce=" ++
    nonce ++ js "\n" ++ js "ts=" ++ issuedAtUnix.text))

def transferReceiptBytes := transferReceipt ("spize-transfer-receipt:" ++ protocolVersion)

def transferReceiptBytesV2 := transferReceipt ("aex-transfer-receipt:" ++ protocolVersionV2)

def decisionRequestBytesV2 (recipientAgentId transferId decisionId : JsString)
    (etaSeconds : JsNumber) (nonce : JsString) (issuedAtUnix : JsNumber) :
    Except JsError Bytes := do
  validateAsciiLine recipientAgentId "recipient_agent_id"
  validateAsciiLine transferId "transfer_id"
  validateAsciiLine decisionId "decision_id"
  validateNonce nonce
  if etaSeconds.isNegative ∨ !etaSeconds.isFinite then
    throw ⟨js "eta_seconds must be a non-negative finite number"⟩
  pure (textEncode (js ("aex-decision-request:" ++ protocolVersionV2) ++ js "\n" ++
    js "recipient=" ++ recipientAgentId ++ js "\n" ++ js "transfer=" ++ transferId ++ js "\n" ++
    js "decision=" ++ decisionId ++ js "\n" ++ js "eta_secs=" ++ etaSeconds.text ++ js "\n" ++
    js "nonce=" ++ nonce ++ js "\n" ++ js "ts=" ++ issuedAtUnix.text))

def decisionResponseBytesV2
    (recipientAgentId transferId decisionId outcome reason nonce : JsString)
    (issuedAtUnix : JsNumber) : Except JsError Bytes := do
  validateAsciiLine recipientAgentId "recipient_agent_id"
  validateAsciiLine transferId "transfer_id"
  validateAsciiLine decisionId "decision_id"
  validateAsciiLine outcome "outcome"
  validateAsciiLine reason "reason" true
  validateNonce nonce
  if outcome ∉ [js "accepted", js "rejected"] then
    throw ⟨js "outcome must be one of accepted, rejected, got " ++ outcome⟩
  pure (textEncode (js ("aex-decision-response:" ++ protocolVersionV2) ++ js "\n" ++
    js "recipient=" ++ recipientAgentId ++ js "\n" ++ js "transfer=" ++ transferId ++ js "\n" ++
    js "decision=" ++ decisionId ++ js "\n" ++ js "outcome=" ++ outcome ++ js "\n" ++
    js "reason=" ++ reason ++ js "\n" ++ js "nonce=" ++ nonce ++ js "\n" ++
    js "ts=" ++ issuedAtUnix.text))

end AgentExchange.TypeScript
