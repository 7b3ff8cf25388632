import AgentExchange.Core.Types

/-!
# Canonical byte formats

The line-based messages that get signed, in both protocol versions. A message is
a header line `<prefix>-<name>:<version>` followed by `key=value` lines joined by
line feeds. Every encoder screens its own fields before it formats them, and
each does so in the order of the source, so the first offending field decides
the reported error.
-/
namespace AgentExchange.Wire

def protocolVersion : String := "v1"
def protocolVersionV2 : String := "v2"

def maxClockSkewSecs : ℤ := 300
def maxClockSkewSecsV2 : ℤ := 60

def minNonceLen : ℕ := 32
def maxNonceLen : ℕ := 128

/-- The difference is taken in 128 bits, where it cannot overflow. -/
def isWithinClockSkew (nowUnix issuedAtUnix : Int64) : Bool :=
  (nowUnix.toInt - issuedAtUnix.toInt).natAbs ≤ maxClockSkewSecs.toNat

def isWithinClockSkewV2 (nowUnix issuedAtUnix : Int64) : Bool :=
  (nowUnix.toInt - issuedAtUnix.toInt).natAbs ≤ maxClockSkewSecsV2.toNat

/-- Reject the characters that would make a line ambiguous. -/
def validateAsciiLine (s field : String) : Except Error Unit :=
  if s.isEmpty then .error (.internal (field ++ " is empty"))
  else
    match firstBadChar (fun c => !isAscii c || c == '\n' || c == '\r' || c == '\x00') s with
    | some (c, i) =>
      .error (.internal (field ++ " has invalid char at " ++ toString i ++ ": " ++ charDebug c))
    | none => .ok ()

/-- Allow-empty variant, used for optional fields. -/
def validateAsciiLineOpt (s field : String) : Except Error Unit :=
  if s.isEmpty then .ok () else validateAsciiLine s field

def validateNonce (nonce : String) : Except Error Unit :=
  if nonce.utf8ByteSize < minNonceLen ∨ nonce.utf8ByteSize > maxNonceLen then
    .error (.internal ("nonce length " ++ toString nonce.utf8ByteSize ++ " outside [" ++
      toString minNonceLen ++ ", " ++ toString maxNonceLen ++ "]"))
  else if nonce.toList.all isAsciiHexdigit then .ok ()
  else .error (.internal "nonce must be hex")

/-- The formatted message: a header line, then one line per field. -/
def canonicalMessage (header : String) (fields : List (String × String)) : Bytes :=
  intoBytes (Library.lineText header (fields.map fun f => f.1 ++ "=" ++ f.2))

def registrationChallenge (header publicKeyHex org name nonce : String) (issuedAtUnix : Int64) :
    Except Error Bytes := do
  validateAsciiLine publicKeyHex "public_key_hex"
  validateAsciiLine org "org"
  validateAsciiLine name "name"
  validateNonce nonce
  pure (canonicalMessage header [("pub", publicKeyHex), ("org", org), ("name", name),
    ("nonce", nonce), ("ts", toString issuedAtUnix)])

def registrationChallengeBytes :=
  registrationChallenge ("spize-register:" ++ protocolVersion)

def registrationChallengeBytesV2 :=
  registrationChallenge ("aex-register:" ++ protocolVersionV2)

def transferIntent (header senderAgentId recipient : String) (sizeBytes : UInt64)
    (declaredMime filename nonce : String) (issuedAtUnix : Int64) : Except Error Bytes := do
  validateAsciiLine senderAgentId "sender_agent_id"
  validateAsciiLine recipient "recipient"
  validateAsciiLineOpt declaredMime "declared_mime"
  validateAsciiLineOpt filename "filename"
  validateNonce nonce
  pure (canonicalMessage header [("sender", senderAgentId), ("recipient", recipient),
    ("size", toString sizeBytes), ("mime", declaredMime), ("filename", filename),
    ("nonce", nonce), ("ts", toString issuedAtUnix)])

def transferIntentBytes :=
  transferIntent ("spize-transfer-intent:" ++ protocolVersion)

def transferIntentBytesV2 :=
  transferIntent ("aex-transfer-intent:" ++ protocolVersionV2)

def dataTicket (header transferId recipientAgentId dataPlaneUrl : String) (expiresUnix : Int64)
    (nonce : String) : Except Error Bytes := do
  validateAsciiLine transferId "transfer_id"
  validateAsciiLine recipientAgentId "recipient_agent_id"
  validateAsciiLine dataPlaneUrl "data_plane_url"
  validateNonce nonce
  pure (canonicalMessage header [("transfer", transferId), ("recipient", recipientAgentId),
    ("data_plane", dataPlaneUrl), ("expires", toString expiresUnix), ("nonce", nonce)])

def dataTicketBytes := dataTicket ("spize-data-ticket:" ++ protocolVersion)

def dataTicketBytesV2 := dataTicket ("aex-data-ticket:" ++ protocolVersionV2)

def rotateKeyChallenge (header agentId oldPublicKeyHex newPublicKeyHex nonce : String)
    (issuedAtUnix : Int64) : Except Error Bytes := do
  validateAsciiLine agentId "agent_id"
  validateAsciiLine oldPublicKeyHex "old_public_key_hex"
  validateAsciiLine newPublicKeyHex "new_public_key_hex"
  validateNonce nonce
  if oldPublicKeyHex = newPublicKeyHex then
    throw (.internal "old_public_key_hex and new_public_key_hex must differ")
  pure (canonicalMessage header [("agent", agentId), ("old_pub", oldPublicKeyHex),
    ("new_pub", newPublicKeyHex), ("nonce", nonce), ("ts", toString issuedAtUnix)])

def rotateKeyChallengeBytes := rotateKeyChallenge ("spize-rotate-key:" ++ protocolVersion)

def rotateKeyChallengeBytesV2 := rotateKeyChallenge ("aex-rotate-key:" ++ protocolVersionV2)

def transferReceipt (header recipientAgentId transferId action nonce : String)
    (issuedAtUnix : Int64) : Except Error Bytes := do
  validateAsciiLine recipientAgentId "recipient_agent_id"
  validateAsciiLine transferId "transfer_id"
  validateAsciiLine action "action"
  validateNonce nonce
  if action ∉ ["download", "ack", "inbox", "request_ticket"] then
    throw (.internal
      ("action must be 'download', 'ack', 'inbox' or 'request_ticket', got " ++ action))
  pure (canonicalMessage header [("recipient", recipientAgentId), ("transfer", transferId),
    ("action", action), ("nonce", nonce), ("ts", toString issuedAtUnix)])

def transferReceiptBytes := transferReceipt ("spize-transfer-receipt:" ++ protocolVersion)

def transferReceiptBytesV2 := transferReceipt ("aex-transfer-receipt:" ++ protocolVersionV2)

def decisionRequestBytesV2 (recipientAgentId transferId decisionId : String)
    (etaSeconds : UInt64) (nonce : String) (issuedAtUnix : Int64) : Except Error Bytes := do
  validateAsciiLine recipientAgentId "recipient_agent_id"
  validateAsciiLine transferId "transfer_id"
  validateAsciiLine decisionId "decision_id"
  validateNonce nonce
  pure (canonicalMessage ("aex-decision-request:" ++ protocolVersionV2)
    [("recipient", recipientAgentId), ("transfer", transferId), ("decision", decisionId),
      ("eta_secs", toString etaSeconds), ("nonce", nonce), ("ts", toString issuedAtUnix)])

def decisionResponseBytesV2 (recipientAgentId transferId decisionId outcome reason nonce : String)
    (issuedAtUnix : Int64) : Except Error Bytes := do
  validateAsciiLine recipientAgentId "recipient_agent_id"
  validateAsciiLine transferId "transfer_id"
  validateAsciiLine decisionId "decision_id"
  validateAsciiLine outcome "outcome"
  validateAsciiLineOpt reason "reason"
  validateNonce nonce
  if outcome ∉ ["accepted", "rejected"] then
    throw (.internal ("outcome must be 'accepted' or 'rejected', got " ++ outcome))
  pure (canonicalMessage ("aex-decision-response:" ++ protocolVersionV2)
    [("recipient", recipientAgentId), ("transfer", transferId), ("decision", decisionId),
      ("outcome", outcome), ("reason", reason), ("nonce", nonce), ("ts", toString issuedAtUnix)])

example : transferReceiptBytes "spize:acme/bob:ddeeff" "tx_abc123" "ack"
    "0123456789abcdef0123456789abcdef" 1700000000 =
    .ok (intoBytes ("spize-transfer-receipt:v1\nrecipient=spize:acme/bob:ddeeff\n" ++
      "transfer=tx_abc123\naction=ack\nnonce=0123456789abcdef0123456789abcdef\n" ++
      "ts=1700000000")) := by decide +kernel

end AgentExchange.Wire
