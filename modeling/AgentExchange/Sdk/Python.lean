import AgentExchange.Core.Wire

/-!
# The wire formats of the Python SDK

`aex_sdk.wire` and `aex_sdk.wire_v2`. A `str` is a sequence of code points and `len`
counts them; the formatted text is encoded with the strict `ascii` codec. The two
modules have the same validators, and each format of one version differs from the
other's in its header line only.
-/
namespace AgentExchange.Python

/-- The exceptions the SDK raises. -/
inductive Exception where
  | valueError (message : String)
  | unicodeEncodeError (message : String)
  | spizeError (message : String)
  | identityError (message : String)
  deriving DecidableEq, Repr

def len (s : String) : ℕ := s.toList.length

/-- `str.isspace` of a character. -/
def isSpace (c : Char) : Bool :=
  let n := c.toNat
  (9 ≤ n && n ≤ 13) || (0x1c ≤ n && n ≤ 0x20) || n == 0x85 || n == 0xa0 || n == 0x1680 ||
    (0x2000 ≤ n && n ≤ 0x200a) || n == 0x2028 || n == 0x2029 || n == 0x202f || n == 0x205f ||
    n == 0x3000

/-- `str.strip`. -/
def strip (s : String) : String :=
  String.ofList (((s.toList.dropWhile isSpace).reverse.dropWhile isSpace).reverse)

/-- `repr` of a one-character string. Beyond Latin-1 every character counts as printable. -/
def reprChar (c : Char) : String :=
  let body :=
    if c = '\n' then "\\n"
    else if c = '\r' then "\\r"
    else if c = '\t' then "\\t"
    else if c = '\\' then "\\\\"
    else if c.toNat < 32 || (127 ≤ c.toNat && c.toNat ≤ 160) || c.toNat = 173 then
      "\\x" ++ hexEncode [UInt8.ofNat c.toNat]
    else String.ofList [c]
  if c = '\'' then "\"'\"" else "'" ++ body ++ "'"

/-- `str.encode("ascii")`. -/
def encodeAscii (s : String) : Except Exception Bytes :=
  match firstBadChar (fun c => c.toNat > 127) s with
  | some (c, i) => .error (.unicodeEncodeError ("'ascii' codec can't encode character " ++
      reprChar c ++ " in position " ++ toString i ++ ": ordinal not in range(128)"))
  | none => .ok (s.toList.map fun c => UInt8.ofNat c.toNat)

def protocolVersion : String := "v1"
def protocolVersionV2 : String := "v2"
def minNonceLen : ℕ := 32
def maxNonceLen : ℕ := 128

def validateAsciiLine (s field : String) (allowEmpty : Bool := false) : Except Exception Unit :=
  if s.isEmpty then
    if allowEmpty then .ok () else .error (.valueError (field ++ " is empty"))
  else
    match firstBadChar (fun c => c.toNat > 127 || c ∈ ['\n', '\r', '\x00']) s with
    | some (c, i) =>
      .error (.valueError (field ++ " has invalid char at " ++ toString i ++ ": " ++ reprChar c))
    | none => .ok ()

def validateNonce (nonce : String) : Except Exception Unit :=
  if ¬(minNonceLen ≤ len nonce ∧ len nonce ≤ maxNonceLen) then
    .error (.valueError ("nonce length " ++ toString (len nonce) ++ " outside [" ++
      toString minNonceLen ++ ", " ++ toString maxNonceLen ++ "]"))
  else if ¬nonce.toList.all (· ∈ "0123456789abcdefABCDEF".toList) then
    .error (.valueError "nonce must be hex")
  else .ok ()

def registrationChallenge (header publicKeyHex org name nonce : String) (issuedAtUnix : ℤ) :
    Except Exception Bytes := do
  validateAsciiLine publicKeyHex "public_key_hex"
  validateAsciiLine org "org"
  validateAsciiLine name "name"
  validateNonce nonce
  encodeAscii (header ++ "\n" ++ "pub=" ++ publicKeyHex ++ "\n" ++ "org=" ++ org ++ "\n" ++
    "name=" ++ name ++ "\n" ++ "nonce=" ++ nonce ++ "\n" ++ "ts=" ++ toString issuedAtUnix)

def registrationChallengeBytes := registrationChallenge ("spize-register:" ++ protocolVersion)

def registrationChallengeBytesV2 := registrationChallenge ("aex-register:" ++ protocolVersionV2)

def transferIntent (header senderAgentId recipient : String) (sizeBytes : ℤ)
    (declaredMime filename nonce : String) (issuedAtUnix : ℤ) : Except Exception Bytes := do
  validateAsciiLine senderAgentId "sender_agent_id"
  validateAsciiLine recipient "recipient"
  validateAsciiLine declaredMime "declared_mime" true
  validateAsciiLine filename "filename" true
  validateNonce nonce
  encodeAscii (header ++ "\n" ++ "sender=" ++ senderAgentId ++ "\n" ++ "recipient=" ++ recipient ++
    "\n" ++ "size=" ++ toString sizeBytes ++ "\n" ++ "mime=" ++ declaredMime ++ "\n" ++
    "filename=" ++ filename ++ "\n" ++ "nonce=" ++ nonce ++ "\n" ++ "ts=" ++ toString issuedAtUnix)

def transferIntentBytes := transferIntent ("spize-transfer-intent:" ++ protocolVersion)

def transferIntentBytesV2 := transferIntent ("aex-transfer-intent:" ++ protocolVersionV2)

def dataTicketBytesV2 (transferId recipientAgentId dataPlaneUrl : String) (expiresUnix : ℤ)
    (nonce : String) : Except Exception Bytes := do
  validateAsciiLine transferId "transfer_id"
  validateAsciiLine recipientAgentId "recipient_agent_id"
  validateAsciiLine dataPlaneUrl "data_plane_url"
  validateNonce nonce
  encodeAscii ("aex-data-ticket:" ++ protocolVersionV2 ++ "\n" ++ "transfer=" ++ transferId ++
    "\n" ++ "recipient=" ++ recipientAgentId ++ "\n" ++ "data_plane=" ++ dataPlaneUrl ++ "\n" ++
    "expires=" ++ toString expiresUnix ++ "\n" ++ "nonce=" ++ nonce)

def rotateKeyChallenge (header agentId oldPublicKeyHex newPublicKeyHex nonce : String)
    (issuedAtUnix : ℤ) : Except Exception Bytes := do
  validateAsciiLine agentId "agent_id"
  validateAsciiLine oldPublicKeyHex "old_public_key_hex"
  validateAsciiLine newPublicKeyHex "new_public_key_hex"
  validateNonce nonce
  if oldPublicKeyHex = newPublicKeyHex then
    throw (.valueError "old_public_key_hex and new_public_key_hex must differ")
  encodeAscii (header ++ "\n" ++ "agent=" ++ agentId ++ "\n" ++ "old_pub=" ++ oldPublicKeyHex ++
    "\n" ++ "new_pub=" ++ newPublicKeyHex ++ "\n" ++ "nonce=" ++ nonce ++ "\n" ++
    "ts=" ++ toString issuedAtUnix)

def rotateKeyChallengeBytes := rotateKeyChallenge ("spize-rotate-key:" ++ protocolVersion)

def rotateKeyChallengeBytesV2 := rotateKeyChallenge ("aex-rotate-key:" ++ protocolVersionV2)

def transferReceipt (header recipientAgentId transferId action nonce : String)
    (issuedAtUnix : ℤ) : Except Exception Bytes := do
  validateAsciiLine recipientAgentId "recipient_agent_id"
  validateAsciiLine transferId "transfer_id"
  validateAsciiLine action "action"
  validateNonce nonce
  if action ∉ ["download", "ack", "inbox", "request_ticket"] then
    throw (.valueError
      ("action must be 'download', 'ack', 'inbox' or 'request_ticket', got " ++ action))
  encodeAscii (header ++ "\n" ++ "recipient=" ++ recipientAgentId ++ "\n" ++ "transfer=" ++
    transferId ++ "\n" ++ "action=" ++ action ++ "\n" ++ "nonce=" ++ nonce ++ "\n" ++
    "ts=" ++ toString issuedAtUnix)

def transferReceiptBytes := transferReceipt ("spize-transfer-receipt:" ++ protocolVersion)

def transferReceiptBytesV2 := transferReceipt ("aex-transfer-receipt:" ++ protocolVersionV2)

def decisionRequestBytesV2 (recipientAgentId transferId decisionId : String) (etaSeconds : ℤ)
    (nonce : String) (issuedAtUnix : ℤ) : Except Exception Bytes := do
  validateAsciiLine recipientAgentId "recipient_agent_id"
  validateAsciiLine transferId "transfer_id"
  validateAsciiLine decisionId "decision_id"
  validateNonce nonce
  if etaSeconds < 0 then
    throw (.valueError "eta_seconds must be non-negative")
  encodeAscii ("aex-decision-request:" ++ protocolVersionV2 ++ "\n" ++ "recipient=" ++
    recipientAgentId ++ "\n" ++ "transfer=" ++ transferId ++ "\n" ++ "decision=" ++ decisionId ++
    "\n" ++ "eta_secs=" ++ toString etaSeconds ++ "\n" ++ "nonce=" ++ nonce ++ "\n" ++
    "ts=" ++ toString issuedAtUnix)

def decisionResponseBytesV2 (recipientAgentId transferId decisionId outcome reason nonce : String)
    (issuedAtUnix : ℤ) : Except Exception Bytes := do
  validateAsciiLine recipientAgentId "recipient_agent_id"
  validateAsciiLine transferId "transfer_id"
  validateAsciiLine decisionId "decision_id"
  validateAsciiLine outcome "outcome"
  validateAsciiLine reason "reason" true
  validateNonce nonce
  if outcome ∉ ["accepted", "rejected"] then
    throw (.valueError ("outcome must be 'accepted' or 'rejected', got " ++ outcome))
  encodeAscii ("aex-decision-response:" ++ protocolVersionV2 ++ "\n" ++ "recipient=" ++
    recipientAgentId ++ "\n" ++ "transfer=" ++ transferId ++ "\n" ++ "decision=" ++ decisionId ++
    "\n" ++ "outcome=" ++ outcome ++ "\n" ++ "reason=" ++ reason ++ "\n" ++ "nonce=" ++ nonce ++
    "\n" ++ "ts=" ++ toString issuedAtUnix)

end AgentExchange.Python
