import AgentExchange.Core.Types

/-!
# The native identity provider

The id of a native agent is made from its labels and its key. The public key of a secret and the
digest are parameters.
-/
namespace AgentExchange.Identity.Native

/-- Stricter than the check of an id. -/
def validateLabel (s field : String) : Except Error Unit :=
  if s.isEmpty then .error (.invalidAgentId (field ++ " is empty"))
  else if s.utf8ByteSize > 64 then
    .error (.invalidAgentId (field ++ " too long: " ++ toString s.utf8ByteSize))
  else
    match firstBadChar (fun c => !(isAsciiAlphanumeric c || c = '-' || c = '_')) s with
    | some (c, i) =>
      .error (.invalidAgentId (field ++ " char at " ++ toString i ++ ": " ++ charDebug c ++
        " (allowed: a-z 0-9 - _)"))
    | none => .ok ()

variable (verifyingKey sha256 : Bytes → Bytes)

def computeFingerprint (key : Bytes) : String := hexEncode ((sha256 key).take 3)

structure SpizeNativeProvider where
  agentId : AgentId
  signingKey : Bytes

def fromSigningKey (org name : String) (signingKey : Bytes) : Except Error SpizeNativeProvider := do
  validateLabel org "org"
  validateLabel name "name"
  let fingerprint := computeFingerprint sha256 (verifyingKey signingKey)
  let agentId ← AgentId.new ("spize:" ++ org ++ "/" ++ name ++ ":" ++ fingerprint)
  pure ⟨agentId, signingKey⟩

end AgentExchange.Identity.Native
