import AgentExchange.Core.Capability
import AgentExchange.Identity.Jws
import AgentExchange.Library.TaskPool

/-!
# The `did:web` identity provider

A peer is resolved by fetching its agent card, a JWS that is verified under the
key it declares itself, and the key is cached under the peer's id. Calls run
concurrently; the lock around the cache is held for one operation at a time.
-/
namespace AgentExchange.Identity

open Library
open Program (lift ensure)

inductive SignatureAlgorithm where
  | ed25519
  | ecdsaSecp256k1
  deriving DecidableEq

/-- The `Debug` text. -/
def SignatureAlgorithm.debug : SignatureAlgorithm → String
  | .ed25519 => "Ed25519"
  | .ecdsaSecp256k1 => "EcdsaSecp256k1"

structure Signature where
  algorithm : SignatureAlgorithm
  bytes : Bytes

structure PublicKeyDeclaration where
  keyType : String
  publicKeyMultibase : String
  deriving DecidableEq

structure Endpoints where
  controlPlane : Option String := none
  dataPlanes : List String := []
  deriving DecidableEq

structure AgentCardPayload where
  iss : String
  sub : String
  iat : Int64
  exp : Int64
  agentId : String
  publicKey : PublicKeyDeclaration
  capabilities : CapabilitySet := .empty
  endpoints : Endpoints := {}
  deriving DecidableEq

def AgentCardPayload.hasCapability (card : AgentCardPayload) (cap : Capability) : Bool :=
  card.capabilities.has cap

/-- The provider's own identity; its signing key is not used on peers. -/
structure DidWebProvider where
  agentId : AgentId
  componentName : String

def DidWebProvider.new (agentId : AgentId) (componentName : String) :
    Except Error DidWebProvider := do
  check (agentId.scheme = .didWeb)
    (.invalidAgentId ("DidWebProvider requires a did:web agent_id, got " ++ agentId.asStr))
  pure ⟨agentId, componentName⟩

/-- The provider and the crates behind it. -/
structure Env extends Jws.Libraries where
  /-- `serde_json::from_slice::<AgentCardPayload>` -/
  cardFromSlice : Bytes → Except String AgentCardPayload
  /-- `bs58::decode(..).into_vec()` -/
  bs58Decode : String → Except String Bytes
  /-- `VerifyingKey::from_bytes` on 32 bytes -/
  verifyingKey : Bytes → Except String Unit
  provider : DidWebProvider

def ed25519MulticodecPrefix : Bytes := [0xed, 0x01]

/-! ## The card -/

def wellKnownUrl (agentId : AgentId) : Except Error String := do
  let uri ← orError agentId.asDidUri
    (.invalidAgentId ("did:web id is not a valid DID URI: " ++ agentId.asStr))
  check (uri.method = "web") (.invalidAgentId ("expected did:web, got did:" ++ uri.method))
  let authority := (splitAt ':' uri.methodSpecificId).headD ""
  check (authority ≠ "") (.invalidAgentId "did:web authority is empty")
  check (¬('/' ∈ authority.toList ∨ '?' ∈ authority.toList ∨ '#' ∈ authority.toList))
    (.invalidAgentId ("did:web authority contains URL-reserved chars: " ++ authority))
  pure ("https://" ++ authority ++ "/.well-known/agent-card.json")

def decodeDidKeyMultibase (env : Env) (s : String) : Except Error Bytes := do
  let afterZ ← orError (dropStart "z" s)
    (.crypto ("multibase must start with 'z', got '" ++ s ++ "'"))
  let bytes ← (env.bs58Decode afterZ).mapError fun e => .crypto ("base58 decode: " ++ e)
  check (bytes.length = ed25519MulticodecPrefix.length + 32)
    (.crypto ("multibase length mismatch: " ++ toString bytes.length ++ " bytes"))
  check (bytes.take 2 = ed25519MulticodecPrefix)
    (.crypto ("multicodec prefix mismatch: [" ++
      ", ".intercalate ((bytes.take 2).map fun b => hexEncode [b]) ++ "]"))
  (env.verifyingKey (bytes.drop 2)).mapError fun e => .crypto ("Ed25519 key: " ++ e)
  pure (bytes.drop 2)

/-- The key lookup `fetch_and_verify_card` hands to `verify`: the key the payload declares. -/
def cardKey (env : Env) (jws kid : String) : Except Jws.JwsError (Option Jws.VerifierKey) := do
  let payload64 ← orError (splitAt '.' (trim jws))[1]? .invalidStructure
  let payloadBytes ← (env.base64Decode payload64).mapError fun e =>
    .base64Decode ("payload: " ++ e)
  let payload ← (env.cardFromSlice payloadBytes).mapError fun e =>
    .invalidHeader ("payload parse: " ++ e)
  check (payload.agentId = kid)
    (.kidAlgMismatch kid "EdDSA" ("payload claims " ++ payload.agentId))
  let key ← (decodeDidKeyMultibase env payload.publicKey.publicKeyMultibase).mapError fun e =>
    .invalidHeader ("public_key: " ++ e.display)
  pure (some (.ed25519 key))

/-- What `fetch_and_verify_card` does with the response body. -/
def verifyCard (env : Env) (body : Bytes) : Except Error (Bytes × AgentCardPayload) := do
  let jws ← (fromUtf8 body).mapError fun e => .crypto ("agent card not UTF-8: " ++ e)
  let verified ← (Jws.verify env.toLibraries (trim jws) (cardKey env jws)).mapError fun e =>
    .crypto ("agent card JWS verify failed: " ++ e.display)
  check (verified.header.alg = .edDsa)
    (.crypto ("did:web cards must use EdDSA for now; got " ++ verified.header.alg.debug))
  let payload ← (env.cardFromSlice verified.payload).mapError fun e =>
    .crypto ("agent card payload parse: " ++ e)
  let key ← decodeDidKeyMultibase env payload.publicKey.publicKeyMultibase
  pure (key, payload)

/-! ## The provider -/

inductive Op where
  | cachedPeer (peerId : AgentId)
  | safeGet (url componentName : String)
  | insertPeer (peerId : AgentId) (key : Bytes)

abbrev Op.Answer : Op → Type
  | .cachedPeer _ => Option Bytes
  | .safeGet _ _ => Except String Bytes
  | .insertPeer _ _ => Unit

abbrev effects : Library.Signature := ⟨Op, Op.Answer⟩
abbrev Prog := Program effects Error
abbrev ask (op : Op) : Prog op.Answer := Program.call (S := effects) op

def fetchAndVerifyCard (env : Env) (peerId : AgentId) : Prog (Bytes × AgentCardPayload) := do
  let url ← lift (wellKnownUrl peerId)
  let response ← ask (.safeGet url env.provider.componentName)
  let body ← lift (response.mapError fun e =>
    .notFound ("did:web fetch failed for " ++ peerId.asStr ++ ": " ++ e))
  lift (verifyCard env body)

/-- The cached key, or the key of the card, which is then cached. -/
def peerKey (env : Env) (peerId : AgentId) : Prog Bytes := do
  let cached ← ask (.cachedPeer peerId)
  match cached with
  | some key => pure key
  | none => do
    let (key, _) ← fetchAndVerifyCard env peerId
    ask (.insertPeer peerId key)
    pure key

def verifyPeer (env : Env) (peerId : AgentId) (message : Bytes) (signature : Signature) :
    Prog Unit := do
  ensure (signature.algorithm = .ed25519)
    (.signatureFormat ("did:web (Ed25519 keys) requires Ed25519 signature, got " ++
      signature.algorithm.debug))
  let key ← peerKey env peerId
  ensure (signature.bytes.length = 64)
    (.signatureFormat ("Ed25519 signature must be 64 bytes, got " ++
      toString signature.bytes.length))
  ensure (env.ed25519Verify key message signature.bytes = true) .signatureInvalid

def registerPeer (peerId : AgentId) (key : Bytes) : Prog Unit := ask (.insertPeer peerId key)

inductive Request where
  | verifyPeer (peerId : AgentId) (message : Bytes) (signature : Signature)
  | registerPeer (peerId : AgentId) (key : Bytes)

def handler (env : Env) : Request → Prog Unit
  | .verifyPeer peerId message signature => verifyPeer env peerId message signature
  | .registerPeer peerId key => registerPeer peerId key

/-- The cache, and the wall clock in Unix seconds. -/
structure State where
  peers : AgentId → Option Bytes := fun _ => none
  now : ℤ := 0

/-- The last argument is what the network answers. -/
def exec (s : State) (op : Op) (response : Except String Bytes) : op.Answer × State :=
  match op with
  | .cachedPeer peerId => (s.peers peerId, s)
  | .safeGet _ _ => (response, s)
  | .insertPeer peerId key => ((), { s with peers := Function.update s.peers peerId (some key) })

def semantics (env : Env) : Semantics effects State Request Error Unit (Except String Bytes) ℤ where
  handler := handler env
  exec := exec
  environment t s := { s with now := t }

abbrev Label := Library.Label Request (Except String Bytes) ℤ
abbrev World := Pool effects State Request Error Unit

def run (env : Env) (labels : List Label) : World := Pool.run (semantics env) {} labels

end AgentExchange.Identity
