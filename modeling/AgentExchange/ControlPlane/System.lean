import AgentExchange.ControlPlane.Transfers
import AgentExchange.Core.Crypto
import AgentExchange.Core.WireMessages

/-!
# The control plane as a system

Requests arrive in any number and order and are served by interleaved tasks over
one shared state. Any operation may fail, any task may be dropped between two
operations, and the environment moves the clocks.
-/
namespace AgentExchange.ControlPlane

open Library Wire

inductive Request where
  | register (req : RegisterRequest)
  | getAgent (agentId : String)
  | rotateKey (req : RotateKeyRequest)
  | createTransfer (req : CreateTransferRequest)
  | getTransfer (transferId : String)
  | downloadTransfer (transferId : String) (req : RecipientReceiptRequest)
  | ackTransfer (transferId : String) (req : RecipientReceiptRequest)
  | issueTicket (transferId : String) (req : RecipientReceiptRequest)
  | listInbox (req : RecipientReceiptRequest)
  | tick
  deriving DecidableEq

inductive Response where
  | agent (status : ℕ) (body : AgentResponse)
  | rotated (body : RotateKeyResponse)
  | transfer (status : ℕ) (body : TransferResponse)
  | download (body : DownloadResponse)
  | ack (body : AckResponse)
  | ticket (body : TicketResponse)
  | inbox (body : InboxResponse)
  | ticked (touched : ℕ)
  deriving DecidableEq

def handler (env : Env) : Request → Prog Response
  | .register req => do pure (.agent 201 (← register env req))
  | .getAgent agentId => do pure (.agent 200 (← getAgent agentId))
  | .rotateKey req => do pure (.rotated (← rotateKey env req))
  | .createTransfer req => do
    let (status, body) ← createTransfer env req
    pure (.transfer status body)
  | .getTransfer transferId => do pure (.transfer 200 (← getTransfer transferId))
  | .downloadTransfer transferId req => do pure (.download (← downloadTransfer env transferId req))
  | .ackTransfer transferId req => do pure (.ack (← ackTransfer env transferId req))
  | .issueTicket transferId req => do pure (.ticket (← issueTicket env transferId req))
  | .listInbox req => do pure (.inbox (← listInbox env req))
  | .tick => do pure (.ticked (← tick))

/-- The environment sets the injected clock and the database clock. -/
structure ClockChange where
  now : Timestamp
  dbNow : Timestamp

abbrev Label := Library.Label Request Choice ClockChange
abbrev World := Pool effects State Request ApiError Response

def semantics (env : Env) : Semantics effects State Request ApiError Response Choice ClockChange where
  handler := handler env
  exec s op c := exec env s op c
  environment t s := { s with now := t.now, dbNow := t.dbNow }

/-- The server after a run, started on empty tables. -/
def run (env : Env) (labels : List Label) : World := Pool.run (semantics env) {} labels

/-- A run that is checked label by label. -/
theorem run_checked {env : Env} {C : World → Label → Prop} {Q : World → Prop} {labels : List Label}
    (h : Pool.AlongTo (semantics env) C Q ⟨{}, [], []⟩ labels) :
    Pool.Along (semantics env) {} C labels ∧ Q (run env labels) :=
  h.along

/-! ## A small deployment

Two agents with their Ed25519 keys, the messages they signed, and a server that knows the
signatures and digests of just these. -/
namespace Sample

/-- A message an agent signed, with its public key and the signature in hex. -/
structure Signed where
  publicKeyHex : String
  message : Message
  signatureHex : String

def alice : String := "spize:acme/alice:34750f"
def aliceKeyHex : String := "8a88e3dd7409f195fd52db2d3cba5d72ca6709bf1d94121bf3748801b40f6f5c"
def bob : String := "spize:acme/bob:6a3803"
def bobKeyHex : String := "8139770ea87d175f56a35466c34c7ecccb8d8a91b4ee37a25df60f5b8fc9b394"
def time : Int64 := 1700000000
def nonce (b : UInt8) : String := hexEncode (List.replicate 16 b)
def transferId : String := "tx_01010101010101010101010101010101"

def registerAlice : RegisterRequest where
  publicKeyHex := aliceKeyHex
  org := "acme"
  name := "alice"
  nonce := nonce 0xa1
  issuedAt := time
  signatureHex :=
    "ecdbf3f20e679a777e7873273d2c74e2f2522201451e82c4ba8824e90ed1f290" ++
    "18cb514e1b6cd229d7a2effcba7f83abf4978a4579a5244dcd36decb7764c50f"

def registerBob : RegisterRequest where
  publicKeyHex := bobKeyHex
  org := "acme"
  name := "bob"
  nonce := nonce 0xa2
  issuedAt := time
  signatureHex :=
    "cf3e93d213c89839593adcc7d61f5cdf07d5a9b386a5a1ebabe5adc8c8bda77a" ++
    "43875ae93f5c072737fb62f86228fbc0681aa697015e01d918c92829957a760d"

def tunnelRequest : CreateTransferRequest where
  senderAgentId := alice
  recipient := bob
  nonce := nonce 0xb1
  issuedAt := time
  intentSignatureHex :=
    "0d1cfd1ecbd46bc6ea72bc9e4cc6136bb63c5c2e581c8cb133320278148d4760" ++
    "895c3eb1e80f5e7f840a89db265e9b942d07d157c9b9b8706cef0c5bb791c50c"
  tunnelUrl := some "https://x.trycloudflare.com"
  declaredSize := some 5

/-- The same signed intent, with the bytes uploaded. -/
def blobRequest : CreateTransferRequest :=
  { tunnelRequest with tunnelUrl := none, declaredSize := none, blobHex := "68656c6c6f" }

def rotateAlice : RotateKeyRequest where
  agentId := alice
  newPublicKeyHex := "ed4928c628d1c2c6eae90338905995612959273a5c63f93636c14614ac8737d1"
  nonce := nonce 0xd1
  issuedAt := time + 3600
  signatureHex :=
    "7eb5c87332a4392d3e56cc9f3ad4b278b5d3ff99ef97280e7716dfe11f9bdda8" ++
    "152c0f4cdea65ddf22b974204b56294de8ad11a8611893192b893438aaaa7408"

def downloadRequest : RecipientReceiptRequest where
  recipientAgentId := bob
  nonce := nonce 0xc1
  issuedAt := time
  signatureHex :=
    "0ab1e0dafd04574d906d622a42810a7c950cfa61311a0a48daa3e996bdbddee7" ++
    "44419d8383257055b6d49645d2bf5d5f675241abaac726166101fa7585c19e03"

def signatures : List Signed :=
  [⟨aliceKeyHex, .registrationChallengeBytes aliceKeyHex "acme" "alice" (nonce 0xa1) time,
      registerAlice.signatureHex⟩,
    ⟨bobKeyHex, .registrationChallengeBytes bobKeyHex "acme" "bob" (nonce 0xa2) time,
      registerBob.signatureHex⟩,
    ⟨aliceKeyHex, .transferIntentBytes alice bob 5 "" "" (nonce 0xb1) time,
      tunnelRequest.intentSignatureHex⟩,
    ⟨bobKeyHex, .transferReceiptBytes bob transferId "download" (nonce 0xc1) time,
      downloadRequest.signatureHex⟩,
    ⟨aliceKeyHex, .rotateKeyChallengeBytes alice aliceKeyHex rotateAlice.newPublicKeyHex
      (nonce 0xd1) (time + 3600), rotateAlice.signatureHex⟩]

def digests : List (String × String) :=
  [(aliceKeyHex, "34750f98bd59fcfc946da45aaabe933be154a4b5094e1c4abf42866505f3c97e"),
    (bobKeyHex, "6a3803d5f059902a1c6dafbc9ba4729212f7caac08634cc3ae76b27529f03827"),
    (blobRequest.blobHex, "2cf24dba5fb0a30e26e83b2ac5b9e29e1b161e5c1fa7425e73043362938b9824")]

def bytesOf (hex : String) : Bytes := (hexDecode hex).toOption.getD []

def env : Env where
  verifyingKey _ := .ok ()
  verify key message signature := signatures.any fun s => hexEncode key = s.publicKeyHex &&
    s.message.encode = .ok message && hexEncode signature = s.signatureHex
  sha256 := tabulated 32 (digests.map fun d => (bytesOf d.1, bytesOf d.2))
  policy := (TierPolicy.forTier .dev).evaluate
  signer := none
  skipTunnelValidation := false

/-! ### Signatures compared as bytes -/

/-- The texts of a signature are written by `hex::encode`, and the message has an encoding. -/
structure Signed.Exact (s : Signed) : Prop where
  publicKey : isWritten s.publicKeyHex = true
  message : s.message.encode.isOk = true
  signature : isWritten s.signatureHex = true

instance (s : Signed) : Decidable s.Exact :=
  decidable_of_iff (isWritten s.publicKeyHex = true ∧ s.message.encode.isOk = true ∧
      isWritten s.signatureHex = true)
    ⟨fun h => ⟨h.1, h.2.1, h.2.2⟩, fun h => ⟨h.publicKey, h.message, h.signature⟩⟩

/-- Verification that compares bytes: no text is written and no message is checked again, which
makes a run faster to evaluate. -/
def verifies (known : List Signed) (key message signature : Bytes) : Bool :=
  known.any fun s => message = canonicalMessage s.message.header s.message.fields &&
    key = bytesOf s.publicKeyHex && signature = bytesOf s.signatureHex

theorem any_eq_verifies {known : List Signed} (h : ∀ s ∈ known, s.Exact)
    (key message signature : Bytes) :
    (known.any fun s => hexEncode key = s.publicKeyHex && s.message.encode = .ok message &&
      hexEncode signature = s.signatureHex) = verifies known key message signature := by
  rw [Bool.eq_iff_iff, verifies, List.any_eq_true, List.any_eq_true]
  refine exists_congr fun s => and_congr_right fun hs => ?_
  simp only [hexEncode_eq_iff (h s hs).publicKey, hexEncode_eq_iff (h s hs).signature,
    Message.encode_eq_ok_iff (h s hs).message, Bool.and_eq_true]
  exact and_congr_left' and_comm

/-- The server that knows the signatures of a list. -/
def knowing (known : List Signed) : Env := { env with verify := verifies known }

theorem signatures_exact : ∀ s ∈ signatures, s.Exact := by decide +kernel

theorem env_verify (key message signature : Bytes) :
    env.verify key message signature = verifies signatures key message signature :=
  any_eq_verifies signatures_exact key message signature

theorem env_eq : env = knowing signatures :=
  congrArg (fun verify => { env with verify })
    (funext fun key => funext fun message => funext fun signature =>
      env_verify key message signature)

/-- A server that also knows more signatures. -/
theorem eq_knowing {more : List Signed} (hmore : ∀ s ∈ more, s.Exact)
    {verify : Bytes → Bytes → Bytes → Bool}
    (hverify : ∀ key message signature, verify key message signature =
      (env.verify key message signature || more.any fun s => hexEncode key = s.publicKeyHex &&
        hexEncode signature = s.signatureHex && s.message.encode = .ok message)) :
    { env with verify } = knowing (signatures ++ more) := by
  have hknown : verify = verifies (signatures ++ more) := by
    funext key message signature
    have hany := any_eq_verifies hmore key message signature
    simp only [Bool.and_right_comm] at hany
    rw [hverify, env_verify, hany]
    exact List.any_append.symm
  rw [hknown, knowing]

theorem eq_knowing_one {s : Signed} (hs : s.Exact) {verify : Bytes → Bytes → Bytes → Bool}
    (hverify : ∀ key message signature, verify key message signature =
      (env.verify key message signature || (hexEncode key = s.publicKeyHex &&
        hexEncode signature = s.signatureHex && s.message.encode = .ok message))) :
    { env with verify } = knowing (signatures ++ [s]) := by
  apply eq_knowing (List.forall_mem_singleton.mpr hs)
  intro key message signature
  rw [List.any_cons, List.any_nil, Bool.or_false]
  exact hverify key message signature

/-- Both clocks show the given second. -/
def clockAt (seconds : ℤ) : Label := .environment ⟨seconds * 1000000, seconds * 1000000⟩

/-- A request and its first `n` operations, as task `i`; it draws the byte `b`. -/
def serve (i : ℕ) (request : Request) (n : ℕ) (b : UInt8 := 0) : List Label :=
  .spawn request :: List.replicate n (.step i { bytes := List.replicate 16 b })

end Sample

end AgentExchange.ControlPlane
