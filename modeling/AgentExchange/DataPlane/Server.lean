import AgentExchange.Core.WireMessages
import AgentExchange.Policy.Engine
import AgentExchange.Library.TaskPool

/-!
# The data plane

`GET /blob/:transfer_id` serves a blob to the holder of a ticket, and the admin
endpoint stores blobs. The nonce set, the blob map and the scan cache are shared;
a lock is held for one operation at a time, so any number of calls interleave
between their operations. What a scan finds is up to the scanners.
-/
namespace AgentExchange.DataPlane

open Library Wire
open Program (lift ensure okOr)

/-! ## Tickets, blobs and errors -/

structure Ticket where
  transferId : String
  recipient : String
  dataPlaneUrl : String
  expires : Int64
  nonce : String
  /-- hex-encoded Ed25519 -/
  signature : String
  deriving DecidableEq

structure VerifiedTicket where
  transferId : String
  recipient : String
  expires : Int64
  nonce : String
  deriving DecidableEq

structure TicketVerifier where
  controlPlanePubkey : Bytes
  dataPlaneUrl : String
  skewSeconds : Int64

def TicketVerifier.new (controlPlanePubkey : Bytes) (dataPlaneUrl : String) : TicketVerifier :=
  ⟨controlPlanePubkey, dataPlaneUrl, 60⟩

def TicketVerifier.withSkew (v : TicketVerifier) (skewSeconds : Int64) : TicketVerifier :=
  { v with skewSeconds := skewSeconds }

inductive TicketError where
  | encoding (message : String)
  | badSignature
  | expired (expires now : Int64)
  | wrongAudience (ticket ours : String)
  | nonceReplay
  | canon (message : String)
  deriving DecidableEq

def TicketError.display : TicketError → String
  | .encoding m => "invalid base64/hex: " ++ m
  | .badSignature => "invalid signature"
  | .expired expires now => "ticket expired at " ++ toString expires ++ ", now " ++ toString now
  | .wrongAudience ticket ours =>
    "ticket not for this data plane (ticket says " ++ ticket ++ ", we are " ++ ours ++ ")"
  | .nonceReplay => "nonce already used"
  | .canon m => "canonicalisation: " ++ m

structure BlobMetadata where
  size : UInt64
  mime : String
  filename : String
  deriving DecidableEq

inductive ScanVerdictCache where
  | clean
  | blocked (reason : String)
  deriving DecidableEq

/-- The errors `serve` raises. -/
inductive DataPlaneError where
  | blobNotFound (transferId : String)
  | ticket (message : String)
  | scannerBlocked (verdict : String)
  | serde (message : String)
  deriving DecidableEq

/-- What `get_blob` answers to an error. -/
def DataPlaneError.response : DataPlaneError → ℕ × String
  | .blobNotFound _ => (404, "not found")
  | .ticket _ => (401, "bad ticket")
  | .scannerBlocked _ => (403, "scanner blocked")
  | .serde _ => (500, "internal error")

/-- A `Vec<u8>` that was allocated: its length is that of an object in memory. -/
structure Payload where
  bytes : Bytes
  fits : bytes.length < 2 ^ 63

/-- The header texts and the body of a response with a blob. -/
structure Served where
  contentType : String
  contentLength : String
  contentDisposition : String
  body : Bytes
  deriving DecidableEq

/-- The crates behind the data plane. -/
structure Libraries where
  /-- `Verifier::verify` of Ed25519, for a signature of 64 bytes: key, message, signature -/
  ed25519Verify : Bytes → Bytes → Bytes → Bool
  /-- `serde_json::from_str::<Ticket>` -/
  ticketFromStr : String → Except String Ticket
  /-- `serde_json::to_string` of a verdict, which has no value it cannot write -/
  verdictToString : PipelineVerdict → String
  /-- `HeaderValue::to_str` -/
  headerToStr : Bytes → Option String
  /-- `HeaderValue::from_str` succeeds -/
  headerFromStr : String → Bool

structure Env extends Libraries where
  ticketVerifier : TicketVerifier
  /-- whether a scan pipeline is configured -/
  scanner : Bool := true
  adminToken : Option String := none

/-! ## Operations -/

inductive Op where
  | clockNow
  | insertNonce (nonce : String)
  | metadata (transferId : String)
  | bytes (transferId : String)
  | cacheGet (transferId : String)
  | cachePut (transferId : String) (verdict : ScanVerdictCache)
  | scan (input : ScanInput)
  | insertBlob (transferId : String) (metadata : BlobMetadata) (bytes : Bytes)

abbrev Op.Answer : Op → Type
  | .clockNow => Int64
  | .insertNonce _ => Bool
  | .metadata _ => Option BlobMetadata
  | .bytes _ => Option Bytes
  | .cacheGet _ => Option ScanVerdictCache
  | .cachePut _ _ => Unit
  | .scan _ => PipelineVerdict
  | .insertBlob _ _ _ => Unit

abbrev effects : Signature := ⟨Op, Op.Answer⟩

structure State where
  now : Int64 := 0
  usedNonces : List String := []
  blobs : String → Option (BlobMetadata × Bytes) := fun _ => none
  scanCache : String → Option ScanVerdictCache := fun _ => none

/-- The last argument is what a scan finds. -/
def exec (s : State) (op : Op) (verdict : PipelineVerdict) : op.Answer × State :=
  match op with
  | .clockNow => (s.now, s)
  | .insertNonce nonce =>
    if nonce ∈ s.usedNonces then (false, s)
    else (true, { s with usedNonces := nonce :: s.usedNonces })
  | .metadata transferId => ((s.blobs transferId).map Prod.fst, s)
  | .bytes transferId => ((s.blobs transferId).map Prod.snd, s)
  | .cacheGet transferId => (s.scanCache transferId, s)
  | .cachePut transferId verdict =>
    ((), { s with scanCache := Function.update s.scanCache transferId (some verdict) })
  | .scan _ => (verdict, s)
  | .insertBlob transferId metadata bytes =>
    ((), { s with blobs := Function.update s.blobs transferId (some (metadata, bytes)) })

/-! ## Verifying a ticket -/

/-- The message the control plane signs for a ticket. -/
def Ticket.message (t : Ticket) : Message :=
  .dataTicketBytes t.transferId t.recipient t.dataPlaneUrl t.expires t.nonce

/-- `TicketVerifier::verify`. The sum wraps, as it does in a release build. -/
def verify (env : Env) (ticket : Ticket) : Program effects TicketError VerifiedTicket := do
  ensure (ticket.dataPlaneUrl = env.ticketVerifier.dataPlaneUrl)
    (.wrongAudience ticket.dataPlaneUrl env.ticketVerifier.dataPlaneUrl)
  let now ← Program.call (S := effects) .clockNow
  ensure (¬ticket.expires + env.ticketVerifier.skewSeconds < now) (.expired ticket.expires now)
  let sigBytes ← lift ((hexDecode ticket.signature).mapError fun e => .encoding e.display)
  ensure (sigBytes.length = 64) (.encoding "signature not 64 bytes")
  let canon ← lift ((dataTicketBytes ticket.transferId ticket.recipient ticket.dataPlaneUrl
    ticket.expires ticket.nonce).mapError fun e => .canon e.display)
  ensure (env.ed25519Verify env.ticketVerifier.controlPlanePubkey canon sigBytes = true)
    .badSignature
  let inserted ← Program.call (S := effects) (.insertNonce ticket.nonce)
  ensure (inserted = true) .nonceReplay
  pure ⟨ticket.transferId, ticket.recipient, ticket.expires, ticket.nonce⟩

/-! ## Serving a blob -/

/-- How a call ends without an answer of its own: an error of `verify` or `serve`, or a panic. -/
inductive Failure where
  | verify (e : TicketError)
  | serve (e : DataPlaneError)
  | panic
  deriving DecidableEq

abbrev Prog := Program effects Failure
abbrev ask (op : Op) : Prog op.Answer := Program.call (S := effects) op

/-- Go on only if the blob was found clean, now or by an earlier scan of this transfer. -/
def checkScanned (env : Env) (transferId : String) (metadata : BlobMetadata) : Prog Unit := do
  let cached ← ask (.cacheGet transferId)
  match cached with
  | some .clean => pure ()
  | some (.blocked reason) => throw (.serve (.scannerBlocked reason))
  | none => do
    let found ← ask (.bytes transferId)
    let bytes ← okOr found (.serve (.blobNotFound transferId))
    let verdict ← ask (.scan ⟨bytes, some metadata.mime, some metadata.filename⟩)
    if verdict.isBlocking then do
      ask (.cachePut transferId (.blocked (env.verdictToString verdict)))
      throw (.serve (.scannerBlocked (env.verdictToString verdict)))
    else ask (.cachePut transferId .clean)

/-- The headers; a file name that is no header text makes the call panic. -/
def served (env : Env) (metadata : BlobMetadata) (bytes : Bytes) : Except Failure Served := do
  let disposition := "attachment; filename=\"" ++ metadata.filename ++ "\""
  check (env.headerFromStr disposition = true) .panic
  pure
    { contentType :=
        if env.headerFromStr metadata.mime then metadata.mime else "application/octet-stream"
      contentLength := toString metadata.size
      contentDisposition := disposition
      body := bytes }

/-- The second read of the bytes, and the response. -/
def sendBlob (env : Env) (transferId : String) (metadata : BlobMetadata) : Prog Served := do
  let found ← ask (.bytes transferId)
  let bytes ← okOr found (.serve (.blobNotFound transferId))
  lift (served env metadata bytes)

/-- The ticket in the `X-AEX-Ticket` header. -/
def parseTicket (env : Env) (header : Option Bytes) : Except DataPlaneError Ticket := do
  let value ← orError header (.ticket "missing X-AEX-Ticket header")
  let text ← orError (env.headerToStr value) (.ticket "header is not ASCII")
  (env.ticketFromStr text).mapError .serde

def serve (env : Env) (transferId : String) (header : Option Bytes) : Prog Served := do
  let ticket ← lift ((parseTicket env header).mapError .serve)
  let verified ← (verify env ticket).mapError fun e => .serve (.ticket e.display)
  ensure (verified.transferId = transferId)
    (.serve (.ticket ("ticket transfer " ++ verified.transferId ++ " does not match URL " ++
      transferId)))
  let found ← ask (.metadata transferId)
  let metadata ← okOr found (.serve (.blobNotFound transferId))
  if env.scanner then checkScanned env transferId metadata
  sendBlob env transferId metadata

/-! ## Storing a blob -/

structure AdminInsert where
  transferId : String
  mime : Option String := none
  filename : Option String := none
  /-- the `X-AEX-Admin-Token` header -/
  token : Option Bytes := none
  body : Payload

/-- `axum` answers 404 where the endpoint was not mounted. -/
def adminInsertBlob (env : Env) (req : AdminInsert) : Prog (ℕ × String) :=
  match env.adminToken with
  | none => pure (404, "")
  | some token =>
    if req.token.bind env.headerToStr ≠ some token then pure (401, "bad admin token")
    else do
      let metadata : BlobMetadata :=
        { size := .ofNat req.body.bytes.length
          mime := req.mime.getD "application/octet-stream"
          filename := req.filename.getD "blob" }
      ask (.insertBlob req.transferId metadata req.body.bytes)
      pure (201, "ok")

/-- The blob file named by the options. -/
structure BlobFile where
  transferId : String
  mime : Option String := none
  filename : Option String := none
  /-- the last component of the path -/
  pathName : Option String := none
  content : Payload

/-- `load_blob_source`. -/
def loadBlobSource (file : Option BlobFile) : State :=
  match file with
  | none => {}
  | some file =>
    let metadata : BlobMetadata :=
      { size := .ofNat file.content.bytes.length
        mime := file.mime.getD "application/octet-stream"
        filename := file.filename.getD (file.pathName.getD "blob") }
    { blobs := Function.update (fun _ => none) file.transferId
        (some (metadata, file.content.bytes)) }

/-! ## The running server -/

inductive Request where
  | getBlob (transferId : String) (ticket : Option Bytes)
  | adminInsertBlob (req : AdminInsert)
  /-- a call of the verifier outside `serve` -/
  | verify (ticket : Ticket)

inductive Answer where
  | served (s : Served)
  | status (code : ℕ) (message : String)
  | verified (v : VerifiedTicket)
  deriving DecidableEq

def handler (env : Env) : Request → Prog Answer
  | .getBlob transferId ticket => do
    let s ← serve env transferId ticket
    pure (.served s)
  | .adminInsertBlob req => do
    let (code, message) ← adminInsertBlob env req
    pure (.status code message)
  | .verify ticket => do
    let v ← (verify env ticket).mapError .verify
    pure (.verified v)

/-- The environment sets the clock. -/
def semantics (env : Env) : Semantics effects State Request Failure Answer PipelineVerdict Int64 where
  handler := handler env
  exec := exec
  environment t s := { s with now := t }

abbrev Label := Library.Label Request PipelineVerdict Int64
abbrev World := Pool effects State Request Failure Answer

/-- The server after a run of labels, started with the blob the options name. -/
def run (env : Env) (file : Option BlobFile) (labels : List Label) : World :=
  Pool.run (semantics env) (loadBlobSource file) labels

namespace Sample

/-! A data plane that has been handed two tickets for the same transfer. -/

def keyHex : String := "fd1724385aa0c75b64fb78cd602fa1d991fdebf76b13c58ed702eac835e9f618"

def url : String := "https://alice.tunnel.example"

def time : Int64 := 1700000000

def ticket (nonce signature : String) : Ticket :=
  ⟨"tx_abc123", "spize:acme/bob:aabbcc", url, time + 60, nonce, signature⟩

def first : Ticket := ticket "0123456789abcdef0123456789abcdef"
  ("515b3376740952902b1e2e4a43b4e42426b367f15ebc91d401ec7f8020930705" ++
    "aa19ae94a7b15a6d91d8401280a0de175f364e8d80b95b6a0ea30fa55c1dd507")

def second : Ticket := ticket "fedcba9876543210fedcba9876543210"
  ("011988a6b4fa67a8550c05833892a7840ad85cedb6f9a767ec01e6400be17a14" ++
    "c68d31488eacaad5f123584dd7083253b69b1a8cd757fb8a7b45cdc5d2ba9d08")

/-- The header of a fetch. -/
def ticketJson (t : Ticket) : String :=
  "\x7b\"transfer_id\":\"" ++ t.transferId ++ "\",\"recipient\":\"" ++ t.recipient ++
    "\",\"data_plane_url\":\"" ++ t.dataPlaneUrl ++ "\",\"expires\":" ++ toString t.expires ++
    ",\"nonce\":\"" ++ t.nonce ++ "\",\"signature\":\"" ++ t.signature ++ "\"\x7d"

def visible (b : UInt8) : Bool := (32 ≤ b && b < 127) || b = 9

def env : Env where
  ed25519Verify key message signature := hexEncode key = keyHex && [first, second].any fun t =>
    t.message.encode = .ok message && hexEncode signature = t.signature
  ticketFromStr text :=
    match [first, second].find? fun t => ticketJson t = text with
    | some t => .ok t
    | none => .error "expected value at line 1 column 1"
  verdictToString v := v.overall.asStr
  headerToStr value :=
    if value.all visible then some (String.ofList (value.map fun b => Char.ofNat b.toNat)) else none
  headerFromStr text := (intoBytes text).all visible
  ticketVerifier := .new ((hexDecode keyHex).toOption.getD []) url
  adminToken := some "token"

/-- Verification that compares bytes, which is faster to evaluate. -/
def verifies (key message signature : Bytes) : Bool :=
  key = (hexDecode keyHex).toOption.getD [] && [first, second].any fun t =>
    message = canonicalMessage t.message.header t.message.fields &&
      signature = (hexDecode t.signature).toOption.getD []

theorem env_verify (key message signature : Bytes) :
    env.ed25519Verify key message signature = verifies key message signature := by
  have hkey : isWritten keyHex = true := by decide +kernel
  have hsigned : ∀ t ∈ [first, second],
      t.message.encode.isOk = true ∧ isWritten t.signature = true := by decide +kernel
  simp only [env, verifies, hexEncode_eq_iff hkey]
  congr 1
  rw [Bool.eq_iff_iff, List.any_eq_true, List.any_eq_true]
  refine exists_congr fun t => and_congr_right fun ht => ?_
  simp only [Message.encode_eq_ok_iff (hsigned t ht).1, hexEncode_eq_iff (hsigned t ht).2]

theorem intoBytes_of_visible {value : Bytes} (h : value.all visible = true) :
    intoBytes (String.ofList (value.map fun b => Char.ofNat b.toNat)) = value := by
  refine intoBytes_ofList_map fun b hb => ?_
  have hb := List.all_eq_true.mp h b hb
  simp only [visible, Bool.or_eq_true, Bool.and_eq_true, decide_eq_true_eq,
    UInt8.lt_iff_toNat_lt] at hb
  rcases hb with ⟨-, hb⟩ | rfl
  · exact hb.trans (by decide)
  · decide

/-- The text with the bytes of a header, which need not be written anew. -/
def headerText (value : Bytes) : Option String :=
  if h : value.all visible = true then
    some ⟨⟨value.toArray⟩, by
      have htext := congrArg List.toArray (intoBytes_of_visible h)
      rw [← htext]
      exact (String.ofList _).isValidUTF8⟩
  else none

theorem env_headerToStr (value : Bytes) : env.headerToStr value = headerText value := by
  simp only [env, headerText]
  split_ifs with h
  · exact congrArg some (intoBytes_inj.mp (intoBytes_of_visible h))
  · rfl

theorem env_eq : env = { env with ed25519Verify := verifies, headerToStr := headerText } := by
  have hverify : env.ed25519Verify = verifies :=
    funext fun key => funext fun message => funext fun signature =>
      env_verify key message signature
  rw [← hverify, ← funext env_headerToStr]

def clean : PipelineVerdict := ⟨.clean, [], 0⟩

/-- A call and its first `n` operations, as task `i`. -/
def call (i : ℕ) (request : Request) (n : ℕ) : List Label :=
  .spawn request :: List.replicate n (.step i clean)

end Sample

end AgentExchange.DataPlane
