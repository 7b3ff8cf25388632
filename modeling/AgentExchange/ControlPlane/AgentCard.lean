import AgentExchange.Identity.AgentCard
import AgentExchange.Identity.Binding

/-!
# The agent card of the control plane

`GET /.well-known/agent-card.json`. The payload is declared once more here, to mirror the
one its readers use; the key block does not: it has the key in hex, under a name of its own.
-/
namespace AgentExchange.ControlPlane

structure PublicKeyDeclaration where
  keyType : String
  publicKeyHex : String

def PublicKeyDeclaration.toJson (k : PublicKeyDeclaration) : Json :=
  .obj [("type", .str k.keyType), ("publicKeyHex", .str k.publicKeyHex)]

structure Endpoints where
  controlPlane : String
  dataPlanes : List String

def Endpoints.toJson (e : Endpoints) : Json :=
  .obj [("control_plane", .str e.controlPlane), ("data_planes", .arr (e.dataPlanes.map Json.str))]

structure AgentCardPayload where
  iss : String
  sub : String
  iat : Int64
  exp : Int64
  agentId : String
  publicKey : PublicKeyDeclaration
  capabilities : List String
  endpoints : Endpoints

def AgentCardPayload.toJson (p : AgentCardPayload) : Json :=
  .obj [("iss", .str p.iss), ("sub", .str p.sub), ("iat", .num (.ofInt64 p.iat)),
    ("exp", .num (.ofInt64 p.exp)), ("agent_id", .str p.agentId),
    ("public_key", p.publicKey.toJson), ("capabilities", .arr (p.capabilities.map Json.str)),
    ("endpoints", p.endpoints.toJson)]

def defaultCapabilitySet : CapabilitySet :=
  CapabilitySet.empty.withCap .wireV2 |>.withCap .jwsAgentCard |>.withCap .cardEtag
    |>.withCap .safeHttp |>.withCap .clockSkew60s

/-- The signer, as far as the card shows it. -/
structure ControlPlaneSigner where
  verifyingKey : Bytes
  length : verifyingKey.length = 32

def ControlPlaneSigner.publicKeyHex (s : ControlPlaneSigner) : String := hexEncode s.verifyingKey

/-- What is served when the clock reads this many seconds after the epoch. -/
def cardPayload (signer : ControlPlaneSigner) (clock : ℤ) : AgentCardPayload :=
  let now : Int64 := if clock < 0 then 0 else .ofInt clock
  let agentId := "did:spize:control-plane#self"
  { iss := "did:spize:control-plane"
    sub := agentId
    iat := now
    exp := now + 24 * 60 * 60
    agentId := agentId
    publicKey := ⟨"Ed25519VerificationKey2020", signer.publicKeyHex⟩
    capabilities := defaultCapabilitySet.toStringArray
    endpoints := ⟨"self", []⟩ }

/-- The status, and the body where there is one. -/
def agentCard (signer : Option ControlPlaneSigner) (clock : ℤ) : ℕ × Option Json :=
  match signer with
  | none => (503, none)
  | some signer => (200, some (cardPayload signer clock).toJson)

/-- The body is read as the payload of `aex-identity`, with the fields that were served, and its
key block is that of the signer. The key is decoded with the crates of a `did:web` provider. -/
def Mirrors (env : Identity.Env) (signer : ControlPlaneSigner) (clock : ℤ) : Prop :=
  ∃ body card, agentCard (some signer) clock = (200, some body) ∧
    Identity.AgentCardPayload.fromJson body = .ok card ∧
    card.iss = (cardPayload signer clock).iss ∧ card.sub = (cardPayload signer clock).sub ∧
    card.iat = (cardPayload signer clock).iat ∧ card.exp = (cardPayload signer clock).exp ∧
    card.agentId = (cardPayload signer clock).agentId ∧
    card.capabilities = .fromStringArray (cardPayload signer clock).capabilities ∧
    card.endpoints.controlPlane = some (cardPayload signer clock).endpoints.controlPlane ∧
    card.endpoints.dataPlanes = (cardPayload signer clock).endpoints.dataPlanes ∧
    Identity.decodeDidKeyMultibase env card.publicKey.publicKeyMultibase = .ok signer.verifyingKey

/-- The reader takes no key block of the producer. -/
theorem PublicKeyDeclaration.not_read (k : PublicKeyDeclaration) :
    Identity.PublicKeyDeclaration.fromJson k.toJson =
      .error (.missingField "publicKeyMultibase") := rfl

/-- A payload is refused for the field its key block lacks, whatever its other fields hold. -/
theorem AgentCardPayload.not_read (p : AgentCardPayload) :
    Identity.AgentCardPayload.fromJson p.toJson = .error (.missingField "publicKeyMultibase") := by
  simp [Identity.AgentCardPayload.fromJson, Json.visitStruct, AgentCardPayload.toJson,
    Identity.AgentCardPayload.fields, Json.visitMap, Json.structField, Library.check,
    Json.readString, Identity.readI64_ofInt64, PublicKeyDeclaration.not_read, Except.map, bind,
    Except.bind]

theorem agentCard_refused (signer : ControlPlaneSigner) (clock : ℤ) :
    Identity.AgentCardPayload.fromJson (cardPayload signer clock).toJson =
      .error (.missingField "publicKeyMultibase") :=
  (cardPayload signer clock).not_read

theorem Mirrors.read {env : Identity.Env} {signer : ControlPlaneSigner} {clock : ℤ}
    (h : Mirrors env signer clock) :
    ∃ card, Identity.AgentCardPayload.fromJson (cardPayload signer clock).toJson = .ok card := by
  obtain ⟨body, card, hbody, hread, -⟩ := h
  obtain rfl : (cardPayload signer clock).toJson = body := by
    simpa [agentCard] using hbody
  exact ⟨card, hread⟩

/-- Whatever the key and the clock, the body is not read. -/
theorem agentCard_never_mirrors (env : Identity.Env) (signer : ControlPlaneSigner) (clock : ℤ) :
    ¬Mirrors env signer clock := by
  intro h
  obtain ⟨card, hread⟩ := h.read
  rw [agentCard_refused] at hread
  cases hread

def Sample.signer : ControlPlaneSigner :=
  ⟨Identity.Sample.bytesOf Identity.Sample.keyHex, Identity.Sample.length_key⟩

theorem agentCard_not_mirrored :
    (agentCard (some Sample.signer) 1700000000).1 = 200 ∧
      ¬Mirrors Identity.Sample.env Sample.signer 1700000000 := by
  refine ⟨rfl, fun h => ?_⟩
  obtain ⟨card, hread⟩ := h.read
  rw [agentCard_refused] at hread
  cases hread

end AgentExchange.ControlPlane
