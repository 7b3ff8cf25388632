import AgentExchange.Core.Types
import AgentExchange.Core.Json

/-!
# JWS compact serialisation

`aex_jws::verify`: three segments, an algorithm from the whitelist, a key the
caller finds for the `kid`, and a signature over the two first segments as they
were received. Base64, JSON and the signature schemes are parameters.
-/
namespace AgentExchange.Jws

open Library

inductive Algorithm where
  | edDsa
  | es256k
  deriving DecidableEq

namespace Algorithm

def asStr : Algorithm → String
  | .edDsa => "EdDSA"
  | .es256k => "ES256K"

def parse (s : String) : Option Algorithm :=
  if s = "EdDSA" then some .edDsa else if s = "ES256K" then some .es256k else none

/-- The `Debug` text. -/
def debug : Algorithm → String
  | .edDsa => "EdDsa"
  | .es256k => "Es256k"

end Algorithm

inductive JwsError where
  | invalidStructure
  | base64Decode (message : String)
  | invalidHeader (message : String)
  | algorithmNotPermitted (alg : String)
  | algorithmMalformed
  | missingKid
  | unknownKid (kid : String)
  | kidAlgMismatch (kid headerAlg keyAlg : String)
  | badSignature (kid : String)
  | segmentTooLarge
  | signingError (message : String)
  deriving DecidableEq

def segmentMaxBytes : ℕ := 64 * 1024

def JwsError.display : JwsError → String
  | .invalidStructure => "JWS must have exactly three segments separated by '.'"
  | .base64Decode m => "base64url decode failed: " ++ m
  | .invalidHeader m => "invalid JWS header: " ++ m
  | .algorithmNotPermitted alg =>
    "algorithm '" ++ alg ++ "' is not permitted; only EdDSA and ES256K accepted"
  | .algorithmMalformed => "alg must be a single string value"
  | .missingKid => "kid is required and must be a non-empty string"
  | .unknownKid kid => "no key found for kid '" ++ kid ++ "'"
  | .kidAlgMismatch kid headerAlg keyAlg =>
    "kid '" ++ kid ++ "' resolves to a key of algorithm " ++ keyAlg ++ ", but header declared " ++
      headerAlg
  | .badSignature kid => "signature verification failed for kid '" ++ kid ++ "'"
  | .segmentTooLarge => "segment exceeds " ++ toString segmentMaxBytes ++ " byte cap"
  | .signingError m => "signing error: " ++ m

structure JwsHeader where
  alg : Algorithm
  kid : String
  typ : Option String
  deriving DecidableEq

inductive VerifierKey where
  | ed25519 (key : Bytes)
  | secp256k1 (key : Bytes)
  deriving DecidableEq

def VerifierKey.algorithm : VerifierKey → Algorithm
  | .ed25519 _ => .edDsa
  | .secp256k1 _ => .es256k

structure VerifiedPayload where
  header : JwsHeader
  payload : Bytes

/-- The crates behind `verify`. -/
structure Libraries where
  /-- `URL_SAFE_NO_PAD.decode` -/
  base64Decode : String → Except String Bytes
  /-- `serde_json::from_slice::<Value>` -/
  valueFromSlice : Bytes → Except String Json
  /-- `serde_json::from_value::<JwsHeader>` -/
  headerFromValue : Json → Except String JwsHeader
  /-- `VerifyingKey::verify` of Ed25519, for a signature of 64 bytes: key, message, signature -/
  ed25519Verify : Bytes → Bytes → Bytes → Bool
  /-- `k256::ecdsa::Signature::from_slice` succeeds -/
  secp256k1Signature : Bytes → Bool
  /-- `k256::ecdsa::VerifyingKey::verify`: key, message, signature -/
  secp256k1Verify : Bytes → Bytes → Bytes → Bool

/-- `Value::get`. -/
def getField (key : String) : Json → Option Json
  | .obj fields => (fields.find? fun f => f.1 = key).map Prod.snd
  | _ => none

/-- The check of the raw `alg` value. -/
def checkAlg (raw : Json) : Except JwsError Unit :=
  match getField "alg" raw with
  | none => .error (.invalidHeader "missing alg")
  | some (.str s) => if (Algorithm.parse s).isNone then .error (.algorithmNotPermitted s) else .ok ()
  | some _ => .error .algorithmMalformed

/-- The signature is well formed and verifies under the key. -/
def VerifierKey.accepts (lib : Libraries) (message signature : Bytes) : VerifierKey → Bool
  | .ed25519 key => signature.length = 64 && lib.ed25519Verify key message signature
  | .secp256k1 key => lib.secp256k1Signature signature && lib.secp256k1Verify key message signature

def verify (lib : Libraries) (jws : String)
    (keyLookup : String → Except JwsError (Option VerifierKey)) :
    Except JwsError VerifiedPayload :=
  match splitAt '.' jws with
  | [header64, payload64, signature64] => do
    check (header64.utf8ByteSize ≤ segmentMaxBytes ∧ payload64.utf8ByteSize ≤ segmentMaxBytes ∧
      signature64.utf8ByteSize ≤ segmentMaxBytes) .segmentTooLarge
    let headerJson ← (lib.base64Decode header64).mapError fun e => .base64Decode ("header: " ++ e)
    let payload ← (lib.base64Decode payload64).mapError fun e => .base64Decode ("payload: " ++ e)
    let signature ← (lib.base64Decode signature64).mapError fun e =>
      .base64Decode ("signature: " ++ e)
    let raw ← (lib.valueFromSlice headerJson).mapError .invalidHeader
    checkAlg raw
    let header ← (lib.headerFromValue raw).mapError .invalidHeader
    check (header.kid ≠ "") .missingKid
    let found ← keyLookup header.kid
    let key ← orError found (.unknownKid header.kid)
    check (key.algorithm = header.alg)
      (.kidAlgMismatch header.kid header.alg.asStr key.algorithm.asStr)
    let signingInput := header64 ++ "." ++ payload64
    check (key.accepts lib (intoBytes signingInput) signature = true) (.badSignature header.kid)
    pure ⟨header, payload⟩
  | _ => .error .invalidStructure

/-- A JWS taken apart: the segments as received and what they decode to. -/
structure Parts where
  header64 : String
  payload64 : String
  signature64 : String
  headerJson : Bytes
  payload : Bytes
  signature : Bytes
  raw : Json
  header : JwsHeader

/-- The string is the JWS with these parts. -/
structure Parts.Of (lib : Libraries) (p : Parts) (jws : String) : Prop where
  segments : splitAt '.' jws = [p.header64, p.payload64, p.signature64]
  size : p.header64.utf8ByteSize ≤ segmentMaxBytes ∧ p.payload64.utf8ByteSize ≤ segmentMaxBytes ∧
    p.signature64.utf8ByteSize ≤ segmentMaxBytes
  headerJson : lib.base64Decode p.header64 = .ok p.headerJson
  payload : lib.base64Decode p.payload64 = .ok p.payload
  signature : lib.base64Decode p.signature64 = .ok p.signature
  raw : lib.valueFromSlice p.headerJson = .ok p.raw
  alg : ∃ s, getField "alg" p.raw = some (.str s) ∧ (Algorithm.parse s).isSome
  header : lib.headerFromValue p.raw = .ok p.header
  kid : p.header.kid ≠ ""

/-- The key verifies the signature over the segments as received. -/
def Parts.SignedBy (lib : Libraries) (p : Parts) (key : VerifierKey) : Prop :=
  key.algorithm = p.header.alg ∧
    key.accepts lib (intoBytes (p.header64 ++ "." ++ p.payload64)) p.signature = true

theorem checkAlg_eq_ok {raw : Json} :
    checkAlg raw = .ok () ↔ ∃ s, getField "alg" raw = some (.str s) ∧ (Algorithm.parse s).isSome := by
  unfold checkAlg
  split
  · simp_all
  · rename_i s h
    cases hparse : Algorithm.parse s <;> simp [h, hparse]
  · rename_i v hne h
    constructor
    · intro hv
      cases hv
    · rintro ⟨s, hs, -⟩
      rw [h] at hs
      exact absurd (Option.some.inj hs) (hne s)

/-- `verify` succeeds on just the well-formed strings whose signature the found key verifies. -/
theorem verify_eq_ok {lib : Libraries} {jws : String}
    {keyLookup : String → Except JwsError (Option VerifierKey)} {out : VerifiedPayload} :
    verify lib jws keyLookup = .ok out ↔
      ∃ (p : Parts) (key : VerifierKey), p.Of lib jws ∧ keyLookup p.header.kid = .ok (some key) ∧ p.SignedBy lib key ∧
        out = ⟨p.header, p.payload⟩ := by
  constructor
  · intro h
    unfold verify at h
    split at h
    · rename_i header64 payload64 signature64 hsegments
      obtain ⟨hsize, h⟩ := check_bind_eq_ok.mp h
      obtain ⟨headerJson, hheaderJson, h⟩ := except_bind_eq_ok.mp h
      obtain ⟨payload, hpayload, h⟩ := except_bind_eq_ok.mp h
      obtain ⟨signature, hsignature, h⟩ := except_bind_eq_ok.mp h
      obtain ⟨raw, hraw, h⟩ := except_bind_eq_ok.mp h
      obtain ⟨_, halg, h⟩ := except_bind_eq_ok.mp h
      obtain ⟨header, hheader, h⟩ := except_bind_eq_ok.mp h
      obtain ⟨hkid, h⟩ := check_bind_eq_ok.mp h
      obtain ⟨found, hfound, h⟩ := except_bind_eq_ok.mp h
      obtain ⟨key, hkey, h⟩ := except_bind_eq_ok.mp h
      obtain ⟨halgorithm, h⟩ := check_bind_eq_ok.mp h
      obtain ⟨haccepts, h⟩ := check_bind_eq_ok.mp h
      rw [orError_eq_ok.mp hkey] at hfound
      cases h
      refine ⟨⟨header64, payload64, signature64, headerJson, payload, signature, raw, header⟩,
        key, ?_, hfound, ⟨halgorithm, haccepts⟩, rfl⟩
      exact ⟨hsegments, hsize, except_mapError_eq_ok.mp hheaderJson,
        except_mapError_eq_ok.mp hpayload, except_mapError_eq_ok.mp hsignature,
        except_mapError_eq_ok.mp hraw, checkAlg_eq_ok.mp halg, except_mapError_eq_ok.mp hheader,
        hkid⟩
    · cases h
  · rintro ⟨p, key, hp, hlookup, ⟨halgorithm, haccepts⟩, rfl⟩
    unfold verify
    rw [hp.segments]
    refine check_bind_eq_ok.mpr ⟨hp.size, ?_⟩
    refine except_bind_eq_ok.mpr ⟨_, except_mapError_eq_ok.mpr hp.headerJson, ?_⟩
    refine except_bind_eq_ok.mpr ⟨_, except_mapError_eq_ok.mpr hp.payload, ?_⟩
    refine except_bind_eq_ok.mpr ⟨_, except_mapError_eq_ok.mpr hp.signature, ?_⟩
    refine except_bind_eq_ok.mpr ⟨_, except_mapError_eq_ok.mpr hp.raw, ?_⟩
    refine except_bind_eq_ok.mpr ⟨_, checkAlg_eq_ok.mpr hp.alg, ?_⟩
    refine except_bind_eq_ok.mpr ⟨_, except_mapError_eq_ok.mpr hp.header, ?_⟩
    refine check_bind_eq_ok.mpr ⟨hp.kid, ?_⟩
    refine except_bind_eq_ok.mpr ⟨_, hlookup, ?_⟩
    refine except_bind_eq_ok.mpr ⟨key, orError_eq_ok.mpr rfl, ?_⟩
    refine check_bind_eq_ok.mpr ⟨halgorithm, ?_⟩
    exact check_bind_eq_ok.mpr ⟨haccepts, rfl⟩

end AgentExchange.Jws
