import AgentExchange.Identity.JwsSoundness

/-!
# Signing and verifying

`sign_ed25519` and `sign_es256k`, which share `sign_inner`. The verifier compares the
encoded length of a segment with the cap; the signer compares nothing, so the two agree
only up to three quarters of the cap.
-/
namespace AgentExchange.Jws

open Library Json

inductive SigningKey where
  | ed25519 (key : Bytes)
  | secp256k1 (key : Bytes)

def SigningKey.algorithm : SigningKey → Algorithm
  | .ed25519 _ => .edDsa
  | .secp256k1 _ => .es256k

/-- The crates behind signing. -/
structure SigningLibraries where
  /-- `URL_SAFE_NO_PAD.encode` -/
  base64Encode : Bytes → String
  /-- `serde_json::to_vec` of a header -/
  toVec : JwsHeader → Except String Bytes
  /-- `SigningKey::sign` of Ed25519 -/
  ed25519Sign : Bytes → Bytes → Bytes
  /-- `k256::ecdsa::SigningKey::sign` -/
  secp256k1Sign : Bytes → Bytes → Bytes
  /-- `verifying_key` -/
  verifyingKey : SigningKey → VerifierKey

def signInner (signing : SigningLibraries) (payload : Bytes) (kid : String) (alg : Algorithm)
    (signFn : Bytes → Except JwsError Bytes) : Except JwsError String := do
  check (kid ≠ "") .missingKid
  let header : JwsHeader := ⟨alg, kid, some "JOSE+JSON"⟩
  let headerJson ← (signing.toVec header).mapError .invalidHeader
  let header64 := signing.base64Encode headerJson
  let payload64 := signing.base64Encode payload
  let signingInput := header64 ++ "." ++ payload64
  let signature ← signFn (intoBytes signingInput)
  pure (signingInput ++ "." ++ signing.base64Encode signature)

def signEd25519 (signing : SigningLibraries) (payload signingKey : Bytes) (kid : String) :
    Except JwsError String :=
  signInner signing payload kid .edDsa fun input => .ok (signing.ed25519Sign signingKey input)

def signEs256k (signing : SigningLibraries) (payload signingKey : Bytes) (kid : String) :
    Except JwsError String :=
  signInner signing payload kid .es256k fun input => .ok (signing.secp256k1Sign signingKey input)

/-- The signing function for the key. -/
def sign (signing : SigningLibraries) (payload : Bytes) (key : SigningKey) (kid : String) :
    Except JwsError String :=
  match key with
  | .ed25519 key => signEd25519 signing payload key kid
  | .secp256k1 key => signEs256k signing payload key kid

/-- The signature the key makes. -/
def SigningLibraries.signature (signing : SigningLibraries) (key : SigningKey) (message : Bytes) :
    Bytes :=
  match key with
  | .ed25519 key => signing.ed25519Sign key message
  | .secp256k1 key => signing.secp256k1Sign key message

/-- The fields of a header in the order of its declaration; an absent `typ` is skipped. -/
def JwsHeader.fields (header : JwsHeader) : List (String × String) :=
  [("alg", header.alg.asStr), ("kid", header.kid)] ++ (header.typ.map ("typ", ·)).toList

/-- The JSON text of a header. -/
def JwsHeader.json (header : JwsHeader) : Bytes :=
  intoBytes ("\x7b" ++ commaSeparated (header.fields.map fun field =>
    entryText (field.1, jsonString field.2)) ++ "\x7d")

def JwsHeader.value (header : JwsHeader) : Json :=
  .obj (header.fields.map fun field => (field.1, .str field.2))

/-- The header `signInner` writes for a key. -/
def signedHeader (key : SigningKey) (kid : String) : JwsHeader :=
  ⟨key.algorithm, kid, some "JOSE+JSON"⟩

/-- What the crates document: the codecs are inverse to each other, the header is written as its
JSON text, and a key pair belongs together. -/
structure SigningLibraries.PairsWith (signing : SigningLibraries) (lib : Libraries) : Prop where
  encode : ∀ bytes, signing.base64Encode bytes = String.ofList (Base64.encode bytes)
  decode : ∀ s bytes, lib.base64Decode s = .ok bytes ↔ Base64.decode s.toList = some bytes
  toVec : ∀ header, signing.toVec header = .ok header.json
  algorithm : ∀ key, (signing.verifyingKey key).algorithm = key.algorithm
  length : ∀ key message, (signing.signature key message).length = 64
  verifies : ∀ key message,
    (signing.verifyingKey key).accepts lib message (signing.signature key message) = true

/-- The JSON crate reads the header it wrote. -/
structure Libraries.ReadsBack (lib : Libraries) (header : JwsHeader) : Prop where
  value : lib.valueFromSlice header.json = .ok header.value
  header : lib.headerFromValue header.value = .ok header

/-- Signer and verifier agree on a payload: within the documented cap what is signed verifies as
it was signed, and nothing is signed that the verifier then finds too large. -/
def SignerAgrees (signing : SigningLibraries) (lib : Libraries) (key : SigningKey)
    (payload : Bytes) (kid : String) : Prop :=
  (payload.length ≤ segmentMaxBytes → kid ≠ "" →
    (signedHeader key kid).json.length ≤ segmentMaxBytes →
    ∃ jws, sign signing payload key kid = .ok jws ∧
      ∀ keyLookup, keyLookup kid = .ok (some (signing.verifyingKey key)) →
        verify lib jws keyLookup = .ok ⟨signedHeader key kid, payload⟩) ∧
  ∀ jws keyLookup, sign signing payload key kid = .ok jws →
    keyLookup kid = .ok (some (signing.verifyingKey key)) →
    verify lib jws keyLookup ≠ .error .segmentTooLarge

theorem utf8ByteSize_encode (bytes : Bytes) :
    (String.ofList (Base64.encode bytes)).utf8ByteSize = (4 * bytes.length + 2) / 3 := by
  have hascii : ∀ c ∈ (String.ofList (Base64.encode bytes)).toList, isAscii c = true := by
    rw [String.toList_ofList]
    exact Base64.forall_mem_encode (by decide) bytes
  have hlength := congrArg List.length (intoBytes_of_isAscii hascii)
  rw [List.length_map, String.toList_ofList, Base64.length_encode] at hlength
  rw [← hlength]
  rfl

theorem point_not_mem_encode (bytes : Bytes) :
    '.' ∉ (String.ofList (Base64.encode bytes)).toList := by
  rw [String.toList_ofList]
  intro h
  exact Base64.forall_mem_encode (P := (· ≠ '.')) (by decide) bytes '.' h rfl

variable {signing : SigningLibraries} {lib : Libraries} {key : SigningKey} {payload : Bytes}
  {kid : String} {keyLookup : String → Except JwsError (Option VerifierKey)}

/-- The two first segments of what is signed. -/
def signingInput (key : SigningKey) (payload : Bytes) (kid : String) : String :=
  String.ofList (Base64.encode (signedHeader key kid).json) ++ "." ++
    String.ofList (Base64.encode payload)

/-- The three segments. -/
def signedJws (signing : SigningLibraries) (key : SigningKey) (payload : Bytes) (kid : String) :
    String :=
  signingInput key payload kid ++ "." ++ String.ofList
    (Base64.encode (signing.signature key (intoBytes (signingInput key payload kid))))

/-- A non-empty `kid` is all that signing asks for. -/
theorem SigningLibraries.PairsWith.sign_eq (h : signing.PairsWith lib) (hkid : kid ≠ "") :
    sign signing payload key kid = .ok (signedJws signing key payload kid) := by
  cases key <;>
    simp [sign, signEd25519, signEs256k, signInner, check, hkid, h.toVec, h.encode, signedJws,
      signingInput, signedHeader, SigningKey.algorithm, SigningLibraries.signature] <;> rfl

theorem sign_empty : sign signing payload key "" = .error .missingKid := by
  cases key <;> simp [sign, signEd25519, signEs256k, signInner, check] <;> rfl

theorem splitAt_signedJws :
    splitAt '.' (signedJws signing key payload kid) =
      [String.ofList (Base64.encode (signedHeader key kid).json),
        String.ofList (Base64.encode payload), String.ofList
        (Base64.encode (signing.signature key (intoBytes (signingInput key payload kid))))] := by
  apply segments_iff.mpr
  exact ⟨rfl, point_not_mem_encode _, point_not_mem_encode _, point_not_mem_encode _⟩

/-- The segments fit just when header and payload stay within three quarters of the cap. -/
theorem SigningLibraries.PairsWith.fits_iff (h : signing.PairsWith lib) :
    ((String.ofList (Base64.encode (signedHeader key kid).json)).utf8ByteSize ≤ segmentMaxBytes ∧
      (String.ofList (Base64.encode payload)).utf8ByteSize ≤ segmentMaxBytes ∧
      (String.ofList (Base64.encode (signing.signature key
        (intoBytes (signingInput key payload kid))))).utf8ByteSize ≤ segmentMaxBytes) ↔
    payload.length ≤ segmentMaxBytes / 4 * 3 ∧
      (signedHeader key kid).json.length ≤ segmentMaxBytes / 4 * 3 := by
  simp only [utf8ByteSize_encode, h.length, segmentMaxBytes]
  omega

theorem SigningLibraries.PairsWith.verify_signed (h : signing.PairsWith lib)
    (hread : lib.ReadsBack (signedHeader key kid)) (hkid : kid ≠ "")
    (hfits : payload.length ≤ segmentMaxBytes / 4 * 3 ∧
      (signedHeader key kid).json.length ≤ segmentMaxBytes / 4 * 3)
    (hlookup : keyLookup kid = .ok (some (signing.verifyingKey key))) :
    verify lib (signedJws signing key payload kid) keyLookup =
      .ok ⟨signedHeader key kid, payload⟩ := by
  have hdecode (bytes : Bytes) :
      lib.base64Decode (String.ofList (Base64.encode bytes)) = .ok bytes := by
    rw [h.decode, String.toList_ofList, Base64.decode_encode]
  have halg : getField "alg" (signedHeader key kid).value = some (.str key.algorithm.asStr) := rfl
  let parts : Parts :=
    { header64 := String.ofList (Base64.encode (signedHeader key kid).json)
      payload64 := String.ofList (Base64.encode payload)
      signature64 := String.ofList
        (Base64.encode (signing.signature key (intoBytes (signingInput key payload kid))))
      headerJson := (signedHeader key kid).json
      payload := payload
      signature := signing.signature key (intoBytes (signingInput key payload kid))
      raw := (signedHeader key kid).value
      header := signedHeader key kid }
  have hparts : parts.Of lib (signedJws signing key payload kid) := by
    constructor
    case segments => exact splitAt_signedJws
    case size => exact h.fits_iff.mpr hfits
    case headerJson => exact hdecode _
    case payload => exact hdecode _
    case signature => exact hdecode _
    case raw => exact hread.value
    case alg => exact ⟨_, halg, by cases key <;> rfl⟩
    case header => exact hread.header
    case kid => exact hkid
  exact verify_eq_ok.mpr ⟨parts, signing.verifyingKey key, hparts, hlookup,
    ⟨h.algorithm key, h.verifies key _⟩, rfl⟩

theorem SigningLibraries.PairsWith.verify_oversized (h : signing.PairsWith lib)
    (hlong : ¬(payload.length ≤ segmentMaxBytes / 4 * 3 ∧
      (signedHeader key kid).json.length ≤ segmentMaxBytes / 4 * 3)) :
    verify lib (signedJws signing key payload kid) keyLookup = .error .segmentTooLarge := by
  unfold verify
  rw [splitAt_signedJws]
  simp only [check, if_neg (mt h.fits_iff.mp hlong)]
  rfl

/-- What is longer is signed and then refused. -/
theorem SigningLibraries.PairsWith.disagrees (h : signing.PairsWith lib) (hkid : kid ≠ "")
    (hlong : ¬(payload.length ≤ segmentMaxBytes / 4 * 3 ∧
      (signedHeader key kid).json.length ≤ segmentMaxBytes / 4 * 3)) :
    ¬SignerAgrees signing lib key payload kid := by
  rintro ⟨-, hrefuses⟩
  exact hrefuses _ (fun _ => .ok (some (signing.verifyingKey key))) (h.sign_eq hkid) rfl
    (h.verify_oversized hlong)

/-- Signer and verifier agree on just what fits the cap once it is encoded. -/
theorem signer_agrees_iff (h : signing.PairsWith lib)
    (hread : lib.ReadsBack (signedHeader key kid)) :
    SignerAgrees signing lib key payload kid ↔
      kid = "" ∨ payload.length ≤ segmentMaxBytes / 4 * 3 ∧
        (signedHeader key kid).json.length ≤ segmentMaxBytes / 4 * 3 := by
  constructor
  · intro hagrees
    by_cases hkid : kid = ""
    · exact Or.inl hkid
    · right
      by_contra hlong
      exact h.disagrees hkid hlong hagrees
  · intro hcond
    constructor
    · intro _ hkid _
      have hfits := hcond.resolve_left hkid
      refine ⟨_, h.sign_eq hkid, fun keyLookup hlookup => ?_⟩
      exact h.verify_signed hread hkid hfits hlookup
    · intro jws keyLookup hsign hlookup hlarge
      have hkid : kid ≠ "" := by
        rintro rfl
        rw [sign_empty] at hsign
        cases hsign
      have hfits := hcond.resolve_left hkid
      rw [h.sign_eq hkid] at hsign
      obtain rfl := Except.ok.inj hsign
      rw [h.verify_signed hread hkid hfits hlookup] at hlarge
      cases hlarge

/-! ## A payload at the documented cap -/

/-- The crates as they act on the sample card. -/
def sampleSigning : SigningLibraries where
  base64Encode bytes := String.ofList (Base64.encode bytes)
  toVec header := .ok header.json
  ed25519Sign _ _ := Identity.Sample.bytesOf Identity.Sample.signatureHex
  secp256k1Sign _ _ := Identity.Sample.bytesOf Identity.Sample.signatureHex
  verifyingKey
    | .ed25519 _ => .ed25519 (Identity.Sample.bytesOf Identity.Sample.keyHex)
    | .secp256k1 _ => .secp256k1 (Identity.Sample.bytesOf Identity.Sample.keyHex)

def sampleVerifying : Libraries where
  __ := sampleLibraries
  ed25519Verify key _ signature :=
    hexEncode key = Identity.Sample.keyHex && hexEncode signature = Identity.Sample.signatureHex
  secp256k1Signature signature := signature.length = 64
  secp256k1Verify key _ signature :=
    hexEncode key = Identity.Sample.keyHex && hexEncode signature = Identity.Sample.signatureHex

def sampleKey : SigningKey := .ed25519 (List.replicate 32 42)

theorem sampleSigning_signature (key : SigningKey) (message : Bytes) :
    sampleSigning.signature key message = Identity.Sample.bytesOf Identity.Sample.signatureHex := by
  cases key <;> simp only [SigningLibraries.signature, sampleSigning]

theorem sampleSigning_pairsWith : sampleSigning.PairsWith sampleVerifying where
  encode _ := rfl
  decode := sampleLibraries_meetSpecs.base64
  toVec _ := rfl
  algorithm key := by cases key <;> rfl
  length key message := by
    rw [sampleSigning_signature]
    decide +kernel
  verifies key message := by
    have hkey : hexEncode (Identity.Sample.bytesOf Identity.Sample.keyHex) =
        Identity.Sample.keyHex := by decide +kernel
    have hsignature : hexEncode (Identity.Sample.bytesOf Identity.Sample.signatureHex) =
        Identity.Sample.signatureHex := by decide +kernel
    have hlength : (Identity.Sample.bytesOf Identity.Sample.signatureHex).length = 64 := by
      decide +kernel
    rw [sampleSigning_signature]
    cases key <;>
      simp [sampleSigning, sampleVerifying, VerifierKey.accepts, hkey, hsignature, hlength]

theorem sampleVerifying_readsBack :
    sampleVerifying.ReadsBack (signedHeader sampleKey Identity.Sample.vendite.asStr) where
  value := by
    have hjson : (signedHeader sampleKey Identity.Sample.vendite.asStr).json =
        intoBytes Identity.Sample.headerJson := by decide +kernel
    rw [hjson]
    simp only [sampleVerifying, sampleLibraries, Identity.Sample.env, if_true]
    rfl
  header := rfl

theorem signer_agrees_iff_sample :
    SignerAgrees sampleSigning sampleVerifying sampleKey (intoBytes Identity.Sample.payloadJson)
      Identity.Sample.vendite.asStr :=
  (signer_agrees_iff sampleSigning_pairsWith sampleVerifying_readsBack).mpr
    (Or.inr (by decide +kernel))

/-- A payload of the documented size is signed, and its JWS is refused. -/
theorem cap_payload_refused :
    ¬SignerAgrees sampleSigning sampleVerifying sampleKey (List.replicate segmentMaxBytes 0)
      Identity.Sample.vendite.asStr := by
  apply sampleSigning_pairsWith.disagrees (by decide)
  simp only [List.length_replicate, segmentMaxBytes]
  omega

end AgentExchange.Jws
