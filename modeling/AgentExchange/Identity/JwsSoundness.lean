import AgentExchange.Identity.Binding
import AgentExchange.Library.Base64
import AgentExchange.Library.Execution

/-!
# What a verified JWS vouches for

`verify` with its calls of the key lookup made explicit, and what a caller may conclude
from an accepted string. Header and payload are unpadded base64url, so the bytes that
were signed are plain ASCII.
-/
namespace AgentExchange.Jws

open Library
open Program (lift ensure okOr call)

/-- The only effect of `verify` is calling the closure it was given. -/
def lookups : Signature where
  Op := String
  Answer _ := Except JwsError (Option VerifierKey)

/-- `verify`, calling the lookup as an operation. -/
def verifyCalls (lib : Libraries) (jws : String) : Program lookups JwsError VerifiedPayload :=
  match splitAt '.' jws with
  | [header64, payload64, signature64] => do
    ensure (header64.utf8ByteSize ≤ segmentMaxBytes ∧ payload64.utf8ByteSize ≤ segmentMaxBytes ∧
      signature64.utf8ByteSize ≤ segmentMaxBytes) .segmentTooLarge
    let headerJson ← lift ((lib.base64Decode header64).mapError fun e =>
      .base64Decode ("header: " ++ e))
    let payload ← lift ((lib.base64Decode payload64).mapError fun e =>
      .base64Decode ("payload: " ++ e))
    let signature ← lift ((lib.base64Decode signature64).mapError fun e =>
      .base64Decode ("signature: " ++ e))
    let raw ← lift ((lib.valueFromSlice headerJson).mapError .invalidHeader)
    lift (checkAlg raw)
    let header ← lift ((lib.headerFromValue raw).mapError .invalidHeader)
    ensure (header.kid ≠ "") .missingKid
    let answer ← call (S := lookups) header.kid
    let found ← lift answer
    let key ← okOr found (.unknownKid header.kid)
    ensure (key.algorithm = header.alg)
      (.kidAlgMismatch header.kid header.alg.asStr key.algorithm.asStr)
    let signingInput := header64 ++ "." ++ payload64
    ensure (key.accepts lib (intoBytes signingInput) signature = true) (.badSignature header.kid)
    pure ⟨header, payload⟩
  | _ => .fail .invalidStructure

/-- `verify` run with a lookup: the calls made and the result. -/
def runVerify (lib : Libraries) (jws : String)
    (keyLookup : String → Except JwsError (Option VerifierKey)) :
    Execution lookups Unit JwsError VerifiedPayload :=
  (verifyCalls lib jws).execute (fun s kid (_ : Unit) => (keyLookup kid, s)) (fun _ => ()) ()

/-- The keys asked for, in order. -/
def calls (lib : Libraries) (jws : String)
    (keyLookup : String → Except JwsError (Option VerifierKey)) : List String :=
  (runVerify lib jws keyLookup).events.map Event.op

/-- What the base64 and JSON crates document. -/
structure Libraries.MeetSpecs (lib : Libraries) : Prop where
  base64 : ∀ s bytes, lib.base64Decode s = .ok bytes ↔ Base64.decode s.toList = some bytes
  header : ∀ fields header, lib.headerFromValue (.obj fields) = .ok header →
    getField "alg" (.obj fields) = some (.str header.alg.asStr) ∧
      getField "kid" (.obj fields) = some (.str header.kid)

/-- The ASCII codes of a text. -/
def asciiBytes (s : String) : Bytes := s.toList.map fun c => UInt8.ofNat c.toNat

/-- The string is a JWS whose parts vouch for the result, and the lookup was asked for its
`kid` alone. -/
structure Vouches (lib : Libraries) (keyLookup : String → Except JwsError (Option VerifierKey))
    (jws : String) (asked : List String) (out : VerifiedPayload) (h p g : String) : Prop where
  segments : jws = h ++ "." ++ p ++ "." ++ g
  noDot : '.' ∉ h.toList ∧ '.' ∉ p.toList ∧ '.' ∉ g.toList
  header : ∃ headerJson fields, Base64.decode h.toList = some headerJson ∧
    lib.valueFromSlice headerJson = .ok (.obj fields) ∧
    getField "alg" (.obj fields) = some (.str out.header.alg.asStr) ∧
    getField "kid" (.obj fields) = some (.str out.header.kid)
  kid : out.header.kid ≠ ""
  asked : asked = [out.header.kid]
  signed : ∃ key signature, keyLookup out.header.kid = .ok (some key) ∧
    key.algorithm = out.header.alg ∧ Base64.decode g.toList = some signature ∧
    (∀ c ∈ (h ++ "." ++ p).toList, isAscii c = true) ∧
    key.accepts lib (asciiBytes (h ++ "." ++ p)) signature = true
  payload : Base64.decode p.toList = some out.payload

/-- Some parts of the string vouch for the result. -/
def Vouched (lib : Libraries) (keyLookup : String → Except JwsError (Option VerifierKey))
    (jws : String) (asked : List String) (out : VerifiedPayload) : Prop :=
  ∃ h p g, Vouches lib keyLookup jws asked out h p g

section Outcome

variable {α β ε σ χ : Type} {S : Signature} {exec : σ → (op : S.Op) → χ → S.Answer op × σ}
  {choices : ℕ → χ} {s : σ}

theorem outcome_lift_bind {x : Except ε β} {f : β → Program S ε α} :
    ((lift x >>= f).execute exec choices s).outcome =
      x >>= fun b => ((f b).execute exec choices s).outcome := by
  cases x <;> rfl

theorem outcome_ensure_bind {c : Prop} [Decidable c] {e : ε} {f : Unit → Program S ε α} :
    ((ensure c e >>= f).execute exec choices s).outcome =
      check c e >>= fun u => ((f u).execute exec choices s).outcome := by
  unfold ensure check
  split_ifs <;> rfl

theorem outcome_okOr_bind {x : Option β} {e : ε} {f : β → Program S ε α} :
    ((okOr x e >>= f).execute exec choices s).outcome =
      orError x e >>= fun b => ((f b).execute exec choices s).outcome := by
  cases x <;> rfl

end Outcome

variable {lib : Libraries} {jws : String}
  {keyLookup : String → Except JwsError (Option VerifierKey)}

/-- Making the calls explicit changes no result. -/
theorem runVerify_outcome : (runVerify lib jws keyLookup).outcome = verify lib jws keyLookup := by
  unfold runVerify verifyCalls verify
  generalize splitAt '.' jws = segments
  rcases segments with _ | ⟨header64, _ | ⟨payload64, _ | ⟨signature64, _ | ⟨_, _⟩⟩⟩⟩
  case cons.cons.cons.nil =>
    have hcall {kid : String} {f : _ → Program lookups JwsError VerifiedPayload} :
        ((call (S := lookups) kid >>= f).execute (fun s kid (_ : Unit) => (keyLookup kid, s))
          (fun _ => ()) ()).outcome =
        ((f (keyLookup kid)).execute (fun s kid (_ : Unit) => (keyLookup kid, s))
          (fun _ => ()) ()).outcome := rfl
    simp only [outcome_ensure_bind, outcome_lift_bind, outcome_okOr_bind, hcall]
    rfl
  all_goals rfl

/-- A result is only returned after one call, for the `kid` of its header. -/
theorem verifyCalls_spec : (verifyCalls lib jws).Spec (fun past _ => past = [])
    (fun past r => ∀ out, r = .ok out → past.map Event.op = [out.header.kid]) [] := by
  unfold verifyCalls
  split
  · simp only [Program.spec_ensure_bind, Program.spec_lift_bind, reduceCtorEq, false_implies,
      implies_true, and_true]
    intro _ headerJson _ payload _ signature _ raw _ _ _ header _ _
    refine Program.spec_call_bind.mpr ⟨rfl, fun answer => ?_⟩
    apply Program.spec_lift_bind.mpr
    simp only [Program.spec_ensure_bind, Program.spec_okOr_bind, Program.spec_pure, reduceCtorEq,
      false_implies, implies_true, and_true]
    intro found _ key _ _ _ out hout
    cases hout
    rfl
  · intro out h
    cases h

theorem calls_of_ok {out : VerifiedPayload} (h : (runVerify lib jws keyLookup).outcome = .ok out) :
    calls lib jws keyLookup = [out.header.kid] :=
  (@verifyCalls_spec lib jws).execute out h

/-- Three segments are three texts free of points around two points. -/
theorem segments_iff {h p g : String} :
    splitAt '.' jws = [h, p, g] ↔
      jws = h ++ "." ++ p ++ "." ++ g ∧ '.' ∉ h.toList ∧ '.' ∉ p.toList ∧ '.' ∉ g.toList := by
  have hpoint : String.singleton '.' = "." := rfl
  constructor
  · intro hs
    obtain ⟨hh, rest, rfl, hrest⟩ := splitAt_eq_cons_cons.mp hs
    obtain ⟨hp, last, rfl, hlast⟩ := splitAt_eq_cons_cons.mp hrest
    obtain ⟨rfl, hg⟩ := splitAt_eq_singleton.mp hlast
    exact ⟨by simp only [hpoint, String.append_assoc], hh, hp, hg⟩
  · rintro ⟨rfl, hh, hp, hg⟩
    rw [splitAt_eq_cons_cons]
    refine ⟨hh, p ++ "." ++ g, by simp only [hpoint, String.append_assoc], ?_⟩
    exact splitAt_eq_cons_cons.mpr ⟨hp, g, by rw [hpoint], splitAt_of_not_mem hg⟩

theorem isAscii_of_decode {s : String} {bytes : Bytes} (h : Base64.decode s.toList = some bytes) :
    ∀ c ∈ s.toList, isAscii c = true := by
  rw [← Base64.encode_of_decode h]
  exact Base64.forall_mem_encode (by decide) bytes

theorem Libraries.MeetSpecs.vouches (hlib : lib.MeetSpecs) {p : Parts} {key : VerifierKey}
    (hp : p.Of lib jws) (hkey : keyLookup p.header.kid = .ok (some key))
    (hsigned : p.SignedBy lib key) :
    Vouches lib keyLookup jws [p.header.kid] ⟨p.header, p.payload⟩ p.header64 p.payload64
      p.signature64 := by
  obtain ⟨hjws, hnoDot⟩ := segments_iff.mp hp.segments
  have hheader := (hlib.base64 _ _).mp hp.headerJson
  have hpayload := (hlib.base64 _ _).mp hp.payload
  have hascii : ∀ c ∈ (p.header64 ++ "." ++ p.payload64).toList, isAscii c = true := by
    intro c hc
    simp only [String.toList_append, List.mem_append] at hc
    rcases hc with (hc | hc) | hc
    · exact isAscii_of_decode hheader c hc
    · rw [List.mem_singleton.mp hc]
      decide
    · exact isAscii_of_decode hpayload c hc
  constructor
  case segments => exact hjws
  case noDot => exact hnoDot
  case header =>
    obtain ⟨s, hs, -⟩ := hp.alg
    cases hraw : p.raw with
    | obj fields =>
      have hfields := hlib.header fields p.header (hraw ▸ hp.header)
      exact ⟨p.headerJson, fields, hheader, hraw ▸ hp.raw, hfields⟩
    | _ =>
      rw [hraw] at hs
      cases hs
  case kid => exact hp.kid
  case asked => rfl
  case signed =>
    refine ⟨key, p.signature, hkey, hsigned.1, (hlib.base64 _ _).mp hp.signature, hascii, ?_⟩
    rw [asciiBytes, ← intoBytes_of_isAscii hascii]
    exact hsigned.2
  case payload => exact hpayload

/-- What `verify` accepts is vouched for by its parts; anything else gets an error. -/
theorem verify_sound (hlib : lib.MeetSpecs) (jws : String)
    (keyLookup : String → Except JwsError (Option VerifierKey)) :
    (∀ out, (runVerify lib jws keyLookup).outcome = .ok out →
      Vouched lib keyLookup jws (calls lib jws keyLookup) out) ∧
    ((∀ out, ¬Vouched lib keyLookup jws (calls lib jws keyLookup) out) →
      ∃ e, (runVerify lib jws keyLookup).outcome = .error e) := by
  have hsound : ∀ out, (runVerify lib jws keyLookup).outcome = .ok out →
      Vouched lib keyLookup jws (calls lib jws keyLookup) out := by
    intro out hout
    rw [calls_of_ok hout]
    obtain ⟨p, key, hp, hkey, hsigned, rfl⟩ := verify_eq_ok.mp (runVerify_outcome.symm.trans hout)
    exact ⟨_, _, _, hlib.vouches hp hkey hsigned⟩
  refine ⟨hsound, fun hnone => ?_⟩
  cases hout : (runVerify lib jws keyLookup).outcome with
  | ok out => exact absurd (hsound out hout) (hnone out)
  | error e => exact ⟨e, rfl⟩

/-! ## The sample card

Base64 and the header are read as the crates read them. -/

theorem Algorithm.parse_eq_some {s : String} {a : Algorithm} (h : parse s = some a) :
    a.asStr = s := by
  unfold parse at h
  split_ifs at h with h1 h2
  · cases h
    exact h1.symm
  · cases h
    exact h2.symm

/-- A header as `serde` reads it out of an object. -/
def sampleHeader (v : Json) : Except String JwsHeader :=
  match getField "alg" v, getField "kid" v, getField "typ" v with
  | some (.str alg), some (.str kid), some (.str typ) =>
    match Algorithm.parse alg with
    | some alg => .ok ⟨alg, kid, some typ⟩
    | none => .error "unknown variant"
  | some (.str alg), some (.str kid), none =>
    match Algorithm.parse alg with
    | some alg => .ok ⟨alg, kid, none⟩
    | none => .error "unknown variant"
  | _, _, _ => .error "invalid type"

def sampleLibraries : Libraries where
  __ := Identity.Sample.env.toLibraries
  base64Decode s :=
    match Base64.decode s.toList with
    | some bytes => .ok bytes
    | none => .error "Invalid input"
  headerFromValue := sampleHeader

theorem sampleLibraries_meetSpecs : sampleLibraries.MeetSpecs where
  base64 s bytes := by
    simp only [sampleLibraries]
    cases Base64.decode s.toList <;> simp
  header fields header h := by
    change sampleHeader (.obj fields) = _ at h
    unfold sampleHeader at h
    split at h
    · rename_i alg kid typ halg hkid htyp
      split at h
      · rename_i a ha
        cases h
        exact ⟨Algorithm.parse_eq_some ha ▸ halg, hkid⟩
      · cases h
    · rename_i alg kid halg hkid htyp
      split at h
      · rename_i a ha
        cases h
        exact ⟨Algorithm.parse_eq_some ha ▸ halg, hkid⟩
      · cases h
    · cases h

/-- A segment is decoded from its bytes. -/
theorem sampleLibraries_decode {segment : String} (h : segment ∈
      [Identity.Sample.header64, Identity.Sample.payload64, Identity.Sample.signature64]) :
    sampleLibraries.base64Decode segment =
      match Base64.decode ((intoBytes segment).map fun b => Char.ofNat b.toNat) with
      | some bytes => .ok bytes
      | none => .error "Invalid input" := by
  rw [← Identity.Sample.toList_segment h]
  rfl

theorem sampleParts : Identity.Sample.parts.Of sampleLibraries Identity.Sample.jws where
  segments := Identity.Sample.partsOf.segments
  size := Identity.Sample.partsOf.size
  headerJson := (sampleLibraries_decode (by simp [Identity.Sample.parts])).trans (by decide +kernel)
  payload := (sampleLibraries_decode (by simp [Identity.Sample.parts])).trans (by decide +kernel)
  signature := (sampleLibraries_decode (by simp [Identity.Sample.parts])).trans (by decide +kernel)
  raw := Identity.Sample.partsOf.raw
  alg := Identity.Sample.partsOf.alg
  header := by decide +kernel
  kid := Identity.Sample.partsOf.kid

def sampleLookup (kid : String) : Except JwsError (Option VerifierKey) :=
  if kid = Identity.Sample.vendite.asStr then
    .ok (some (.ed25519 (Identity.Sample.bytesOf Identity.Sample.keyHex)))
  else .ok none

theorem verify_sound_sample :
    Vouched sampleLibraries sampleLookup Identity.Sample.jws
      (calls sampleLibraries Identity.Sample.jws sampleLookup)
      ⟨Identity.Sample.header, intoBytes Identity.Sample.payloadJson⟩ := by
  refine (verify_sound sampleLibraries_meetSpecs Identity.Sample.jws sampleLookup).1 _ ?_
  have hsigned : Identity.Sample.parts.SignedBy sampleLibraries
      (.ed25519 (Identity.Sample.bytesOf Identity.Sample.keyHex)) := ⟨rfl, by decide +kernel⟩
  have hkey : sampleLookup Identity.Sample.parts.header.kid =
      .ok (some (.ed25519 (Identity.Sample.bytesOf Identity.Sample.keyHex))) := if_pos rfl
  rw [runVerify_outcome]
  exact verify_eq_ok.mpr ⟨_, _, sampleParts, hkey, hsigned, rfl⟩

end AgentExchange.Jws
