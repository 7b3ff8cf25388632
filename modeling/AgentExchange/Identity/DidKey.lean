import AgentExchange.Core.AgentId
import AgentExchange.Core.DidUri
import AgentExchange.Identity.Binding
import AgentExchange.Library.Base58

/-!
# The `did:key` codec

A `did:key` id holds the key itself: `z`, then the base 58 text of the multicodec prefix and
the 32 bytes. The decoder of agent cards is a second copy of the one here.
-/
namespace AgentExchange.Identity

open Library

/-- `DidKeyProvider::decode_pubkey`. -/
def decodePubkey (env : Env) (agentId : AgentId) : Except Error Bytes := do
  check (agentId.scheme = .didKey) (.invalidAgentId ("not a did:key agent_id: " ++ agentId.asStr))
  let uri ← orError agentId.asDidUri
    (.invalidAgentId ("did:key id is not a valid DID URI: " ++ agentId.asStr))
  let afterZ ← orError (dropStart "z" uri.methodSpecificId)
    (.invalidAgentId "did:key must use base58btc (z prefix)")
  let bytes ← (env.bs58Decode afterZ).mapError fun e =>
    .invalidAgentId ("base58 decode failed: " ++ e)
  check (bytes.length = ed25519MulticodecPrefix.length + 32)
    (.invalidAgentId ("did:key length mismatch: got " ++ toString bytes.length ++
      " bytes, expected " ++ toString (ed25519MulticodecPrefix.length + 32)))
  check (bytes.take 2 = ed25519MulticodecPrefix)
    (.invalidAgentId ("did:key multicodec prefix mismatch: got [" ++
      ", ".intercalate ((bytes.take 2).map fun b => hexEncode [b]) ++
      "], expected [ed, 01] (Ed25519)"))
  (env.verifyingKey (bytes.drop 2)).mapError fun e =>
    .invalidAgentId ("invalid Ed25519 public key: " ++ e)
  pure (bytes.drop 2)

/-- `bs58::encode(..).into_string()` is the second argument. -/
def encodeDidKey (bs58Encode : Bytes → String) (key : Bytes) : String :=
  "did:key:z" ++ bs58Encode (ed25519MulticodecPrefix ++ key)

/-- A `VerifyingKey`, which is made from 32 bytes that are one. -/
structure VerifyingKey (env : Env) where
  asBytes : Bytes
  length_eq : asBytes.length = 32
  valid : env.verifyingKey asBytes = .ok ()

/-- What is assumed of `bs58`: a bijection between byte strings and their texts over the alphabet,
of at most two characters for a byte. -/
structure Base58Btc (env : Env) (bs58Encode : Bytes → String) : Prop where
  decode_encode : ∀ bytes, env.bs58Decode (bs58Encode bytes) = .ok bytes
  encode_of_decode : ∀ s bytes, env.bs58Decode s = .ok bytes → bs58Encode bytes = s
  alphabet : ∀ bytes, ∀ c ∈ (bs58Encode bytes).toList, c ∈ Base58.alphabet
  length_le : ∀ bytes, (bs58Encode bytes).toList.length ≤ 2 * bytes.length

/-- A key and the text behind the `z` of its multibase form. -/
structure Multibase (env : Env) (s : String) (key : Bytes) : Prop where
  digits : ∃ rest, s = "z" ++ rest ∧ env.bs58Decode rest = .ok (ed25519MulticodecPrefix ++ key)
  length_eq : key.length = 32
  valid : env.verifyingKey key = .ok ()

section Codec

variable {env : Env} {bs58Encode : Bytes → String}

/-- What both decoders check of the decoded bytes. -/
theorem bytes_iff {bytes key : Bytes} :
    (bytes.length = ed25519MulticodecPrefix.length + 32 ∧ bytes.take 2 = ed25519MulticodecPrefix ∧
      env.verifyingKey (bytes.drop 2) = .ok () ∧ bytes.drop 2 = key) ↔
      bytes = ed25519MulticodecPrefix ++ key ∧ key.length = 32 ∧ env.verifyingKey key = .ok () := by
  constructor
  · intro h
    obtain ⟨hlen, hprefix, hvalid, rfl⟩ := h
    have hbytes : bytes = ed25519MulticodecPrefix ++ bytes.drop 2 := by
      rw [← hprefix, List.take_append_drop]
    refine ⟨hbytes, ?_, hvalid⟩
    rw [List.length_drop, hlen]
    rfl
  · intro h
    obtain ⟨rfl, hlen, hvalid⟩ := h
    have hdrop : (ed25519MulticodecPrefix ++ key).drop 2 = key := rfl
    refine ⟨?_, rfl, ?_, hdrop⟩
    · rw [List.length_append, hlen]
    · rw [hdrop]
      exact hvalid

theorem decodeDidKeyMultibase_eq_ok {s : String} {key : Bytes} :
    decodeDidKeyMultibase env s = .ok key ↔ Multibase env s key := by
  unfold decodeDidKeyMultibase
  simp only [↓check_bind_eq_ok, except_bind_eq_ok, orError_eq_ok, except_mapError_eq_ok,
    dropStart_eq_some]
  constructor
  · intro h
    obtain ⟨rest, hs, bytes, hdecode, hlen, hprefix, u, hvalid, hkey⟩ := h
    obtain ⟨rfl, hlen, hvalid⟩ := bytes_iff.mp ⟨hlen, hprefix, hvalid, Except.ok.inj hkey⟩
    exact ⟨⟨rest, hs, hdecode⟩, hlen, hvalid⟩
  · intro h
    obtain ⟨rest, hs, hdecode⟩ := h.digits
    obtain ⟨hlen, hprefix, hvalid, hkey⟩ := bytes_iff.mpr ⟨rfl, h.length_eq, h.valid⟩
    exact ⟨rest, hs, _, hdecode, hlen, hprefix, (), hvalid, congrArg Except.ok hkey⟩

theorem decodePubkey_eq_ok {agentId : AgentId} {key : Bytes} :
    decodePubkey env agentId = .ok key ↔
      agentId.scheme = .didKey ∧ ∃ uri, agentId.asDidUri = some uri ∧
        Multibase env uri.methodSpecificId key := by
  unfold decodePubkey
  simp only [↓check_bind_eq_ok, except_bind_eq_ok, orError_eq_ok, except_mapError_eq_ok,
    dropStart_eq_some]
  constructor
  · intro h
    obtain ⟨hscheme, uri, huri, rest, hs, bytes, hdecode, hlen, hprefix, u, hvalid, hkey⟩ := h
    obtain ⟨rfl, hlen, hvalid⟩ := bytes_iff.mp ⟨hlen, hprefix, hvalid, Except.ok.inj hkey⟩
    exact ⟨hscheme, uri, huri, ⟨rest, hs, hdecode⟩, hlen, hvalid⟩
  · intro h
    obtain ⟨hscheme, uri, huri, hkey⟩ := h
    obtain ⟨rest, hs, hdecode⟩ := hkey.digits
    obtain ⟨hlen, hprefix, hvalid, hbytes⟩ := bytes_iff.mpr ⟨rfl, hkey.length_eq, hkey.valid⟩
    exact ⟨hscheme, uri, huri, rest, hs, _, hdecode, hlen, hprefix, (), hvalid,
      congrArg Except.ok hbytes⟩


/-! ## Encoding and decoding -/

theorem graphic_of_mem_alphabet {c : Char} (h : c ∈ Base58.alphabet) :
    AgentId.isGraphic c = true ∧ c ≠ '#' := by
  have hall : Base58.alphabet.all (fun c => AgentId.isGraphic c && c ≠ '#') = true := by decide
  simpa using List.all_eq_true.mp hall c h

namespace Multibase

variable {s : String} {key : Bytes}

/-- The text is the encoder's. -/
theorem text_eq (h : Multibase env s key) (hb : Base58Btc env bs58Encode) :
    s = "z" ++ bs58Encode (ed25519MulticodecPrefix ++ key) := by
  obtain ⟨rest, rfl, hdecode⟩ := h.digits
  rw [hb.encode_of_decode _ _ hdecode]

theorem encode (hb : Base58Btc env bs58Encode) (k : VerifyingKey env) :
    Multibase env ("z" ++ bs58Encode (ed25519MulticodecPrefix ++ k.asBytes)) k.asBytes :=
  ⟨⟨_, rfl, hb.decode_encode _⟩, k.length_eq, k.valid⟩

theorem graphic (h : Multibase env s key) (hb : Base58Btc env bs58Encode) :
    ∀ c ∈ s.toList, AgentId.isGraphic c = true ∧ c ≠ '#' := by
  intro c hc
  rw [h.text_eq hb, String.toList_append, List.mem_append] at hc
  rcases hc with hc | hc
  · rw [List.mem_singleton.mp hc]
    decide
  · exact graphic_of_mem_alphabet (hb.alphabet _ c hc)

theorem length_le (h : Multibase env s key) (hb : Base58Btc env bs58Encode) :
    s.toList.length ≤ 69 := by
  have hbytes : (ed25519MulticodecPrefix ++ key).length = 34 := by
    rw [List.length_append, h.length_eq]
    rfl
  have hdigits := hb.length_le (ed25519MulticodecPrefix ++ key)
  rw [h.text_eq hb, String.toList_append, List.length_append]
  have hz : "z".toList.length = 1 := rfl
  omega

/-- The id of a key in multibase form, and how it is read. -/
theorem agentId (h : Multibase env s key) (hb : Base58Btc env bs58Encode) :
    AgentId.new ("did:key:" ++ s) = .ok ⟨"did:key:" ++ s⟩ ∧
      AgentId.scheme ⟨"did:key:" ++ s⟩ = .didKey ∧
      AgentId.asDidUri ⟨"did:key:" ++ s⟩ = some ⟨"key", s, none⟩ := by
  have hmem {c : Char} (hc : c ∈ ("did:key:" ++ s).toList) : c ∈ "did:key:".toList ∨ c ∈ s.toList := by
    rwa [String.toList_append, List.mem_append] at hc
  refine ⟨?_, ?_, ?_⟩
  · apply AgentId.new_of_graphic
    · intro c hc
      rcases hmem hc with hc | hc
      · have hall : "did:key:".toList.all AgentId.isGraphic = true := by decide
        exact List.all_eq_true.mp hall c hc
      · exact (h.graphic hb c hc).1
    · have hlen := h.length_le hb
      have hstart : "did:key:".toList.length = 8 := rfl
      rw [String.toList_append, List.length_append]
      omega
    · rw [String.toList_append, List.mem_append]
      exact .inl (by decide)
  · simp only [AgentId.scheme, startsWith, String.toList_append]
    rfl
  · have hne : s ≠ "" := by
      rintro rfl
      obtain ⟨rest, hrest, -⟩ := h.digits
      simp at hrest
    have hplain : '#' ∉ s.toList := fun hc => (h.graphic hb _ hc).2 rfl
    apply DidUri.parse_eq_some.mpr
    refine ⟨⟨by simp, ?_, hne, hplain, by simp⟩, ?_⟩
    · have hall : "key".toList.all isMethodChar = true := by decide
      exact List.all_eq_true.mp hall
    · simp only [DidUri.text, DidUri.tail, DidUri.fragmentText, String.append_empty]
      rfl

end Multibase

/-- The id without its fragment is the one that the key encodes to. -/
theorem withoutFragment_of_decodePubkey (hb : Base58Btc env bs58Encode) {id : AgentId} {key : Bytes}
    (h : decodePubkey env id = .ok key) : id.withoutFragment = encodeDidKey bs58Encode key := by
  obtain ⟨hscheme, uri, huri, hkey⟩ := decodePubkey_eq_ok.mp h
  have hmethod : uri.method = "key" :=
    AgentId.method_of_scheme (by rw [hscheme]; rfl) huri
  rw [AgentId.withoutFragment_eq huri, hmethod, hkey.text_eq hb, encodeDidKey,
    ← String.append_assoc]
  rfl

theorem decodePubkey_encodeDidKey (hb : Base58Btc env bs58Encode) (k : VerifyingKey env) :
    AgentId.new (encodeDidKey bs58Encode k.asBytes) = .ok ⟨encodeDidKey bs58Encode k.asBytes⟩ ∧
      decodePubkey env ⟨encodeDidKey bs58Encode k.asBytes⟩ = .ok k.asBytes := by
  have hkey := Multibase.encode hb k
  have htext : encodeDidKey bs58Encode k.asBytes =
      "did:key:" ++ ("z" ++ bs58Encode (ed25519MulticodecPrefix ++ k.asBytes)) := by
    rw [← String.append_assoc]
    rfl
  obtain ⟨hnew, hscheme, huri⟩ := hkey.agentId hb
  rw [htext]
  refine ⟨hnew, ?_⟩
  exact decodePubkey_eq_ok.mpr ⟨hscheme, _, huri, hkey⟩

/-- Keys and the ids that hold them determine each other, and both decoders read the same texts as
the same keys. -/
theorem did_key_codec (env : Env) (bs58Encode : Bytes → String) (hb : Base58Btc env bs58Encode) :
    (∀ k : VerifyingKey env, ∃ id, AgentId.new (encodeDidKey bs58Encode k.asBytes) = .ok id ∧
      decodePubkey env id = .ok k.asBytes) ∧
    (∀ id key, decodePubkey env id = .ok key →
      id.withoutFragment = encodeDidKey bs58Encode key) ∧
    (∀ (id id' : AgentId) key, '#' ∉ id.asStr.toList → '#' ∉ id'.asStr.toList →
      decodePubkey env id = .ok key → decodePubkey env id' = .ok key → id = id') ∧
    (∀ id key key', decodePubkey env id = .ok key → decodePubkey env id = .ok key' → key = key') ∧
    (∀ (id : AgentId) uri, id.scheme = .didKey → id.asDidUri = some uri → ∀ key,
      decodePubkey env id = .ok key ↔
        decodeDidKeyMultibase env uri.methodSpecificId = .ok key) ∧
    ∀ s key, decodeDidKeyMultibase env s = .ok key ↔
      ∃ id, AgentId.new ("did:key:" ++ s) = .ok id ∧ id.asDidUri = some ⟨"key", s, none⟩ ∧
        decodePubkey env id = .ok key := by
  refine ⟨?_, ?_, ?_, ?_, ?_, ?_⟩
  · intro k
    exact ⟨_, decodePubkey_encodeDidKey hb k⟩
  · intro id key h
    exact withoutFragment_of_decodePubkey hb h
  · intro id id' key hid hid' h h'
    have htext := withoutFragment_of_decodePubkey hb h
    rw [← withoutFragment_of_decodePubkey hb h', AgentId.withoutFragment_eq_self hid,
      AgentId.withoutFragment_eq_self hid'] at htext
    cases id
    cases id'
    exact congrArg AgentId.mk htext
  · intro id key key' h h'
    exact Except.ok.inj (h.symm.trans h')
  · intro id uri hscheme huri key
    rw [decodePubkey_eq_ok, decodeDidKeyMultibase_eq_ok]
    constructor
    · intro h
      obtain ⟨-, uri', huri', hkey⟩ := h
      rw [huri] at huri'
      cases huri'
      exact hkey
    · intro h
      exact ⟨hscheme, uri, huri, h⟩
  · intro s key
    rw [decodeDidKeyMultibase_eq_ok]
    constructor
    · intro h
      obtain ⟨hnew, hscheme, huri⟩ := h.agentId hb
      exact ⟨_, hnew, huri, decodePubkey_eq_ok.mpr ⟨hscheme, _, huri, h⟩⟩
    · intro h
      obtain ⟨id, hnew, huri, hdecode⟩ := h
      obtain ⟨-, uri, huri', hkey⟩ := decodePubkey_eq_ok.mp hdecode
      rw [huri] at huri'
      cases huri'
      exact hkey

end Codec

namespace Sample

/-- The libraries with a base 58 decoder that reads every text. -/
def didKeyEnv : Env where
  __ := env
  bs58Decode s := orError (Base58.decode s) "provided string contained invalid character"

theorem base58Btc : Base58Btc didKeyEnv Base58.encode := by
  constructor
  · intro bytes
    exact orError_eq_ok.mpr (Base58.decode_encode bytes)
  · intro s bytes h
    exact Base58.encode_of_decode (orError_eq_ok.mp h)
  · intro bytes c hc
    exact Base58.mem_alphabet_of_mem_encode hc
  · intro bytes
    exact Base58.length_encode_le bytes

def verifyingKey : VerifyingKey didKeyEnv := ⟨bytesOf keyHex, length_key, rfl⟩

end Sample

theorem did_key_codec_sample :
    ∃ id, AgentId.new (encodeDidKey Base58.encode Sample.verifyingKey.asBytes) = .ok id ∧
      decodePubkey Sample.didKeyEnv id = .ok Sample.verifyingKey.asBytes :=
  (did_key_codec Sample.didKeyEnv Base58.encode Sample.base58Btc).1 Sample.verifyingKey

end AgentExchange.Identity
