import AgentExchange.ControlPlane.SignatureChecks
import AgentExchange.Sdk.Clients
import AgentExchange.Sdk.WireAgreement

/-!
# The server rebuilds the bytes the SDKs sign

A posted body that deserialises holds exactly the strings and integers that went into
the signed text, so the handler rebuilds the same message, and the implementations of
the wire formats agree on its bytes. A client whose key the ledger lists is therefore
never refused for its signature.
-/
namespace AgentExchange.Sdk

open Library Wire ControlPlane
open Document (readString readI64 readU64 readOption readVec)
open TypeScript (js JsString JsNumber)

/-- A check that was passed. -/
theorem throwIf_eq_ok {ε α : Type} {c : Prop} [Decidable c] {e : ε} {f : Unit → Except ε α}
    {x : Except ε α} {a : α} (h : (if c then throw e >>= f else x) = .ok a) : x = .ok a := by
  split_ifs at h
  · cases h
  · exact h

/-! ## What a deserialised body holds -/

theorem readString_string {units : JsString} {s : String}
    (h : readString (.string units) = some s) : units = js s :=
  (Utf16.encode_of_toText h).symm

theorem eq_of_js_eq {s t : String} (h : js s = js t) : s = t := Utf16.encode_inj.mp h

theorem readI64_integer {n : ℤ} {t : Int64} (h : readI64 (.integer n) = some t) : n = t.toInt := by
  simp only [readI64, Document.readInt] at h
  split_ifs at h with hrange
  cases h
  rw [Int64.toInt_ofInt_of_le hrange.1 (by omega)]

theorem readU64_integer {n : ℤ} {z : UInt64} (h : readU64 (.integer n) = some z) : n = z.toNat := by
  simp only [readU64, Document.readInt] at h
  split_ifs at h with hrange
  cases h
  have hz : (UInt64.ofNat n.toNat).toNat = n.toNat :=
    UInt64.toNat_ofNat_of_lt' (by simp only [UInt64.size]; omega)
  rw [hz]
  omega

theorem readI64_toJson {x : JsNumber} {t : Int64} (h : readI64 x.toJson = some t) :
    x = .decimal t.toInt := by
  cases x with
  | decimal n => rw [readI64_integer h]
  | fractional text => cases h
  | nonFinite text => cases h

theorem readU64_toJson {x : JsNumber} {z : UInt64} (h : readOption readU64 x.toJson = some (some z)) :
    x = .decimal z.toNat := by
  cases x with
  | decimal n =>
    obtain ⟨z', hz, hsome⟩ := Option.map_eq_some_iff.mp h
    rw [readU64_integer hz, Option.some_inj.mp hsome]
  | fractional text => cases h
  | nonFinite text => cases h

section Bodies

variable {time : Document}

theorem receipt_of_deserialize {agent nonce signature : JsString} {req : RecipientReceiptRequest}
    (h : RecipientReceiptRequest.deserialize [("recipient_agent_id", .string agent),
      ("nonce", .string nonce), ("issued_at", time), ("signature_hex", .string signature)] =
      some req) :
    agent = js req.recipientAgentId ∧ nonce = js req.nonce ∧ readI64 time = some req.issuedAt ∧
      signature = js req.signatureHex := by
  simp [RecipientReceiptRequest.deserialize, Entries.field, Entries.value,
    Option.bind_eq_some_iff] at h
  obtain ⟨a, ha, n, hn, t, ht, s, hs, rfl⟩ := h
  exact ⟨readString_string ha, readString_string hn, ht, readString_string hs⟩

theorem register_of_deserialize {key org name nonce signature : JsString} {req : RegisterRequest}
    (h : RegisterRequest.deserialize [("public_key_hex", .string key), ("org", .string org),
      ("name", .string name), ("nonce", .string nonce), ("issued_at", time),
      ("signature_hex", .string signature)] = some req) :
    key = js req.publicKeyHex ∧ org = js req.org ∧ name = js req.name ∧ nonce = js req.nonce ∧
      readI64 time = some req.issuedAt ∧ signature = js req.signatureHex := by
  simp [RegisterRequest.deserialize, Entries.field, Entries.value, Option.bind_eq_some_iff] at h
  obtain ⟨k, hk, o, ho, m, hm, n, hn, t, ht, s, hs, rfl⟩ := h
  exact ⟨readString_string hk, readString_string ho, readString_string hm, readString_string hn, ht,
    readString_string hs⟩

theorem rotateKey_of_deserialize {agent key nonce signature : JsString} {req : RotateKeyRequest}
    (h : RotateKeyRequest.deserialize [("agent_id", .string agent),
      ("new_public_key_hex", .string key), ("nonce", .string nonce), ("issued_at", time),
      ("signature_hex", .string signature)] = some req) :
    agent = js req.agentId ∧ key = js req.newPublicKeyHex ∧ nonce = js req.nonce ∧
      readI64 time = some req.issuedAt ∧ signature = js req.signatureHex := by
  simp [RotateKeyRequest.deserialize, Entries.field, Entries.value, Option.bind_eq_some_iff] at h
  obtain ⟨a, ha, k, hk, n, hn, t, ht, s, hs, rfl⟩ := h
  exact ⟨readString_string ha, readString_string hk, readString_string hn, ht, readString_string hs⟩

/-- The entries of an intent, in front of the ones that say where the bytes are. -/
def intentEntries (sender recipient mime filename nonce : JsString) (time : Document)
    (signature : JsString) : Entries :=
  [("sender_agent_id", .string sender), ("recipient", .string recipient),
    ("declared_mime", .string mime), ("filename", .string filename), ("nonce", .string nonce),
    ("issued_at", time), ("intent_signature_hex", .string signature)]

/-- The signed part of an intent was read as it was written. -/
structure ReadsIntent (sender recipient mime filename nonce : JsString) (time : Document)
    (signature : JsString) (req : CreateTransferRequest) : Prop where
  sender : sender = js req.senderAgentId
  recipient : recipient = js req.recipient
  mime : mime = js req.declaredMime
  filename : filename = js req.filename
  nonce : nonce = js req.nonce
  time : readI64 time = some req.issuedAt
  signature : signature = js req.intentSignatureHex

variable {sender recipient mime filename nonce signature : JsString} {req : CreateTransferRequest}

theorem blob_of_deserialize {blob : JsString}
    (h : CreateTransferRequest.deserialize
      (intentEntries sender recipient mime filename nonce time signature ++
        [("blob_hex", .string blob)]) = some req) :
    ReadsIntent sender recipient mime filename nonce time signature req ∧
      blob = js req.blobHex ∧ req.reachableAt = none ∧ req.tunnelUrl = none := by
  simp [CreateTransferRequest.deserialize, intentEntries, Entries.field, Entries.fieldOr,
    Entries.value, Option.bind_eq_some_iff] at h
  obtain ⟨a, ha, r, hr, m, hm, f, hf, n, hn, t, ht, s, hs, b, hb, rfl⟩ := h
  exact ⟨⟨readString_string ha, readString_string hr, readString_string hm, readString_string hf,
    readString_string hn, ht, readString_string hs⟩, readString_string hb, rfl, rfl⟩

theorem tunnel_of_deserialize {blob url : JsString} {size : Document}
    (h : CreateTransferRequest.deserialize
      (intentEntries sender recipient mime filename nonce time signature ++
        [("blob_hex", .string blob), ("tunnel_url", .string url), ("declared_size", size)]) =
      some req) :
    ReadsIntent sender recipient mime filename nonce time signature req ∧
      readOption readU64 size = some req.declaredSize ∧ req.size = req.declaredSize := by
  simp [CreateTransferRequest.deserialize, intentEntries, Entries.field, Entries.fieldOr,
    Entries.value, readOption, Option.bind_eq_some_iff] at h
  obtain ⟨a, ha, r, hr, m, hm, f, hf, n, hn, t, ht, s, hs, b, hb, u, hu, z, hz, rfl⟩ := h
  exact ⟨⟨readString_string ha, readString_string hr, readString_string hm, readString_string hf,
    readString_string hn, ht, readString_string hs⟩, hz, rfl⟩

theorem transports_of_deserialize {blob : JsString} {endpoints : List Document} {size : Document}
    (h : CreateTransferRequest.deserialize
      (intentEntries sender recipient mime filename nonce time signature ++
        [("blob_hex", .string blob), ("reachable_at", .array endpoints),
          ("declared_size", size)]) = some req) :
    ReadsIntent sender recipient mime filename nonce time signature req ∧
      readOption readU64 size = some req.declaredSize ∧ req.size = req.declaredSize := by
  simp [CreateTransferRequest.deserialize, intentEntries, Entries.field, Entries.fieldOr,
    Entries.value, readOption, Option.bind_eq_some_iff] at h
  obtain ⟨a, ha, r, hr, m, hm, f, hf, n, hn, t, ht, s, hs, b, hb, es, hes, z, hz, rfl⟩ := h
  exact ⟨⟨readString_string ha, readString_string hr, readString_string hm, readString_string hf,
    readString_string hn, ht, readString_string hs⟩, hz, rfl⟩

end Bodies

/-! ## Routes -/

/-- A transfer id as the control plane hands it out: `tx_` and letters or digits. -/
def IsTransferId (id : String) : Prop :=
  ∃ rest, id = "tx_" ++ rest ∧ rest ≠ "" ∧ ∀ c ∈ rest.toList, isAsciiAlphanumeric c = true

/-- A segment of unreserved characters stands for itself in a path. -/
def KeepsUnreserved (pathParam : String → Option String) : Prop :=
  ∀ s : String, (∀ c ∈ s.toList, isAsciiAlphanumeric c = true ∨ c = '_') → pathParam s = some s

theorem IsTransferId.unreserved {id : String} (h : IsTransferId id) :
    ∀ c ∈ id.toList, isAsciiAlphanumeric c = true ∨ c = '_' := by
  obtain ⟨rest, rfl, -, hrest⟩ := h
  intro c hc
  rw [String.toList_append, List.mem_append] at hc
  rcases hc with hc | hc
  · have hhead : c = 't' ∨ c = 'x' ∨ c = '_' := by simpa using hc
    rcases hhead with rfl | rfl | rfl <;> decide
  · exact Or.inl (hrest c hc)

theorem segments_transfer {id : String} (h : IsTransferId id) (action : String)
    (haction : '/' ∉ action.toList) :
    segments ("/v1/transfers/" ++ id ++ "/" ++ action) = ["", "v1", "transfers", id, action] := by
  have hid : '/' ∉ id.toList := by
    intro hmem
    have hbad := h.unreserved '/' hmem
    revert hbad
    decide
  have htext : ("/v1/transfers/" ++ id ++ "/" ++ action).toList =
      ['/'].intercalate ["".toList, "v1".toList, "transfers".toList, id.toList, action.toList] := by
    simp [List.intercalate, List.intersperse]
  rw [segments, htext, List.splitOn_intercalate]
  · simp
  · simpa using ⟨hid, haction⟩
  · simp

/-! ## What was signed is what is rebuilt -/

/-- The signer of a request: the agent id it is known by, its key in hex, and how it signs. -/
structure Signer where
  agentId : JsString
  publicKeyHex : String
  sign : Bytes → Bytes

/-- The agent a request speaks for; a registration names none. -/
def requestAgent : Request → Option String
  | .rotateKey req => some req.agentId
  | .createTransfer req => some req.senderAgentId
  | r => r.receipt.map fun p => p.1.recipientAgentId

/-- The request stands for the bytes and the signature of the exchange, and names its signer. -/
structure Rebuilds (ex : Exchange) (r : Request) (signer : Signer) : Prop where
  bytes : ∀ message, r.challenge signer.publicKeyHex = some message →
    message.encode = .ok ex.signed
  signature : r.signatureHex = some (hexEncode (signer.sign ex.signed))
  ownKey : ∀ req, r = .register req → req.publicKeyHex = signer.publicKeyHex
  agent : ∀ a, requestAgent r = some a → signer.agentId = js a

/-- The body is a receipt for the transfer and the action, whatever it is read as. -/
def SignsReceipt (ex : Exchange) (signer : Signer) (path transferId action : String) : Prop :=
  ∃ entries, ex.post = ⟨path, .object entries⟩ ∧
    ∀ req, RecipientReceiptRequest.deserialize entries = some req →
      (Message.transferReceiptBytes req.recipientAgentId transferId action req.nonce
        req.issuedAt).encode = .ok ex.signed ∧
      req.signatureHex = hexEncode (signer.sign ex.signed) ∧
      signer.agentId = js req.recipientAgentId

/-- The body is an intent over the size its reader takes. -/
def SignsIntent (ex : Exchange) (signer : Signer) : Prop :=
  ∃ entries, ex.post = ⟨"/v1/transfers", .object entries⟩ ∧
    ∀ req, CreateTransferRequest.deserialize entries = some req →
      (∀ size, req.size = some size → (req.intent size).encode = .ok ex.signed) ∧
        req.intentSignatureHex = hexEncode (signer.sign ex.signed) ∧
        signer.agentId = js req.senderAgentId

section Requests

variable {ex : Exchange} {signer : Signer} {pathParam : String → Option String} {r : Request}

theorem SignsIntent.rebuilds (h : SignsIntent ex signer) (hr : ex.post.request pathParam = some r) :
    Rebuilds ex r signer := by
  obtain ⟨entries, hpost, hreq⟩ := h
  have hroute : segments "/v1/transfers" = ["", "v1", "transfers"] := by decide +kernel
  rw [hpost] at hr
  simp only [Post.request, hroute] at hr
  obtain ⟨req, hdeserialize, rfl⟩ := Option.map_eq_some_iff.mp hr
  obtain ⟨hbytes, hsignature, hagent⟩ := hreq req hdeserialize
  refine ⟨fun message hmessage => ?_, congrArg some hsignature, nofun, fun a ha => ?_⟩
  · obtain ⟨size, hsize, rfl⟩ := Option.map_eq_some_iff.mp hmessage
    exact hbytes size hsize
  · cases ha
    exact hagent

example : (Post.mk "/v1/inbox" (.object [])).request some = none := by decide +kernel

theorem SignsReceipt.rebuilds_inbox (h : SignsReceipt ex signer "/v1/inbox" "inbox" "inbox")
    (hr : ex.post.request pathParam = some r) : Rebuilds ex r signer := by
  obtain ⟨entries, hpost, hreq⟩ := h
  have hroute : segments "/v1/inbox" = ["", "v1", "inbox"] := by decide +kernel
  rw [hpost] at hr
  simp only [Post.request, hroute] at hr
  obtain ⟨req, hdeserialize, rfl⟩ := Option.map_eq_some_iff.mp hr
  obtain ⟨hbytes, hsignature, hagent⟩ := hreq req hdeserialize
  refine ⟨fun message hmessage => ?_, congrArg some hsignature, nofun, fun a ha => ?_⟩
  · cases hmessage
    exact hbytes
  · cases ha
    exact hagent

/-- The three requests on a transfer. -/
theorem SignsReceipt.rebuilds (request : String → RecipientReceiptRequest → Request)
    (path : String) {transferId action suffix : String} (hid : IsTransferId transferId)
    (hparam : KeepsUnreserved pathParam) (hslash : '/' ∉ path.toList)
    (hsuffix : suffix = "/" ++ path)
    (hrequest : ∀ entries id, segments id = ["", "v1", "transfers", transferId, path] →
      (Post.mk id (.object entries)).request pathParam = do
        pure (request (← pathParam transferId) (← RecipientReceiptRequest.deserialize entries)))
    (hreceipt : ∀ req, (request transferId req).challenge signer.publicKeyHex =
      some (.transferReceiptBytes req.recipientAgentId transferId action req.nonce req.issuedAt) ∧
      (request transferId req).signatureHex = some req.signatureHex ∧
      requestAgent (request transferId req) = some req.recipientAgentId ∧
      ∀ reg, request transferId req ≠ .register reg)
    (h : SignsReceipt ex signer ("/v1/transfers/" ++ transferId ++ suffix) transferId action)
    (hr : ex.post.request pathParam = some r) : Rebuilds ex r signer := by
  obtain ⟨entries, hpost, hreq⟩ := h
  rw [hsuffix, ← String.append_assoc] at hpost
  rw [hpost, hrequest entries _ (segments_transfer hid path hslash),
    hparam transferId hid.unreserved] at hr
  obtain ⟨id, hid', hr⟩ := Option.bind_eq_some_iff.mp hr
  cases hid'
  obtain ⟨req, hdeserialize, hsome⟩ := Option.bind_eq_some_iff.mp hr
  cases hsome
  obtain ⟨hbytes, hsignature, hagent⟩ := hreq req hdeserialize
  obtain ⟨hchallenge, hhex, hnamed, hregister⟩ := hreceipt req
  refine ⟨fun message hmessage => ?_, hhex.trans (congrArg some hsignature),
    fun reg hreg => absurd hreg (hregister reg), fun a ha => ?_⟩
  · rw [hchallenge] at hmessage
    cases hmessage
    exact hbytes
  · rw [hnamed] at ha
    cases ha
    exact hagent

theorem SignsReceipt.rebuilds_download {transferId : String} (hid : IsTransferId transferId)
    (hparam : KeepsUnreserved pathParam)
    (h : SignsReceipt ex signer ("/v1/transfers/" ++ transferId ++ "/download") transferId "download")
    (hr : ex.post.request pathParam = some r) : Rebuilds ex r signer :=
  SignsReceipt.rebuilds .downloadTransfer "download" hid hparam (by simp) rfl
    (fun entries path hpath => by simp [Post.request, hpath]) (fun req => ⟨rfl, rfl, rfl, nofun⟩) h hr

theorem SignsReceipt.rebuilds_ack {transferId : String} (hid : IsTransferId transferId)
    (hparam : KeepsUnreserved pathParam)
    (h : SignsReceipt ex signer ("/v1/transfers/" ++ transferId ++ "/ack") transferId "ack")
    (hr : ex.post.request pathParam = some r) : Rebuilds ex r signer :=
  SignsReceipt.rebuilds .ackTransfer "ack" hid hparam (by simp) rfl
    (fun entries path hpath => by simp [Post.request, hpath]) (fun req => ⟨rfl, rfl, rfl, nofun⟩) h hr

theorem SignsReceipt.rebuilds_ticket {transferId : String} (hid : IsTransferId transferId)
    (hparam : KeepsUnreserved pathParam)
    (h : SignsReceipt ex signer ("/v1/transfers/" ++ transferId ++ "/ticket") transferId
      "request_ticket")
    (hr : ex.post.request pathParam = some r) : Rebuilds ex r signer :=
  SignsReceipt.rebuilds .issueTicket "ticket" hid hparam (by simp) rfl
    (fun entries path hpath => by simp [Post.request, hpath]) (fun req => ⟨rfl, rfl, rfl, nofun⟩) h hr

/-- The registration stands for the key, the labels and the nonce it carries. -/
theorem rebuilds_register {entries : Entries} (hpost : ex.post = ⟨"/v1/agents/register", .object entries⟩)
    (hreq : ∀ req, RegisterRequest.deserialize entries = some req →
      (Message.registrationChallengeBytes req.publicKeyHex req.org req.name req.nonce
        req.issuedAt).encode = .ok ex.signed ∧
        req.signatureHex = hexEncode (signer.sign ex.signed) ∧
        req.publicKeyHex = signer.publicKeyHex)
    (hr : ex.post.request pathParam = some r) : Rebuilds ex r signer := by
  have hroute : segments "/v1/agents/register" = ["", "v1", "agents", "register"] := by
    decide +kernel
  rw [hpost] at hr
  simp only [Post.request, hroute] at hr
  obtain ⟨req, hdeserialize, rfl⟩ := Option.map_eq_some_iff.mp hr
  obtain ⟨hbytes, hsignature, hkey⟩ := hreq req hdeserialize
  refine ⟨fun message hmessage => ?_, congrArg some hsignature, fun req' heq => ?_, nofun⟩
  · cases hmessage
    exact hbytes
  · cases heq
    exact hkey

/-- The rotation names the current key of the ledger, which is the key of the client. -/
theorem rebuilds_rotateKey {entries : Entries}
    (hpost : ex.post = ⟨"/v1/agents/rotate-key", .object entries⟩)
    (hreq : ∀ req, RotateKeyRequest.deserialize entries = some req →
      (Message.rotateKeyChallengeBytes req.agentId signer.publicKeyHex req.newPublicKeyHex req.nonce
        req.issuedAt).encode = .ok ex.signed ∧
        req.signatureHex = hexEncode (signer.sign ex.signed) ∧ signer.agentId = js req.agentId)
    (hr : ex.post.request pathParam = some r) : Rebuilds ex r signer := by
  have hroute : segments "/v1/agents/rotate-key" = ["", "v1", "agents", "rotate-key"] := by
    decide +kernel
  rw [hpost] at hr
  simp only [Post.request, hroute] at hr
  obtain ⟨req, hdeserialize, rfl⟩ := Option.map_eq_some_iff.mp hr
  obtain ⟨hbytes, hsignature, hagent⟩ := hreq req hdeserialize
  refine ⟨fun message hmessage => ?_, congrArg some hsignature, nofun, fun a ha => ?_⟩
  · cases hmessage
    exact hbytes
  · cases ha
    exact hagent

end Requests

/-! ## Python -/

section Python

variable {crypto : Crypto} {identity : Python.Identity} {entropy : Bytes} {issuedAt : ℤ}
  {ex : Exchange} {pathParam : String → Option String} {r : Request}

/-- The signer a Python identity is. -/
def pythonSigner (crypto : Crypto) (identity : Python.Identity) : Signer where
  agentId := js (identity.agentId crypto)
  publicKeyHex := identity.publicKeyHex
  sign := identity.sign crypto

theorem python_register (h : Python.register crypto identity entropy issuedAt = .ok ex)
    (hr : ex.post.request pathParam = some r) :
    Rebuilds ex r (pythonSigner crypto identity) := by
  obtain ⟨challenge, hchallenge, hex⟩ := except_bind_eq_ok.mp h
  cases hex
  refine rebuilds_register rfl (fun req hreq => ?_) hr
  obtain ⟨hkey, horg, hname, hnonce, htime, hsignature⟩ := register_of_deserialize hreq
  have hagrees := python_agrees (m := .registrationChallengeBytes req.publicKeyHex req.org req.name
    req.nonce req.issuedAt) rfl
  rw [eq_of_js_eq hkey, eq_of_js_eq horg, eq_of_js_eq hname, eq_of_js_eq hnonce,
    readI64_integer htime] at hchallenge
  exact ⟨hagrees.symm.eq_ok hchallenge, (eq_of_js_eq hsignature).symm, (eq_of_js_eq hkey).symm⟩

theorem python_rotateKey {newIdentity : Python.Identity}
    (h : Python.rotateKey crypto identity entropy issuedAt newIdentity = .ok ex)
    (hr : ex.post.request pathParam = some r) :
    Rebuilds ex r (pythonSigner crypto identity) := by
  unfold Python.rotateKey at h
  obtain ⟨challenge, hchallenge, hex⟩ := except_bind_eq_ok.mp (throwIf_eq_ok (throwIf_eq_ok h))
  cases hex
  refine rebuilds_rotateKey rfl (fun req hreq => ?_) hr
  obtain ⟨hagent, hkey, hnonce, htime, hsignature⟩ := rotateKey_of_deserialize hreq
  have hagrees := python_agrees (m := .rotateKeyChallengeBytes req.agentId identity.publicKeyHex
    req.newPublicKeyHex req.nonce req.issuedAt) rfl
  rw [eq_of_js_eq hagent, eq_of_js_eq hkey, eq_of_js_eq hnonce, readI64_integer htime] at hchallenge
  exact ⟨hagrees.symm.eq_ok hchallenge, (eq_of_js_eq hsignature).symm, hagent⟩

theorem python_receipt {path transferId action : String}
    (h : Python.postReceipt crypto identity entropy issuedAt path transferId action = .ok ex) :
    SignsReceipt ex (pythonSigner crypto identity) path transferId action := by
  obtain ⟨canonical, hcanonical, hex⟩ := except_bind_eq_ok.mp h
  cases hex
  refine ⟨_, rfl, fun req hreq => ?_⟩
  obtain ⟨hagent, hnonce, htime, hsignature⟩ := receipt_of_deserialize hreq
  have hagrees := python_agrees (m := .transferReceiptBytes req.recipientAgentId transferId action
    req.nonce req.issuedAt) rfl
  rw [eq_of_js_eq hagent, eq_of_js_eq hnonce, readI64_integer htime] at hcanonical
  exact ⟨hagrees.symm.eq_ok hcanonical, (eq_of_js_eq hsignature).symm, hagent⟩

/-- An announced transfer, with a size that the reader of the body also takes. -/
theorem python_announce {intent : Python.Intent} {sizeBytes : ℤ} {source : Entries}
    (h : Python.announce crypto identity entropy issuedAt intent sizeBytes source = .ok ex)
    (hsource : ∀ signature req, CreateTransferRequest.deserialize
      (intentEntries (js (identity.agentId crypto)) (js intent.recipient) (js intent.declaredMime)
        (js intent.filename) (js (Python.randomNonce entropy)) (.integer issuedAt) signature ++
        source) = some req →
      ReadsIntent (js (identity.agentId crypto)) (js intent.recipient) (js intent.declaredMime)
        (js intent.filename) (js (Python.randomNonce entropy)) (.integer issuedAt) signature req ∧
      ∀ size, req.size = some size → sizeBytes = size.toNat) :
    SignsIntent ex (pythonSigner crypto identity) := by
  obtain ⟨canonical, hcanonical, hex⟩ := except_bind_eq_ok.mp h
  cases hex
  refine ⟨_, rfl, fun req hreq => ?_⟩
  obtain ⟨hintent, hsize⟩ := hsource _ req hreq
  refine ⟨fun size hs => ?_, (eq_of_js_eq hintent.signature).symm, hintent.sender⟩
  have hagrees := python_agrees (m := req.intent size) rfl
  rw [eq_of_js_eq hintent.sender, eq_of_js_eq hintent.recipient, eq_of_js_eq hintent.mime,
    eq_of_js_eq hintent.filename, eq_of_js_eq hintent.nonce, readI64_integer hintent.time,
    hsize size hs] at hcanonical
  exact hagrees.symm.eq_ok hcanonical

/-- The size of an uploaded blob is recomputed from its hex. -/
theorem size_of_blob {req : CreateTransferRequest} {data : Bytes} (hlength : data.length < 2 ^ 64)
    (hblob : hexEncode data = req.blobHex) (hreach : req.reachableAt = none)
    (htunnel : req.tunnelUrl = none) {size : UInt64} (hsize : req.size = some size) :
    data.length = size.toNat := by
  simp only [CreateTransferRequest.size, hreach, htunnel, ← hblob, hexDecode_hexEncode] at hsize
  cases hsize
  exact (UInt64.toNat_ofNat_of_lt' hlength).symm

/-- A declared size is read back as it was written. -/
theorem size_of_declared {req : CreateTransferRequest} {n : ℤ}
    (hread : readOption readU64 (.integer n) = some req.declaredSize)
    (hdeclared : req.size = req.declaredSize) {size : UInt64} (hsize : req.size = some size) :
    n = size.toNat := by
  obtain ⟨z, hz, hsome⟩ := Option.map_eq_some_iff.mp hread
  rw [readU64_integer hz]
  rw [hdeclared, ← hsome] at hsize
  cases hsize
  rfl

theorem python_send_buffer {intent : Python.Intent} {data : Python.Buffer}
    (h : Python.announce crypto identity entropy issuedAt intent data.data.length
      [("blob_hex", Python.str (hexEncode data.data))] = .ok ex) :
    SignsIntent ex (pythonSigner crypto identity) := by
  refine python_announce h fun signature req hreq => ?_
  obtain ⟨hintent, hblob, hreach, htunnel⟩ := blob_of_deserialize hreq
  refine ⟨hintent, fun size hsize => ?_⟩
  have hlength : data.data.length < 2 ^ 64 := by
    have := data.length_le
    omega
  exact congrArg Nat.cast (size_of_blob hlength (eq_of_js_eq hblob) hreach htunnel hsize)

theorem python_send {intent : Python.Intent} {data : Option Python.Buffer}
    {file : Option Python.File}
    (h : Python.send crypto identity entropy issuedAt intent data file = .ok ex) :
    SignsIntent ex (pythonSigner crypto identity) := by
  cases data with
  | none =>
    cases file with
    | none => cases h
    | some file => exact python_send_buffer h
  | some data =>
    cases file with
    | none => exact python_send_buffer h
    | some file => cases h

theorem python_sendViaTunnel {intent : Python.Intent} {declaredSize : ℤ} {tunnelUrl : String}
    (h : Python.sendViaTunnel crypto identity entropy issuedAt intent declaredSize tunnelUrl =
      .ok ex) : SignsIntent ex (pythonSigner crypto identity) := by
  refine python_announce h fun signature req hreq => ?_
  obtain ⟨hintent, hread, hdeclared⟩ := tunnel_of_deserialize hreq
  exact ⟨hintent, fun size => size_of_declared hread hdeclared⟩

theorem python_sendViaTransports {intent : Python.Intent} {declaredSize : ℤ}
    {endpoints : List Python.Endpoint}
    (h : Python.sendViaTransports crypto identity entropy issuedAt intent declaredSize endpoints =
      .ok ex) : SignsIntent ex (pythonSigner crypto identity) := by
  unfold Python.sendViaTransports at h
  refine python_announce (throwIf_eq_ok h) fun signature req hreq => ?_
  obtain ⟨hintent, hread, hdeclared⟩ := transports_of_deserialize hreq
  exact ⟨hintent, fun size => size_of_declared hread hdeclared⟩

end Python

/-! ## TypeScript -/

section TypeScript

variable {crypto : Crypto} {identity : TypeScript.Identity} {entropy : Bytes} {issuedAt : JsNumber}
  {ex : Exchange} {pathParam : String → Option String} {r : Request}

/-- The signer a TypeScript identity is. -/
def typescriptSigner (crypto : Crypto) (identity : TypeScript.Identity) : Signer where
  agentId := identity.agentId crypto
  publicKeyHex := hexEncode identity.publicKey
  sign := identity.sign crypto

theorem typescript_register (h : TypeScript.register crypto identity entropy issuedAt = .ok ex)
    (hr : ex.post.request pathParam = some r) :
    Rebuilds ex r (typescriptSigner crypto identity) := by
  obtain ⟨challenge, hchallenge, hex⟩ := except_bind_eq_ok.mp h
  cases hex
  refine rebuilds_register rfl (fun req hreq => ?_) hr
  obtain ⟨hkey, horg, hname, hnonce, htime, hsignature⟩ := register_of_deserialize hreq
  rw [hkey, horg, hname, hnonce, readI64_toJson htime] at hchallenge
  have hagrees := @registrationChallenge_js "spize-register:v1" req.publicKeyHex req.org
    req.name req.nonce req.issuedAt
  exact ⟨hagrees.symm.eq_ok hchallenge, (eq_of_js_eq hsignature).symm, (eq_of_js_eq hkey).symm⟩

theorem typescript_rotateKey {newIdentity : TypeScript.Identity}
    (h : TypeScript.rotateKey crypto identity entropy issuedAt newIdentity = .ok ex)
    (hr : ex.post.request pathParam = some r) :
    Rebuilds ex r (typescriptSigner crypto identity) := by
  unfold TypeScript.rotateKey at h
  obtain ⟨challenge, hchallenge, hex⟩ := except_bind_eq_ok.mp (throwIf_eq_ok (throwIf_eq_ok h))
  cases hex
  refine rebuilds_rotateKey rfl (fun req hreq => ?_) hr
  obtain ⟨hagent, hkey, hnonce, htime, hsignature⟩ := rotateKey_of_deserialize hreq
  rw [hagent, hkey, hnonce, readI64_toJson htime] at hchallenge
  have hagrees := @rotateKeyChallenge_js "spize-rotate-key:v1" req.agentId
    (hexEncode identity.publicKey) req.newPublicKeyHex req.nonce req.issuedAt
  exact ⟨hagrees.symm.eq_ok hchallenge, (eq_of_js_eq hsignature).symm, hagent⟩

theorem typescript_receipt {path transferId action : String}
    (h : TypeScript.postReceipt crypto identity entropy issuedAt (js path) (js transferId) action =
      .ok ex) : SignsReceipt ex (typescriptSigner crypto identity) path transferId action := by
  obtain ⟨canonical, hcanonical, hex⟩ := except_bind_eq_ok.mp h
  cases hex
  refine ⟨_, by rw [usvString_js], fun req hreq => ?_⟩
  obtain ⟨hagent, hnonce, htime, hsignature⟩ := receipt_of_deserialize hreq
  rw [hagent, hnonce, readI64_toJson htime] at hcanonical
  have hagrees := @transferReceipt_js "spize-transfer-receipt:v1" req.recipientAgentId
    transferId action req.nonce req.issuedAt
  exact ⟨hagrees.symm.eq_ok hcanonical, (eq_of_js_eq hsignature).symm, hagent⟩

/-- An announced transfer, with a size that the reader of the body also takes. -/
theorem typescript_announce {intent : TypeScript.Intent} {sizeBytes : JsNumber} {source : Entries}
    (h : TypeScript.announce crypto identity entropy issuedAt intent sizeBytes source = .ok ex)
    (hsource : ∀ signature req, CreateTransferRequest.deserialize
      (intentEntries (identity.agentId crypto) intent.recipient intent.declaredMime
        intent.filename (TypeScript.randomNonce entropy) issuedAt.toJson signature ++ source) =
        some req →
      ReadsIntent (identity.agentId crypto) intent.recipient intent.declaredMime intent.filename
        (TypeScript.randomNonce entropy) issuedAt.toJson signature req ∧
      ∀ size, req.size = some size → sizeBytes = .decimal size.toNat) :
    SignsIntent ex (typescriptSigner crypto identity) := by
  obtain ⟨canonical, hcanonical, hex⟩ := except_bind_eq_ok.mp h
  cases hex
  refine ⟨_, rfl, fun req hreq => ?_⟩
  obtain ⟨hintent, hsize⟩ := hsource _ req hreq
  refine ⟨fun size hs => ?_, (eq_of_js_eq hintent.signature).symm, hintent.sender⟩
  rw [hintent.sender, hintent.recipient, hintent.mime, hintent.filename, hintent.nonce,
    readI64_toJson hintent.time, hsize size hs] at hcanonical
  have hagrees := @transferIntent_js "spize-transfer-intent:v1" req.senderAgentId
    req.recipient size req.declaredMime req.filename req.nonce req.issuedAt
  exact hagrees.symm.eq_ok hcanonical

theorem typescript_send {recipient : JsString} {data : TypeScript.Uint8Array}
    {declaredMime filename : Option JsString}
    (h : TypeScript.send crypto identity entropy issuedAt recipient data declaredMime filename =
      .ok ex) : SignsIntent ex (typescriptSigner crypto identity) := by
  refine typescript_announce h fun signature req hreq => ?_
  obtain ⟨hintent, hblob, hreach, htunnel⟩ := blob_of_deserialize hreq
  refine ⟨hintent, fun size hsize => ?_⟩
  have hlength : data.data.length < 2 ^ 64 := by
    have hle : data.data.length ≤ 2 ^ 53 - 1 := data.length_le
    omega
  have hsame := size_of_blob hlength (eq_of_js_eq hblob) hreach htunnel hsize
  exact congrArg (fun n : ℕ => JsNumber.decimal n) hsame

/-- A declared size is read back as it was written, if it is a plain integer. -/
theorem number_of_declared {req : CreateTransferRequest} {x : JsNumber}
    (hread : readOption readU64 x.toJson = some req.declaredSize)
    (hdeclared : req.size = req.declaredSize) {size : UInt64} (hsize : req.size = some size) :
    x = .decimal size.toNat := by
  rw [← hdeclared, hsize] at hread
  exact readU64_toJson hread

theorem typescript_sendViaTunnel {intent : TypeScript.Intent} {declaredSize : JsNumber}
    {tunnelUrl : JsString}
    (h : TypeScript.sendViaTunnel crypto identity entropy issuedAt intent declaredSize tunnelUrl =
      .ok ex) : SignsIntent ex (typescriptSigner crypto identity) := by
  refine typescript_announce h fun signature req hreq => ?_
  obtain ⟨hintent, hread, hdeclared⟩ := tunnel_of_deserialize hreq
  exact ⟨hintent, fun size => number_of_declared hread hdeclared⟩

theorem typescript_sendViaTransports {intent : TypeScript.Intent} {declaredSize : JsNumber}
    {endpoints : List TypeScript.Endpoint}
    (h : TypeScript.sendViaTransports crypto identity entropy issuedAt intent declaredSize
      endpoints = .ok ex) : SignsIntent ex (typescriptSigner crypto identity) := by
  unfold TypeScript.sendViaTransports at h
  refine typescript_announce (throwIf_eq_ok h) fun signature req hreq => ?_
  obtain ⟨hintent, hread, hdeclared⟩ := transports_of_deserialize hreq
  exact ⟨hintent, fun size => number_of_declared hread hdeclared⟩

end TypeScript

/-! ## Clients -/

/-- A client of one of the SDKs that is about to make a request. -/
inductive Client where
  | python (identity : Python.Identity) (issuedAt : ℤ) (op : Python.Operation)
  | typescript (identity : TypeScript.Identity) (issuedAt : JsNumber) (op : TypeScript.Operation)

namespace Client

/-- What the client sends, if it builds a request at all. -/
def request (crypto : Crypto) (entropy : Bytes) : Client → Option Exchange
  | python identity issuedAt op => (op.request crypto identity entropy issuedAt).toOption
  | typescript identity issuedAt op => (op.request crypto identity entropy issuedAt).toOption

def publicKey : Client → Bytes
  | python identity _ _ => identity.publicKeyBytes
  | typescript identity _ _ => identity.publicKey

def secret : Client → Bytes
  | python identity _ _ => identity.privateKeyBytes
  | typescript identity _ _ => identity.privateKey

def signer (crypto : Crypto) : Client → Signer
  | python identity _ _ => pythonSigner crypto identity
  | typescript identity _ _ => typescriptSigner crypto identity

/-- A transfer the operation names has an id of the control plane. -/
def NamesTransfer : Client → Prop
  | python _ _ (.download x) | python _ _ (.ack x) | python _ _ (.requestTicket x) => IsTransferId x
  | typescript _ _ (.download x) | typescript _ _ (.ack x) | typescript _ _ (.requestTicket x) =>
    ∃ id, x = js id ∧ IsTransferId id
  | _ => True

end Client

theorem eq_ok_of_toOption {ε α : Type} {x : Except ε α} {a : α} (h : x.toOption = some a) :
    x = .ok a := by
  cases x with
  | error e => cases h
  | ok b => cases h; rfl

theorem Client.rebuilds {pathParam : String → Option String} (hparam : KeepsUnreserved pathParam)
    {crypto : Crypto} {entropy : Bytes} {client : Client} {ex : Exchange}
    (hrequest : client.request crypto entropy = some ex) (hid : client.NamesTransfer) {r : Request}
    (hr : ex.post.request pathParam = some r) :
    Rebuilds ex r (client.signer crypto) := by
  cases client with
  | python identity issuedAt op =>
    have h := eq_ok_of_toOption hrequest
    cases op with
    | register => exact python_register h hr
    | rotateKey newIdentity => exact python_rotateKey h hr
    | send intent data file => exact (python_send h).rebuilds hr
    | sendViaTunnel intent declaredSize tunnelUrl => exact (python_sendViaTunnel h).rebuilds hr
    | sendViaTransports intent declaredSize endpoints =>
      exact (python_sendViaTransports h).rebuilds hr
    | download x => exact (python_receipt h).rebuilds_download hid hparam hr
    | ack x => exact (python_receipt h).rebuilds_ack hid hparam hr
    | requestTicket x => exact (python_receipt h).rebuilds_ticket hid hparam hr
    | inbox => exact (python_receipt h).rebuilds_inbox hr
  | typescript identity issuedAt op =>
    have h := eq_ok_of_toOption hrequest
    cases op with
    | register => exact typescript_register h hr
    | rotateKey newIdentity => exact typescript_rotateKey h hr
    | send recipient data declaredMime filename => exact (typescript_send h).rebuilds hr
    | sendViaTunnel intent declaredSize tunnelUrl => exact (typescript_sendViaTunnel h).rebuilds hr
    | sendViaTransports intent declaredSize endpoints =>
      exact (typescript_sendViaTransports h).rebuilds hr
    | download x =>
      obtain ⟨id, rfl, hid⟩ := hid
      simp only [TypeScript.Operation.request, TypeScript.download, ← Utf16.encode_append] at h
      exact (typescript_receipt h).rebuilds_download hid hparam hr
    | ack x =>
      obtain ⟨id, rfl, hid⟩ := hid
      simp only [TypeScript.Operation.request, TypeScript.ack, ← Utf16.encode_append] at h
      exact (typescript_receipt h).rebuilds_ack hid hparam hr
    | requestTicket x =>
      obtain ⟨id, rfl, hid⟩ := hid
      simp only [TypeScript.Operation.request, TypeScript.requestTicket, ← Utf16.encode_append] at h
      exact (typescript_receipt h).rebuilds_ticket hid hparam hr
    | inbox => exact (typescript_receipt h).rebuilds_inbox hr

/-- Wherever a handler asks the ledger, the key of the client is listed, and the current key is the
key of the client in lower-case hex. -/
structure UpToDate (key : Bytes) (past : History) : Prop where
  listed : ∀ agentId at_ rows, Saw past (.validKeysAt agentId at_) (.ok rows) →
    ∃ row ∈ rows, row.publicKey = key
  current : ∀ agentId row, Saw past (.currentKey agentId) (.ok (some row)) →
    row.publicKey = key ∧ row.publicKeyHex = hexEncode key

/-- Of the keys a handler consults one is the key of the client, and the message names it. -/
theorem UpToDate.consulted {key : Bytes} {past : History} (h : UpToDate key past) {r : Request}
    (hown : ∀ req, r = .register req → req.publicKeyHex = hexEncode key) {currentHex : String}
    {keys : List Bytes} (hconsulted : r.Consulted past currentHex keys) :
    key ∈ keys ∧ r.challenge currentHex = r.challenge (hexEncode key) := by
  have hlisted {agentId at_ rows} (hrows : Saw past (.validKeysAt agentId at_) (.ok rows)) :
      key ∈ rows.map (·.publicKey) := by
    obtain ⟨row, hrow, hkey⟩ := h.listed agentId at_ rows hrows
    exact List.mem_map.mpr ⟨row, hrow, hkey⟩
  cases r with
  | register req =>
    obtain ⟨decoded, hdecoded, rfl⟩ := hconsulted
    rw [hown req rfl, hexDecode_hexEncode] at hdecoded
    cases hdecoded
    exact ⟨List.mem_singleton.mpr rfl, rfl⟩
  | rotateKey req =>
    obtain ⟨current, hcurrent, rfl, rfl⟩ := hconsulted
    obtain ⟨hkey, hhex⟩ := h.current req.agentId current hcurrent
    exact ⟨List.mem_singleton.mpr hkey.symm, by rw [hhex]⟩
  | _ =>
    obtain ⟨agentId, at_, rows, hrows, rfl⟩ := hconsulted
    exact ⟨hlisted hrows, rfl⟩

/-- The handler rebuilds the bytes the client signed; so no run of it refuses an up-to-date client
for its signature. -/
theorem signed_bytes_rebuilt {pathParam : String → Option String}
    (hparam : KeepsUnreserved pathParam) {crypto : Crypto} {entropy : Bytes} {client : Client}
    {ex : Exchange} (hrequest : client.request crypto entropy = some ex)
    (hid : client.NamesTransfer) {r : Request} (hr : ex.post.request pathParam = some r) :
    (∀ message, r.challenge (hexEncode client.publicKey) = some message →
      message.encode = .ok ex.signed) ∧
    ∀ env : Env, (∀ m, keyVerifies env m (crypto.sign client.secret m) client.publicKey = true) →
      ∀ past rest e, Program.Runs (handler env r) past rest → rest.outcome = some (.error e) →
        UpToDate client.publicKey past → ¬e.IsSignatureMismatch := by
  have hrebuilds := Client.rebuilds hparam hrequest hid hr
  have hkey : (client.signer crypto).publicKeyHex = hexEncode client.publicKey := by
    cases client <;> rfl
  have hsign : (client.signer crypto).sign = crypto.sign client.secret := by
    cases client <;> rfl
  refine ⟨fun message hmessage => hrebuilds.bytes message (hkey ▸ hmessage), fun env hhonest past rest e hruns houtcome hcurrent hmismatch => ?_⟩
  obtain ⟨currentHex, keys, message, canonical, signature, href⟩ :=
    hruns.outcome_spec (handler_blames env r) houtcome e rfl hmismatch
  obtain ⟨hmem, hsame⟩ := hcurrent.consulted (hkey ▸ hrebuilds.ownKey) href.consulted
  have hcanonical : canonical = ex.signed := by
    have hencoded := hrebuilds.bytes message (hkey ▸ hsame ▸ href.challenge)
    rw [href.encoded] at hencoded
    exact Except.ok.inj hencoded
  have hsignature : signature = crypto.sign client.secret ex.signed := by
    obtain ⟨hex, hhex, hdecoded⟩ := href.decoded
    rw [hrebuilds.signature, hsign] at hhex
    cases hhex
    rw [hexDecode_hexEncode] at hdecoded
    exact (Except.ok.inj hdecoded).symm
  have hrefuted := href.refuted client.publicKey hmem
  rw [hcanonical, hsignature, hhonest] at hrefuted
  cases hrefuted

/-- Bob fetches the transfer with the TypeScript SDK. -/
def Sample.bobDownloads : Client :=
  .typescript ⟨js "acme", js "bob", List.replicate 32 2,
    ControlPlane.Sample.bytesOf ControlPlane.Sample.bobKeyHex⟩ (.decimal 1700000000)
    (.download (js ControlPlane.Sample.transferId))

theorem signed_bytes_rebuilt_download :
    ∃ ex, Sample.bobDownloads.request Sample.crypto (List.replicate 16 0xc1) = some ex ∧
      ex.post.request some = some (.downloadTransfer ControlPlane.Sample.transferId
        ControlPlane.Sample.downloadRequest) ∧
      (Message.transferReceiptBytes ControlPlane.Sample.bob ControlPlane.Sample.transferId "download"
        (ControlPlane.Sample.nonce 0xc1) ControlPlane.Sample.time).encode = .ok ex.signed := by
  have h : ((Sample.bobDownloads.request Sample.crypto (List.replicate 16 0xc1)).bind fun ex =>
      ex.post.request some) = some (.downloadTransfer ControlPlane.Sample.transferId
        ControlPlane.Sample.downloadRequest) := by
    rw [Sample.crypto_eq]
    decide +kernel
  obtain ⟨ex, hex, hr⟩ := Option.bind_eq_some_iff.mp h
  have hid : Sample.bobDownloads.NamesTransfer :=
    ⟨_, rfl, "01010101010101010101010101010101", by decide, by decide,
      List.all_eq_true.mp (by decide +kernel)⟩
  exact ⟨ex, hex, hr, (signed_bytes_rebuilt (fun _ _ => rfl) hex hid hr).1 _ rfl⟩
end AgentExchange.Sdk
