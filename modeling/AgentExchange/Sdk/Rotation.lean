import AgentExchange.Sdk.NativeIds
import AgentExchange.Sdk.SignedBytes

/-!
# Rotation through the SDKs

The ledger keeps an agent under the id it was registered with, and the SDKs make the id of an
identity from its key. So a client that goes on with the new key names the agent that was rotated
exactly if its key has the fingerprint of the key before.
-/
namespace AgentExchange.ControlPlane

open Library

/-! ## Keys that were added to the ledger -/

/-- The agent, the text and the bytes of the key that an accepted operation adds. -/
def addedKey : Library.Event effects → Option (String × String × Bytes)
  | ⟨.insertAgent agentId publicKey _ _ _, .ok _⟩ => some (agentId, hexEncode publicKey, publicKey)
  | ⟨.insertRotation agentId _ newHex newKey _, .ok _⟩ => some (agentId, newHex, newKey)
  | _ => none

/-- The agent and the text of the key that an accepted rotation replaces. -/
def replacedKey : Library.Event effects → Option (String × String)
  | ⟨.insertRotation agentId expectedHex _ _ _, .ok _⟩ => some (agentId, expectedHex)
  | _ => none

theorem wroteLedger_of_addedKey {event : Library.Event effects} {added : String × String × Bytes}
    (h : addedKey event = some added) : WroteLedger event := by
  revert h
  unfold addedKey
  split
  · exact fun _ => trivial
  · exact fun _ => trivial
  · intro h
    cases h

/-- The agent has an open row with the key. -/
def Db.Holds (db : Db) (agentId hex : String) (key : Bytes) : Prop :=
  ∃ validFrom, ⟨agentId, hex, key, validFrom, none⟩ ∈ db.agentKeys

/-- The open row of an agent is the one its current key is read from. -/
theorem Db.Holds.currentKey {db : Db} (hledger : KeyLedger db) {agentId hex : String} {key : Bytes}
    (h : db.Holds agentId hex key) :
    ∃ row, db.currentKey agentId = some row ∧ row.publicKeyHex = hex ∧ row.publicKey = key := by
  obtain ⟨validFrom, hmem⟩ := h
  have hopen : (db.currentKey agentId).isSome = true := by
    rw [Db.currentKey, List.find?_isSome]
    exact ⟨_, hmem, by simp⟩
  obtain ⟨row, hrow⟩ := Option.isSome_iff_exists.mp hopen
  have hprops : row.agentId = agentId ∧ row.validTo = none := by simpa using List.find?_some hrow
  have hlast {r : AgentKeyRow} (hr : r ∈ db.agentKeys) (hid : r.agentId = agentId)
      (hto : r.validTo = none) : (db.keysOf agentId).getLast? = some r :=
    (hledger.linear agentId).getLast_of_open (List.mem_filter.mpr ⟨hr, by simpa using hid⟩) hto
  have hsame := (hlast (List.mem_of_find?_eq_some hrow) hprops.1 hprops.2).symm.trans
    (hlast hmem rfl rfl)
  cases hsame
  exact ⟨_, hrow, rfl, rfl⟩

/-- A key that was added and that no rotation replaced is the current one of its agent. -/
def KeysKept (trace : Trace) (db : Db) : Prop :=
  ∀ e ∈ trace, ∀ agentId hex key, addedKey e.event = some (agentId, hex, key) →
    (∀ e' ∈ trace, replacedKey e'.event ≠ some (agentId, hex)) → db.Holds agentId hex key

theorem KeysKept.perform {env : Env} {trace : Trace} {s : State} (h : KeysKept trace s.db)
    (hledger : KeyLedger s.db) (i : ℕ) (r : Request) (op : Op) (c : Choice) :
    KeysKept (trace ++ [⟨i, r, s, ⟨op, (exec env s op c).1⟩⟩]) (exec env s op c).2.db := by
  intro e he agentId hex key hadded hkept
  have hpast (he : e ∈ trace) : s.db.Holds agentId hex key :=
    h e he agentId hex key hadded fun e' he' => hkept e' (List.mem_append_left _ he')
  have hnow : replacedKey ⟨op, (exec env s op c).1⟩ ≠ some (agentId, hex) :=
    hkept _ (List.mem_append_right _ (List.mem_singleton.mpr rfl))
  rcases exec_ledger env s op c with ⟨hwrote, -, hkeys⟩ |
    ⟨_, _, _, _, _, _, hevent, hout⟩ | ⟨_, _, _, _, _, _, hevent, hout⟩
  · unfold Db.Holds
    rw [hkeys]
    rcases List.mem_append.mp he with he | he
    · exact hpast he
    · rw [List.mem_singleton.mp he] at hadded
      exact absurd (wroteLedger_of_addedKey hadded) hwrote
  · obtain ⟨-, hdb, -⟩ := Db.insertAgent_eq_ok hout
    rw [hdb]
    rcases List.mem_append.mp he with he | he
    · obtain ⟨validFrom, hmem⟩ := hpast he
      exact ⟨validFrom, List.mem_append_left _ hmem⟩
    · rw [List.mem_singleton.mp he, hevent] at hadded
      cases hadded
      exact ⟨_, List.mem_append_right _ (List.mem_singleton.mpr rfl)⟩
  · obtain ⟨current, -, hid, hhex, -, hrow, hdb, -⟩ := hledger.insertRotation_eq hout
    rw [hdb]
    rcases List.mem_append.mp he with he | he
    · obtain ⟨validFrom, hmem⟩ := hpast he
      refine ⟨validFrom, List.mem_append_left _ (List.mem_map.mpr ⟨_, hmem, if_neg ?_⟩)⟩
      intro hreplaced
      rw [← hreplaced] at hid hhex
      rw [hevent, ← hid, ← hhex] at hnow
      exact hnow rfl
    · rw [List.mem_singleton.mp he, hevent] at hadded
      cases hadded
      rw [hrow]
      exact ⟨_, List.mem_append_right _ (List.mem_singleton.mpr rfl)⟩

theorem run_keysKept (env : Env) (labels : List Label) :
    KeysKept (run env labels).trace (run env labels).shared.db := by
  refine (run_invariant env labels (J := fun trace s => KeyLedger s.db ∧ KeysKept trace s.db) ?_ ?_
    fun _ _ _ h => h).2
  · exact ⟨run_keyLedger env [], by simp [KeysKept]⟩
  · intro trace s i r op c _ h
    exact ⟨h.1.exec op c, h.2.perform h.1 i r op c⟩

/-- What was added was named by the request of its task. -/
theorem writesOwn_of_mem {env : Env} {labels : List Label} {e : Entry effects State Request}
    (he : e ∈ (run env labels).trace) : WritesOwn env e.request e.event.op := by
  obtain ⟨past, rest, htrace⟩ := List.append_of_mem he
  exact (Pool.run_conforms (semantics env) {} labels).operation_spec (handler_writes env) htrace

end AgentExchange.ControlPlane

namespace AgentExchange.Sdk

open Library ControlPlane
open TypeScript (js JsString)

/-! ## Identities -/

section Identities

variable {crypto : Crypto} {org name : String} {secret : Bytes}

theorem python_fromSecret_eq_ok {identity : Python.Identity}
    (h : Python.Identity.fromSecret crypto org name secret = .ok identity) :
    IsLabel org ∧ IsLabel name ∧ secret.length = 32 ∧
      identity = ⟨org, name, secret, crypto.publicKey secret⟩ := by
  obtain ⟨_, horg, h⟩ := except_bind_eq_ok.mp h
  obtain ⟨_, hname, h⟩ := except_bind_eq_ok.mp h
  split_ifs at h with hlength
  · cases h
  · exact ⟨python_validateLabel_iff.mp horg, python_validateLabel_iff.mp hname, not_not.mp hlength,
      (Except.ok.inj h).symm⟩

theorem js_fromSecret_eq_ok {identity : TypeScript.Identity}
    (h : TypeScript.Identity.fromSecret crypto (js org) (js name) secret = .ok identity) :
    IsLabel org ∧ IsLabel name ∧ secret.length = 32 ∧
      identity = ⟨js org, js name, secret, crypto.publicKey secret⟩ := by
  obtain ⟨_, horg, h⟩ := except_bind_eq_ok.mp h
  obtain ⟨_, hname, h⟩ := except_bind_eq_ok.mp h
  split_ifs at h with hlength
  · cases h
  · exact ⟨js_validateLabel_iff.mp horg, js_validateLabel_iff.mp hname, not_not.mp hlength,
      (Except.ok.inj h).symm⟩

end Identities

namespace Client

section Holders

variable (crypto : Crypto) (org name : String) (secret : Bytes)

/-- The client has the identity that its SDK makes of the labels and the secret. -/
def Holds : Client → Prop
  | python identity _ _ => Python.Identity.fromSecret crypto org name secret = .ok identity
  | typescript identity _ _ =>
    TypeScript.Identity.fromSecret crypto (js org) (js name) secret = .ok identity

/-- The client is about to rotate to the identity that its SDK makes of the labels and the
secret. -/
def RotatesTo : Client → Prop
  | python _ _ (.rotateKey newIdentity) =>
    Python.Identity.fromSecret crypto org name secret = .ok newIdentity
  | typescript _ _ (.rotateKey newIdentity) =>
    TypeScript.Identity.fromSecret crypto (js org) (js name) secret = .ok newIdentity
  | _ => False

end Holders

def Registers : Client → Prop
  | python _ _ .register | typescript _ _ .register => True
  | _ => False

variable {crypto : Crypto} {org name : String} {secret : Bytes} {client : Client}

theorem Holds.labels (h : client.Holds crypto org name secret) : IsLabel org ∧ IsLabel name := by
  cases client with
  | python identity issuedAt op =>
    obtain ⟨horg, hname, -⟩ := python_fromSecret_eq_ok h
    exact ⟨horg, hname⟩
  | typescript identity issuedAt op =>
    obtain ⟨horg, hname, -⟩ := js_fromSecret_eq_ok h
    exact ⟨horg, hname⟩

theorem Holds.agentId (h : client.Holds crypto org name secret) :
    (client.signer crypto).agentId = js (nativeText org name (fingerprintOf crypto secret)) := by
  cases client with
  | python identity issuedAt op =>
    obtain ⟨horg, hname, hlength, rfl⟩ := python_fromSecret_eq_ok h
    exact congrArg js (python_agentId horg hname hlength).2
  | typescript identity issuedAt op =>
    obtain ⟨horg, hname, hlength, rfl⟩ := js_fromSecret_eq_ok h
    exact (js_agentId horg hname hlength).2

end Client

/-! ## What the requests name -/

section Requests

variable {pathParam : String → Option String} {r : Request} {agent key org name nonce signature : JsString}
  {time : Document}

theorem request_of_register
    (hr : (Post.mk "/v1/agents/register" (.object [("public_key_hex", .string key),
      ("org", .string org), ("name", .string name), ("nonce", .string nonce), ("issued_at", time),
      ("signature_hex", .string signature)])).request pathParam = some r) :
    ∃ req, r = .register req ∧ key = js req.publicKeyHex ∧ org = js req.org ∧
      name = js req.name := by
  have hroute : segments "/v1/agents/register" = ["", "v1", "agents", "register"] := by
    decide +kernel
  simp only [Post.request, hroute] at hr
  obtain ⟨req, hdeserialize, rfl⟩ := Option.map_eq_some_iff.mp hr
  obtain ⟨hkey, horg, hname, -⟩ := register_of_deserialize hdeserialize
  exact ⟨req, rfl, hkey, horg, hname⟩

theorem request_of_rotateKey
    (hr : (Post.mk "/v1/agents/rotate-key" (.object [("agent_id", .string agent),
      ("new_public_key_hex", .string key), ("nonce", .string nonce), ("issued_at", time),
      ("signature_hex", .string signature)])).request pathParam = some r) :
    ∃ req, r = .rotateKey req ∧ agent = js req.agentId ∧ key = js req.newPublicKeyHex := by
  have hroute : segments "/v1/agents/rotate-key" = ["", "v1", "agents", "rotate-key"] := by
    decide +kernel
  simp only [Post.request, hroute] at hr
  obtain ⟨req, hdeserialize, rfl⟩ := Option.map_eq_some_iff.mp hr
  obtain ⟨hagent, hkey, -⟩ := rotateKey_of_deserialize hdeserialize
  exact ⟨req, rfl, hagent, hkey⟩

/-- The body of a receipt is read as a receipt, whatever path it is posted to. -/
theorem agent_of_receipt {path a : String}
    (hr : (Post.mk path (.object [("recipient_agent_id", .string agent), ("nonce", .string nonce),
      ("issued_at", time), ("signature_hex", .string signature)])).request pathParam = some r)
    (ha : requestAgent r = some a) : agent = js a := by
  have hregister : RegisterRequest.deserialize [("recipient_agent_id", .string agent),
      ("nonce", .string nonce), ("issued_at", time), ("signature_hex", .string signature)] =
      none := by
    simp [RegisterRequest.deserialize, Entries.field, Entries.value]
  have hrotate : RotateKeyRequest.deserialize [("recipient_agent_id", .string agent),
      ("nonce", .string nonce), ("issued_at", time), ("signature_hex", .string signature)] =
      none := by
    simp [RotateKeyRequest.deserialize, Entries.field, Entries.value]
  have hcreate : CreateTransferRequest.deserialize [("recipient_agent_id", .string agent),
      ("nonce", .string nonce), ("issued_at", time), ("signature_hex", .string signature)] =
      none := by
    simp [CreateTransferRequest.deserialize, Entries.field, Entries.value]
  have hreceipt {req} (hreq : RecipientReceiptRequest.deserialize [
      ("recipient_agent_id", .string agent), ("nonce", .string nonce), ("issued_at", time),
      ("signature_hex", .string signature)] = some req) (hid : some req.recipientAgentId = some a) :
      agent = js a := by
    obtain ⟨hagent, -⟩ := receipt_of_deserialize hreq
    rw [hagent, Option.some_inj.mp hid]
  unfold Post.request at hr
  dsimp only at hr
  split at hr
  · simp [hregister] at hr
  · simp [hrotate] at hr
  · simp [hcreate] at hr
  · obtain ⟨_, -, hr⟩ := Option.bind_eq_some_iff.mp hr
    obtain ⟨req, hreq, hsome⟩ := Option.bind_eq_some_iff.mp hr
    cases hsome
    exact hreceipt hreq ha
  · obtain ⟨_, -, hr⟩ := Option.bind_eq_some_iff.mp hr
    obtain ⟨req, hreq, hsome⟩ := Option.bind_eq_some_iff.mp hr
    cases hsome
    exact hreceipt hreq ha
  · obtain ⟨_, -, hr⟩ := Option.bind_eq_some_iff.mp hr
    obtain ⟨req, hreq, hsome⟩ := Option.bind_eq_some_iff.mp hr
    cases hsome
    exact hreceipt hreq ha
  · obtain ⟨req, hreq, rfl⟩ := Option.map_eq_some_iff.mp hr
    exact hreceipt hreq ha
  · cases hr

theorem python_receipt_agent {crypto : Crypto} {identity : Python.Identity} {entropy : Bytes}
    {issuedAt : ℤ} {path transferId action a : String} {ex : Exchange}
    (h : Python.postReceipt crypto identity entropy issuedAt path transferId action = .ok ex)
    (hr : ex.post.request pathParam = some r) (ha : requestAgent r = some a) :
    js (identity.agentId crypto) = js a := by
  obtain ⟨canonical, -, hex⟩ := except_bind_eq_ok.mp h
  cases hex
  exact agent_of_receipt hr ha

theorem js_receipt_agent {crypto : Crypto} {identity : TypeScript.Identity} {entropy : Bytes}
    {issuedAt : TypeScript.JsNumber} {path transferId : JsString} {action a : String} {ex : Exchange}
    (h : TypeScript.postReceipt crypto identity entropy issuedAt path transferId action = .ok ex)
    (hr : ex.post.request pathParam = some r) (ha : requestAgent r = some a) :
    identity.agentId crypto = js a := by
  obtain ⟨canonical, -, hex⟩ := except_bind_eq_ok.mp h
  cases hex
  exact agent_of_receipt hr ha

/-- Whatever a client asks for, it names the id of its identity. -/
theorem Client.agent_named {crypto : Crypto} {entropy : Bytes} {client : Client} {ex : Exchange}
    {a : String} (hrequest : client.request crypto entropy = some ex)
    (hr : ex.post.request pathParam = some r) (ha : requestAgent r = some a) :
    (client.signer crypto).agentId = js a := by
  cases client with
  | python identity issuedAt op =>
    have h := eq_ok_of_toOption hrequest
    cases op with
    | register => exact (python_register h hr).agent a ha
    | rotateKey newIdentity => exact (python_rotateKey h hr).agent a ha
    | send intent data file => exact ((python_send h).rebuilds hr).agent a ha
    | sendViaTunnel intent declaredSize tunnelUrl =>
      exact ((python_sendViaTunnel h).rebuilds hr).agent a ha
    | sendViaTransports intent declaredSize endpoints =>
      exact ((python_sendViaTransports h).rebuilds hr).agent a ha
    | download x => exact python_receipt_agent h hr ha
    | ack x => exact python_receipt_agent h hr ha
    | requestTicket x => exact python_receipt_agent h hr ha
    | inbox => exact python_receipt_agent h hr ha
  | typescript identity issuedAt op =>
    have h := eq_ok_of_toOption hrequest
    cases op with
    | register => exact (typescript_register h hr).agent a ha
    | rotateKey newIdentity => exact (typescript_rotateKey h hr).agent a ha
    | send recipient data declaredMime filename =>
      exact ((typescript_send h).rebuilds hr).agent a ha
    | sendViaTunnel intent declaredSize tunnelUrl =>
      exact ((typescript_sendViaTunnel h).rebuilds hr).agent a ha
    | sendViaTransports intent declaredSize endpoints =>
      exact ((typescript_sendViaTransports h).rebuilds hr).agent a ha
    | download x => exact js_receipt_agent h hr ha
    | ack x => exact js_receipt_agent h hr ha
    | requestTicket x => exact js_receipt_agent h hr ha
    | inbox => exact js_receipt_agent h hr ha

/-! What the Python client posts is read as the request that has the same fields. -/

theorem readString_str (s : String) : Document.readString (Python.str s) = some s :=
  Utf16.toText_encode s

theorem readI64_toInt (t : Int64) : Document.readI64 (.integer t.toInt) = some t := by
  have hge := Int64.le_toInt t
  have hlt := Int64.toInt_lt t
  rw [Document.readI64, Document.readInt, if_pos (by omega), Int64.ofInt_toInt]

variable {crypto : Crypto} {entropy bytes : Bytes} {identity newIdentity : Python.Identity}

theorem python_register_read (req : RegisterRequest)
    (hkey : identity.publicKeyHex = req.publicKeyHex) (horg : identity.org = req.org)
    (hname : identity.name = req.name) (hnonce : hexEncode entropy = req.nonce)
    (hbytes : (Wire.Message.registrationChallengeBytes req.publicKeyHex req.org req.name req.nonce
      req.issuedAt).encode = .ok bytes)
    (hsignature : hexEncode (identity.sign crypto bytes) = req.signatureHex) :
    (((Client.python identity req.issuedAt.toInt .register).request crypto entropy).bind fun ex =>
      ex.post.request pathParam) = some (.register req) := by
  have hroute : segments "/v1/agents/register" = ["", "v1", "agents", "register"] := by
    decide +kernel
  have hchallenge := (python_agrees (m := .registrationChallengeBytes _ _ _ _ _) rfl).eq_ok hbytes
  have hposted : Python.register crypto identity entropy req.issuedAt.toInt =
      .ok ⟨⟨"/v1/agents/register", .object [("public_key_hex", Python.str req.publicKeyHex),
        ("org", Python.str req.org), ("name", Python.str req.name), ("nonce", Python.str req.nonce),
        ("issued_at", .integer req.issuedAt.toInt),
        ("signature_hex", Python.str req.signatureHex)]⟩, bytes⟩ := by
    rw [← hkey, ← horg, ← hname, ← hnonce] at hchallenge
    rw [← hsignature, ← hkey, ← horg, ← hname, ← hnonce]
    exact except_bind_eq_ok.mpr ⟨bytes, hchallenge, rfl⟩
  simp only [Client.request, Python.Operation.request, hposted, Except.toOption, Option.bind_some,
    Post.request, hroute]
  simp [RegisterRequest.deserialize, Entries.field, Entries.value, readString_str, readI64_toInt]

theorem python_rotateKey_read (req : RotateKeyRequest)
    (hagent : identity.agentId crypto = req.agentId)
    (hkey : newIdentity.publicKeyHex = req.newPublicKeyHex)
    (hlabels : newIdentity.org = identity.org ∧ newIdentity.name = identity.name)
    (hfresh : newIdentity.publicKeyHex ≠ identity.publicKeyHex)
    (hnonce : hexEncode entropy = req.nonce)
    (hbytes : (Wire.Message.rotateKeyChallengeBytes req.agentId identity.publicKeyHex
      req.newPublicKeyHex req.nonce req.issuedAt).encode = .ok bytes)
    (hsignature : hexEncode (identity.sign crypto bytes) = req.signatureHex) :
    (((Client.python identity req.issuedAt.toInt (.rotateKey newIdentity)).request crypto
      entropy).bind fun ex => ex.post.request pathParam) = some (.rotateKey req) := by
  have hroute : segments "/v1/agents/rotate-key" = ["", "v1", "agents", "rotate-key"] := by
    decide +kernel
  have hchallenge := (python_agrees (m := .rotateKeyChallengeBytes _ _ _ _ _) rfl).eq_ok hbytes
  have hposted : Python.rotateKey crypto identity entropy req.issuedAt.toInt newIdentity =
      .ok ⟨⟨"/v1/agents/rotate-key", .object [("agent_id", Python.str req.agentId),
        ("new_public_key_hex", Python.str req.newPublicKeyHex), ("nonce", Python.str req.nonce),
        ("issued_at", .integer req.issuedAt.toInt),
        ("signature_hex", Python.str req.signatureHex)]⟩, bytes⟩ := by
    unfold Python.rotateKey
    rw [if_neg (by simp [hlabels]), if_neg hfresh]
    rw [← hagent, ← hkey, ← hnonce] at hchallenge
    rw [← hsignature, ← hagent, ← hkey, ← hnonce]
    exact except_bind_eq_ok.mpr ⟨bytes, hchallenge, rfl⟩
  simp only [Client.request, Python.Operation.request, hposted, Except.toOption, Option.bind_some,
    Post.request, hroute]
  simp [RotateKeyRequest.deserialize, Entries.field, Entries.value, readString_str, readI64_toInt]

end Requests

namespace Client

variable {crypto : Crypto} {pathParam : String → Option String} {org name : String}
  {secret next entropy : Bytes} {client : Client} {ex : Exchange} {r : Request}

theorem Registers.request (h : client.Registers) (hholds : client.Holds crypto org name secret)
    (hrequest : client.request crypto entropy = some ex)
    (hr : ex.post.request pathParam = some r) :
    ∃ req, r = .register req ∧ req.publicKeyHex = hexEncode (crypto.publicKey secret) ∧
      req.org = org ∧ req.name = name := by
  cases client with
  | python identity issuedAt op =>
    cases op with
    | register =>
      obtain ⟨-, -, -, rfl⟩ := python_fromSecret_eq_ok hholds
      obtain ⟨challenge, -, hex⟩ := except_bind_eq_ok.mp (eq_ok_of_toOption hrequest)
      cases hex
      obtain ⟨req, hreq, hkey, horg, hname⟩ := request_of_register hr
      exact ⟨req, hreq, (eq_of_js_eq hkey).symm, (eq_of_js_eq horg).symm, (eq_of_js_eq hname).symm⟩
    | _ => exact h.elim
  | typescript identity issuedAt op =>
    cases op with
    | register =>
      obtain ⟨-, -, -, rfl⟩ := js_fromSecret_eq_ok hholds
      obtain ⟨challenge, -, hex⟩ := except_bind_eq_ok.mp (eq_ok_of_toOption hrequest)
      cases hex
      obtain ⟨req, hreq, hkey, horg, hname⟩ := request_of_register hr
      exact ⟨req, hreq, (eq_of_js_eq hkey).symm, (eq_of_js_eq horg).symm, (eq_of_js_eq hname).symm⟩
    | _ => exact h.elim

theorem RotatesTo.request (h : client.RotatesTo crypto org name next)
    (hrequest : client.request crypto entropy = some ex)
    (hr : ex.post.request pathParam = some r) :
    ∃ req, r = .rotateKey req ∧ req.newPublicKeyHex = hexEncode (crypto.publicKey next) := by
  cases client with
  | python identity issuedAt op =>
    cases op with
    | rotateKey newIdentity =>
      obtain ⟨-, -, -, rfl⟩ := python_fromSecret_eq_ok h
      have hok := eq_ok_of_toOption hrequest
      simp only [Python.Operation.request, Python.rotateKey] at hok
      obtain ⟨challenge, -, hex⟩ := except_bind_eq_ok.mp (throwIf_eq_ok (throwIf_eq_ok hok))
      cases hex
      obtain ⟨req, hreq, -, hkey⟩ := request_of_rotateKey hr
      exact ⟨req, hreq, (eq_of_js_eq hkey).symm⟩
    | _ => exact h.elim
  | typescript identity issuedAt op =>
    cases op with
    | rotateKey newIdentity =>
      obtain ⟨-, -, -, rfl⟩ := js_fromSecret_eq_ok h
      have hok := eq_ok_of_toOption hrequest
      simp only [TypeScript.Operation.request, TypeScript.rotateKey] at hok
      obtain ⟨challenge, -, hex⟩ := except_bind_eq_ok.mp (throwIf_eq_ok (throwIf_eq_ok hok))
      cases hex
      obtain ⟨req, hreq, -, hkey⟩ := request_of_rotateKey hr
      exact ⟨req, hreq, (eq_of_js_eq hkey).symm⟩
    | _ => exact h.elim

end Client

/-! ## Chains of rotations -/

section Chains

variable (crypto : Crypto) (pathParam : String → Option String) (org name : String) (w : World)

/-- The client's request was answered without an error, and added a key to the ledger of the
agent. -/
def Accepted (client : Client) (agentId : String) : Prop :=
  ∃ (entropy : Bytes) (ex : Exchange) (r : Request) (e : Entry effects State Request)
    (response : Response),
    client.request crypto entropy = some ex ∧ ex.post.request pathParam = some r ∧ e ∈ w.trace ∧
      e.request = r ∧ w.outcome e.task = some (.ok response) ∧
      ∃ hex key, addedKey e.event = some (agentId, hex, key)

/-- The agent was registered through an SDK, and every further key came in through an accepted
`rotate_key` by a client with the key before: the last two keys, and the agent whose ledger the
last call wrote. -/
inductive Chain : Bytes → Bytes → String → Prop
  | registered {client : Client} {secret : Bytes} {agentId : String} :
    client.Holds crypto org name secret → client.Registers →
    Accepted crypto pathParam w client agentId → Chain secret secret agentId
  | rotated {client : Client} {previous secret next : Bytes} {agentId nextId : String} :
    Chain previous secret agentId → client.Holds crypto org name secret →
    client.RotatesTo crypto org name next → Accepted crypto pathParam w client nextId →
    Chain secret next nextId

end Chains

/-- The request names the agent, and the current key of that agent is the given one. -/
def NamesCurrent (db : Db) (agentId : String) (key : Bytes) (named : String) : Prop :=
  named = agentId ∧ ∃ row, db.currentKey named = some row ∧ row.publicKeyHex = hexEncode key ∧
    row.publicKey = key

section Rotation

variable {env : Env} {crypto : Crypto} {pathParam : String → Option String} {org name : String}
  {labels : List Label}

theorem added_of_register {req : RegisterRequest} {event : Library.Event effects}
    {agentId hex : String} {key : Bytes} (hwrites : WritesOwn env (.register req) event.op)
    (hadded : addedKey event = some (agentId, hex, key)) :
    agentId = nativeText req.org req.name (hexEncode ((env.sha256 key).take 3)) ∧
      hex = hexEncode key ∧ hexDecode req.publicKeyHex = .ok key := by
  unfold addedKey at hadded
  split at hadded
  · cases hadded
    obtain ⟨req', hreq, hdecode, -, hfingerprint, hid, -⟩ := hwrites
    cases hreq
    rw [hfingerprint] at hid
    exact ⟨hid, rfl, hdecode⟩
  · obtain ⟨req', hreq, -⟩ := hwrites
    cases hreq
  · cases hadded

theorem added_of_rotateKey {req : RotateKeyRequest} {event : Library.Event effects}
    {agentId hex : String} {key : Bytes} (hwrites : WritesOwn env (.rotateKey req) event.op)
    (hadded : addedKey event = some (agentId, hex, key)) :
    agentId = req.agentId ∧ hex = req.newPublicKeyHex ∧
      hexDecode req.newPublicKeyHex = .ok key := by
  unfold addedKey at hadded
  split at hadded
  · obtain ⟨req', hreq, -⟩ := hwrites
    cases hreq
  · cases hadded
    obtain ⟨req', hreq, hid, hhex, hdecode, -⟩ := hwrites
    cases hreq
    exact ⟨hid, hhex, hdecode⟩
  · cases hadded

/-- The last call wrote the newest key to the ledger of the agent that the key before makes. -/
theorem Chain.last (hsha : env.sha256 = crypto.sha256) {previous secret : Bytes} {agentId : String}
    (h : Chain crypto pathParam org name (run env labels) previous secret agentId) :
    agentId = nativeText org name (fingerprintOf crypto previous) ∧
      ∃ e ∈ (run env labels).trace, addedKey e.event =
        some (agentId, hexEncode (crypto.publicKey secret), crypto.publicKey secret) := by
  cases h with
  | registered hholds hregisters haccepted =>
    obtain ⟨entropy, ex, r, e, response, hrequest, hr, he, hreq, -, hex, key, hadded⟩ := haccepted
    obtain ⟨req, rfl, hhex, rfl, rfl⟩ := hregisters.request hholds hrequest hr
    have hwrites := writesOwn_of_mem he
    rw [hreq] at hwrites
    obtain ⟨hid, rfl, hdecode⟩ := added_of_register hwrites hadded
    rw [hhex, hexDecode_hexEncode] at hdecode
    cases hdecode
    rw [hsha] at hid
    exact ⟨hid, e, he, hadded⟩
  | rotated hchain hholds hrotates haccepted =>
    obtain ⟨entropy, ex, r, e, response, hrequest, hr, he, hreq, -, hex, key, hadded⟩ := haccepted
    obtain ⟨req, rfl, hhex⟩ := hrotates.request hrequest hr
    have hwrites := writesOwn_of_mem he
    rw [hreq] at hwrites
    obtain ⟨rfl, rfl, hdecode⟩ := added_of_rotateKey hwrites hadded
    rw [hhex, hexDecode_hexEncode] at hdecode
    cases hdecode
    rw [hhex] at hadded
    have hnamed := Client.agent_named hrequest hr rfl
    rw [hholds.agentId] at hnamed
    exact ⟨(eq_of_js_eq hnamed).symm, e, he, hadded⟩

/-- After any chain of accepted rotations, what a client with the newest key asks for names the
agent whose ledger has that key as its current one, exactly if the newest key has the fingerprint
of the key before. -/
theorem rotation_keeps_agent_iff (hsha : env.sha256 = crypto.sha256) {previous secret : Bytes}
    {agentId : String} (hchain : Chain crypto pathParam org name (run env labels) previous secret
      agentId)
    (hnewest : ∀ e ∈ (run env labels).trace,
      replacedKey e.event ≠ some (agentId, hexEncode (crypto.publicKey secret)))
    {client : Client} (hholds : client.Holds crypto org name secret) {entropy : Bytes}
    {ex : Exchange} (hrequest : client.request crypto entropy = some ex) {r : Request}
    (hr : ex.post.request pathParam = some r) {named : String}
    (hnamed : requestAgent r = some named) :
    NamesCurrent (run env labels).shared.db agentId (crypto.publicKey secret) named ↔
      fingerprintOf crypto secret = fingerprintOf crypto previous := by
  obtain ⟨hid, e, he, hadded⟩ := hchain.last hsha
  have hown : nativeText org name (fingerprintOf crypto secret) = named := by
    have hagent := Client.agent_named hrequest hr hnamed
    rw [hholds.agentId] at hagent
    exact eq_of_js_eq hagent
  constructor
  · intro h
    obtain ⟨horg, hname⟩ := hholds.labels
    have hsame := hown.trans (h.1.trans hid)
    exact (nativeText_inj horg hname horg hname hsame).2.2
  · intro h
    rw [h, ← hid] at hown
    rw [← hown]
    have hheld := run_keysKept env labels e he _ _ _ hadded hnewest
    exact ⟨rfl, hheld.currentKey (run_keyLedger env labels)⟩

end Rotation

namespace Sample

open Wire (Message)
open ControlPlane.Sample (alice aliceKeyHex nonce time registerAlice rotateAlice rotation clockAt serve)

/-- The deployment, with the digest of the key that is rotated to. -/
def rotationEnv : Env := { ControlPlane.Sample.env with sha256 := crypto.sha256 }

theorem rotationEnv_eq : rotationEnv =
    { ControlPlane.Sample.knowing ControlPlane.Sample.signatures with sha256 := crypto.sha256 } := by
  rw [rotationEnv, ControlPlane.Sample.env_eq]

/-- Alice's identity with one of the secrets. -/
def aliceWith (b : UInt8) : Python.Identity :=
  ⟨"acme", "alice", List.replicate 32 b, crypto.publicKey (List.replicate 32 b)⟩

theorem holds_alice (b : UInt8) (issuedAt : ℤ) (op : Python.Operation) :
    (Client.python (aliceWith b) issuedAt op).Holds crypto "acme" "alice" (List.replicate 32 b) :=
  (python_agentId ⟨by decide, by decide, List.all_eq_true.mp (by decide)⟩
    ⟨by decide, by decide, List.all_eq_true.mp (by decide)⟩ (by simp)).1

/-- Task `i` answered the request without an error, and added a key of the agent. -/
def added (w : World) (i : ℕ) (r : Request) (agentId : String) : Bool :=
  (w.trace.any fun e => e.task = i && e.request = r &&
    (addedKey e.event).map Prod.fst = some agentId) &&
    ((w.outcome i).bind Except.toOption).isSome

theorem accepted {w : World} {client : Client} {entropy : Bytes} {r : Request} {i : ℕ}
    {agentId : String}
    (hr : ((client.request crypto entropy).bind fun ex => ex.post.request some) = some r)
    (hadded : added w i r agentId = true) : Accepted crypto some w client agentId := by
  obtain ⟨ex, hex, hr⟩ := Option.bind_eq_some_iff.mp hr
  obtain ⟨htrace, hout⟩ := Bool.and_eq_true_iff.mp hadded
  obtain ⟨e, hmem, hentry⟩ := List.any_eq_true.mp htrace
  simp only [Bool.and_eq_true, decide_eq_true_eq] at hentry
  obtain ⟨⟨rfl, rfl⟩, hagent⟩ := hentry
  obtain ⟨⟨_, hex', key⟩, hkey, rfl⟩ := Option.map_eq_some_iff.mp hagent
  obtain ⟨response, hresponse⟩ := Option.isSome_iff_exists.mp hout
  obtain ⟨out, hout, hok⟩ := Option.bind_eq_some_iff.mp hresponse
  rw [eq_ok_of_toOption hok] at hout
  exact ⟨entropy, ex, e.request, e, response, hex, hr, hmem, rfl, hout, hex', key, hkey⟩

theorem register_request :
    (((Client.python (aliceWith 1) 1700000000 .register).request crypto
      (List.replicate 16 0xa1)).bind fun ex => ex.post.request some) =
      some (.register registerAlice) := by
  have hkey : (aliceWith 1).publicKeyHex = aliceKeyHex := by decide +kernel
  have hsigned : (((Message.registrationChallengeBytes aliceKeyHex "acme" "alice" (nonce 0xa1)
      time).encode.toOption).map fun bytes => hexEncode ((aliceWith 1).sign crypto bytes)) =
        some registerAlice.signatureHex := by decide +kernel
  obtain ⟨bytes, hbytes, hsignature⟩ := Option.map_eq_some_iff.mp hsigned
  exact python_register_read registerAlice hkey rfl rfl rfl (eq_ok_of_toOption hbytes)
    hsignature

theorem rotate_request :
    (((Client.python (aliceWith 1) 1700003600 (.rotateKey (aliceWith 3))).request crypto
      (List.replicate 16 0xd1)).bind fun ex => ex.post.request some) =
      some (.rotateKey rotateAlice) := by
  have hagent : (aliceWith 1).agentId crypto = alice := by decide +kernel
  have hold : (aliceWith 1).publicKeyHex = aliceKeyHex := by decide +kernel
  have hnew : (aliceWith 3).publicKeyHex = rotateAlice.newPublicKeyHex := by decide +kernel
  have hsigned : (((Message.rotateKeyChallengeBytes alice aliceKeyHex rotateAlice.newPublicKeyHex
      (nonce 0xd1) (time + 3600)).encode.toOption).map fun bytes =>
        hexEncode ((aliceWith 1).sign crypto bytes)) = some rotateAlice.signatureHex := by
    decide +kernel
  obtain ⟨bytes, hbytes, hsignature⟩ := Option.map_eq_some_iff.mp hsigned
  have hfresh : (aliceWith 3).publicKeyHex ≠ (aliceWith 1).publicKeyHex := by
    rw [hold, hnew]
    decide
  apply python_rotateKey_read rotateAlice hagent hnew ⟨rfl, rfl⟩ hfresh rfl ?_ hsignature
  rw [hold]
  exact eq_ok_of_toOption hbytes

/-- Only the registration. -/
def registration : List ControlPlane.Label :=
  clockAt 1700000000 :: serve 0 (.register registerAlice) 3

/-- The registration replaces no key. Nothing replaces the key of the rotation, and the ledger has
no agent under its fingerprint. -/
theorem keys_added :
    (added (run rotationEnv registration) 0 (.register registerAlice) alice &&
      (run rotationEnv registration).trace.all fun e => replacedKey e.event = none) = true ∧
    (added (run rotationEnv rotation) 0 (.register registerAlice) alice &&
      added (run rotationEnv rotation) 1 (.rotateKey rotateAlice) alice &&
      ((run rotationEnv rotation).trace.all fun e => replacedKey e.event ≠
        some (alice, hexEncode (crypto.publicKey (List.replicate 32 3)))) &&
      ((run rotationEnv rotation).shared.db.currentKey "spize:acme/alice:b62e86").isNone) =
        true := by
  rw [rotationEnv_eq]
  decide +kernel

theorem chain_registration :
    Chain crypto some "acme" "alice" (run rotationEnv registration) (List.replicate 32 1)
      (List.replicate 32 1) alice := by
  obtain ⟨hadded, -⟩ := Bool.and_eq_true_iff.mp keys_added.1
  exact .registered (holds_alice 1 1700000000 .register) trivial (accepted register_request hadded)

theorem chain_rotation :
    Chain crypto some "acme" "alice" (run rotationEnv rotation) (List.replicate 32 1)
      (List.replicate 32 3) alice := by
  obtain ⟨⟨⟨hregistered, hrotated⟩, -⟩, -⟩ := by
    simpa only [Bool.and_eq_true] using keys_added.2
  have hchain : Chain crypto some "acme" "alice" (run rotationEnv rotation) (List.replicate 32 1)
      (List.replicate 32 1) alice :=
    .registered (holds_alice 1 1700000000 .register) trivial (accepted register_request hregistered)
  exact .rotated hchain (holds_alice 1 1700003600 (.rotateKey (aliceWith 3)))
    (holds_alice 3 1700003600 .inbox) (accepted rotate_request hrotated)

end Sample

open Sample ControlPlane.Sample in
theorem rotation_keeps_agent_iff_registration :
    ∃ ex r, (Client.python (aliceWith 1) 1700000000 .inbox).request crypto (List.replicate 16 0xc2) =
        some ex ∧ ex.post.request some = some r ∧ requestAgent r = some alice ∧
      NamesCurrent (run rotationEnv registration).shared.db alice
        (crypto.publicKey (List.replicate 32 1)) alice := by
  have hnamed : (((Client.python (aliceWith 1) 1700000000 .inbox).request crypto
      (List.replicate 16 0xc2)).bind fun ex => ex.post.request some).bind requestAgent =
        some alice := by
    rw [crypto_eq]
    decide +kernel
  obtain ⟨-, hnewest⟩ := Bool.and_eq_true_iff.mp keys_added.1
  obtain ⟨r, hr, hagent⟩ := Option.bind_eq_some_iff.mp hnamed
  obtain ⟨ex, hex, hr⟩ := Option.bind_eq_some_iff.mp hr
  refine ⟨ex, r, hex, hr, hagent, (rotation_keeps_agent_iff rfl chain_registration ?_
    (holds_alice 1 1700000000 .inbox) hex hr hagent).mpr rfl⟩
  intro e he hreplaced
  have hnone := List.all_eq_true.mp hnewest e he
  rw [hreplaced] at hnone
  cases hnone

open Sample ControlPlane.Sample in
/-- After one rotation Alice's client asks for the inbox of an agent that was never registered. -/
theorem rotated_agent_unknown :
    Chain crypto some "acme" "alice" (run rotationEnv rotation) (List.replicate 32 1)
        (List.replicate 32 3) alice ∧
      (∀ e ∈ (run rotationEnv rotation).trace, replacedKey e.event ≠
        some (alice, hexEncode (crypto.publicKey (List.replicate 32 3)))) ∧
      (Client.python (aliceWith 3) 1700003600 .inbox).Holds crypto "acme" "alice"
        (List.replicate 32 3) ∧
      ∃ ex r named, (Client.python (aliceWith 3) 1700003600 .inbox).request crypto
          (List.replicate 16 0xc2) = some ex ∧ ex.post.request some = some r ∧
        requestAgent r = some named ∧
        (run rotationEnv rotation).shared.db.currentKey named = none ∧
        ¬NamesCurrent (run rotationEnv rotation).shared.db alice
          (crypto.publicKey (List.replicate 32 3)) named := by
  have hnamed : (((Client.python (aliceWith 3) 1700003600 .inbox).request crypto
      (List.replicate 16 0xc2)).bind fun ex => ex.post.request some).bind requestAgent =
        some "spize:acme/alice:b62e86" := by
    rw [crypto_eq]
    decide +kernel
  obtain ⟨⟨-, hnewest⟩, hunknown⟩ := by
    simpa only [Bool.and_eq_true] using keys_added.2
  obtain ⟨r, hr, hagent⟩ := Option.bind_eq_some_iff.mp hnamed
  obtain ⟨ex, hex, hr⟩ := Option.bind_eq_some_iff.mp hr
  refine ⟨chain_rotation, fun e he => by simpa using List.all_eq_true.mp hnewest e he,
    holds_alice 3 1700003600 .inbox, ex, r, "spize:acme/alice:b62e86", hex, hr, hagent,
    Option.isNone_iff_eq_none.mp hunknown, ?_⟩
  intro h
  exact absurd h.1 (by decide)

end AgentExchange.Sdk
