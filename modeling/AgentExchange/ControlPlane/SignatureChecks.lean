import AgentExchange.ControlPlane.Handlers

/-!
# What a refused signature was checked against

`Request.challenge` is the message a handler rebuilds from the request, the path and
the ledger before it verifies the signature. A request is refused for its signature
only if the canonical bytes of that message verify under none of the keys the handler
was given.
-/
namespace AgentExchange.ControlPlane

open Library Wire
open Program (lift ensure okOr fails_pure fails_call fails_ensure fails_okOr fails_lift
  fails_lift_mapError)

/-- The texts a signature is refused with. -/
def ApiError.IsSignatureMismatch : ApiError → Prop
  | .unauthorized message => message = "signature does not match challenge" ∨
      message = "signature does not verify against any active key"
  | _ => False

/-- The size `create_transfer` puts into the intent; none where it gives up before. -/
def CreateTransferRequest.size (req : CreateTransferRequest) : Option UInt64 :=
  match req.reachableAt, req.tunnelUrl with
  | none, none =>
    match hexDecode req.blobHex with
    | .ok blob => some (UInt64.ofNat blob.length)
    | .error _ => none
  | _, _ => req.declaredSize

/-- The message the handler rebuilds; `currentHex` is the current key of the ledger, which only a
rotation names. -/
def Request.challenge (currentHex : String) : Request → Option Message
  | .register req => some (.registrationChallengeBytes req.publicKeyHex req.org req.name req.nonce
      req.issuedAt)
  | .rotateKey req => some (.rotateKeyChallengeBytes req.agentId currentHex req.newPublicKeyHex
      req.nonce req.issuedAt)
  | .createTransfer req => req.size.map req.intent
  | r => r.receipt.map Prod.snd

def Request.signatureHex : Request → Option String
  | .register req => some req.signatureHex
  | .rotateKey req => some req.signatureHex
  | .createTransfer req => some req.intentSignatureHex
  | r => r.receipt.map fun p => p.1.signatureHex

/-- The keys the handler checks the signature under. -/
def Request.Consulted (past : History) (currentHex : String) (keys : List Bytes) : Request → Prop
  | .register req => ∃ key, hexDecode req.publicKeyHex = .ok key ∧ keys = [key]
  | .rotateKey req => ∃ current, Saw past (.currentKey req.agentId) (.ok (some current)) ∧
      current.publicKeyHex = currentHex ∧ keys = [current.publicKey]
  | _ => ∃ agentId now rows, Saw past (.validKeysAt agentId now) (.ok rows) ∧
      keys = rows.map (·.publicKey)

/-- The rebuilt message verifies under none of the keys. -/
structure Refuted (env : Env) (r : Request) (past : History) (currentHex : String)
    (keys : List Bytes) (message : Message) (canonical signature : Bytes) : Prop where
  consulted : r.Consulted past currentHex keys
  challenge : r.challenge currentHex = some message
  encoded : message.encode = .ok canonical
  decoded : ∃ hex, r.signatureHex = some hex ∧ hexDecode hex = .ok signature
  refuted : ∀ key ∈ keys, keyVerifies env canonical signature key = false

/-- A refusal for the signature stands for a check that failed. -/
def Blames (env : Env) (r : Request) {α : Type} (past : History) (result : Except ApiError α) :
    Prop :=
  ∀ e, result = .error e → e.IsSignatureMismatch →
    ∃ currentHex keys message canonical signature,
      Refuted env r past currentHex keys message canonical signature

/-- An error that is not about the signature. -/
abbrev ApiError.Other (e : ApiError) : Prop := ¬e.IsSignatureMismatch

section Errors

theorem other_badRequest (message : String) : (ApiError.badRequest message).Other := id

theorem other_conflict (message : String) : (ApiError.conflict message).Other := id

theorem other_notFound (message : String) : (ApiError.notFound message).Other := id

theorem other_internal (message : String) : (ApiError.internal message).Other := id

theorem other_unauthorized {message : String} (h : message ≠ "signature does not match challenge")
    (h' : message ≠ "signature does not verify against any active key") :
    (ApiError.unauthorized message).Other := fun hm => hm.elim h h'

theorem other_ofSqlx (e : SqlxError) : (ApiError.ofSqlx e).Other := by
  cases e <;> exact id

theorem other_ofCore (e : Error) : (ApiError.ofCore e).Other := by
  cases e with
  | signatureInvalid => exact other_unauthorized (by decide) (by decide)
  | _ => exact id

theorem validateLabel_other {s field : String} {e : ApiError}
    (h : validateLabel s field = .error e) : e.Other := by
  unfold validateLabel at h
  split_ifs at h <;> cases h <;> exact id

theorem decodeHexExact_other {s field : String} {n : ℕ} {e : ApiError}
    (h : decodeHexExact s n field = .error e) : e.Other := by
  unfold decodeHexExact at h
  split at h
  · cases h; exact id
  · split_ifs at h
    cases h
    exact id

theorem orSqlx_fails {α : Type} (x : Except SqlxError α) : (orSqlx x).Fails ApiError.Other :=
  fails_lift_mapError x other_ofSqlx

theorem orCore_fails {α : Type} (x : Except Error α) : (orCore x).Fails ApiError.Other :=
  fails_lift_mapError x other_ofCore

theorem checkNonce_fails (nonce message : String) :
    (checkNonce nonce message).Fails ApiError.Other :=
  .bind (fails_ensure _ (other_badRequest _)) fun _ => fails_ensure _ (other_badRequest _)

theorem checkSkew_fails (issuedAt : Int64) (message : String) :
    (checkSkew issuedAt message).Fails ApiError.Other :=
  .bind (fails_call _) fun _ => .bind (fails_ensure _ (other_badRequest _)) fun _ => fails_pure

theorem auditWarn_fails (event : Audit.Event) : (auditWarn event).Fails ApiError.Other :=
  .bind (fails_call _) fun _ => fails_pure

theorem insertRow_fails (t : InsertTransfer) : (insertRow t).Fails ApiError.Other :=
  .bind (fails_call _) fun _ => orSqlx_fails _

theorem healthzAttempts_fails (tunnelUrl : String) (n : ℕ) (lastErr : String) :
    (healthzAttempts tunnelUrl n lastErr).Fails ApiError.Other := by
  induction n generalizing lastErr with
  | zero => exact other_badRequest _
  | succ n ih =>
    unfold healthzAttempts
    refine .bind (fails_call _) fun answer => ?_
    split
    · trivial
    all_goals exact ih _

theorem checkTunnel_fails (env : Env) (tunnelUrl : String) :
    (checkTunnel env tunnelUrl).Fails ApiError.Other := by
  unfold checkTunnel
  split_ifs
  · trivial
  · refine .bind (fails_call _) fun client => ?_
    exact .bind (fails_lift_mapError _ fun _ => other_internal _) fun _ =>
      healthzAttempts_fails tunnelUrl 6 ""

theorem probeEndpoint_fails (ep : Endpoint) : (probeEndpoint ep).Fails ApiError.Other := by
  unfold probeEndpoint
  refine .bind (fails_call _) fun budgetLeft => ?_
  split_ifs
  · trivial
  · exact .bind (fails_call _) fun _ => trivial
  · trivial
  · trivial

theorem validateAll_fails (endpoints : List Endpoint) :
    (validateAll endpoints).Fails ApiError.Other := by
  induction endpoints with
  | nil => trivial
  | cons ep rest ih =>
    exact .bind (probeEndpoint_fails ep) fun _ => .bind ih fun _ => fails_pure

end Errors

section Rules

variable {env : Env} {r : Request} {α β : Type} {past : History}

theorem blames_ok {a : α} : Blames env r past (.ok a) := nofun

theorem blames_other {e : ApiError} (h : e.Other) :
    Blames env r past (.error e : Except ApiError α) := by
  intro e' he hm
  cases he
  exact absurd hm h

theorem spec_of_fails {p : Prog α} (h : p.Fails ApiError.Other) :
    p.Spec (fun _ _ => True) (Blames env r) past :=
  h.spec (fun _ _ => blames_other) fun _ _ => blames_ok

theorem spec_fails_bind {p : Prog β} {f : β → Prog α} (h : p.Fails ApiError.Other)
    (hok : ∀ past b, (f b).Spec (fun _ _ => True) (Blames env r) past) :
    (p >>= f).Spec (fun _ _ => True) (Blames env r) past :=
  h.spec_bind (fun _ _ => blames_other) hok

theorem spec_bind_fails {p : Prog β} {f : β → Prog α}
    (h : p.Spec (fun _ _ => True) (Blames env r) past) (hf : ∀ b, (f b).Fails ApiError.Other) :
    (p >>= f).Spec (fun _ _ => True) (Blames env r) past := by
  rw [Program.spec_bind]
  refine h.mono (fun _ _ => id) fun past' result hblames => ?_
  cases result with
  | ok b => exact spec_of_fails (hf b)
  | error e =>
    intro e' he
    cases he
    exact hblames e rfl

/-- The `?` on a result that the rest of the handler uses. -/
theorem spec_result_bind {ε : Type} {x : Except ε β} {g : ε → ApiError} {f : β → Prog α}
    (h : ∀ e, (g e).Other)
    (hok : ∀ b, x = .ok b → (f b).Spec (fun _ _ => True) (Blames env r) past) :
    (lift (x.mapError g) >>= f : Prog α).Spec (fun _ _ => True) (Blames env r) past := by
  cases x with
  | error e => exact blames_other (h e)
  | ok b => exact hok b rfl

/-- The signature check of every request that names its agent. -/
theorem spec_valid_keys_bind {agentId : String} {at_ : Timestamp} {canonical signature : Bytes}
    {message : Message} {f : Unit → Prog α} {hex : String}
    (hconsulted : ∀ past rows, Saw past (.validKeysAt agentId at_) (.ok rows) →
      r.Consulted past "" (rows.map (·.publicKey)))
    (hchallenge : r.challenge "" = some message) (hcanonical : message.encode = .ok canonical)
    (hhex : r.signatureHex = some hex) (hsignature : hexDecode hex = .ok signature)
    (hf : ∀ u, (f u).Fails ApiError.Other) :
    (verifyWithValidKeys env agentId at_ canonical signature >>= f).Spec (fun _ _ => True)
      (Blames env r) past := by
  rw [Program.spec_bind]
  unfold verifyWithValidKeys
  rw [Program.spec_ensure_bind]
  refine ⟨fun _ => ⟨trivial, fun answer => ?_⟩, fun _ => blames_other (other_badRequest _)⟩
  cases answer with
  | error e => exact blames_other (other_ofSqlx e)
  | ok rows =>
    change (ensure (rows ≠ []) _ >>= fun _ => ensure _ _ : Prog Unit).Spec _ _ _
    rw [Program.spec_ensure_bind]
    refine ⟨fun _ => ?_, fun _ => blames_other (other_unauthorized (by decide) (by decide))⟩
    rw [Program.spec_ensure]
    refine ⟨fun _ => spec_of_fails (hf ()), fun hany => ?_⟩
    intro e _ _
    refine ⟨"", rows.map (·.publicKey), message, canonical, signature,
      ⟨hconsulted _ rows (saw_snoc _ _ _), hchallenge, hcanonical, ⟨hex, hhex, hsignature⟩, ?_⟩⟩
    simpa using hany

end Rules

section Agents

variable {env : Env} {past : History}

theorem keyVerifies_false {canonical signature key : Bytes}
    (h : ¬env.verify key canonical signature = true) :
    keyVerifies env canonical signature key = false := by
  unfold keyVerifies
  cases env.verifyingKey key <;> simp [h]

theorem register_blames (req : RegisterRequest) :
    (register env req).Spec (fun _ _ => True) (Blames env (.register req)) past := by
  unfold register
  refine spec_fails_bind (fails_lift fun _ => validateLabel_other) fun past _ => ?_
  refine spec_fails_bind (fails_lift fun _ => validateLabel_other) fun past _ => ?_
  refine spec_fails_bind (checkNonce_fails _ _) fun past _ => ?_
  rw [Program.spec_lift_bind]
  refine ⟨fun publicKey hkey => ?_, fun e he => blames_other (decodeHexExact_other he)⟩
  rw [Program.spec_lift_bind]
  refine ⟨fun signature hsignature => ?_, fun e he => blames_other (decodeHexExact_other he)⟩
  refine spec_fails_bind (checkSkew_fails _ _) fun past _ => ?_
  refine spec_result_bind (fun _ => other_badRequest _) fun challenge hchallenge => ?_
  refine spec_fails_bind (fails_lift_mapError _ fun _ => other_badRequest _) fun past _ => ?_
  rw [Program.spec_ensure_bind]
  refine ⟨fun _ => spec_of_fails ?_, fun hverify => ?_⟩
  · refine .bind (fails_call _) fun fresh => .bind (orSqlx_fails _) fun fresh => ?_
    refine .bind (fails_ensure _ (other_conflict _)) fun _ => .bind (fails_call _) fun inserted => ?_
    refine .bind (fails_lift_mapError _ fun e => ?_) fun _ => fails_pure
    unfold registerConflict
    split
    · exact other_conflict _
    · exact other_ofSqlx e
  · intro e _ _
    refine ⟨"", [publicKey], _, challenge, signature,
      ⟨⟨publicKey, hexDecode_of_decodeHexExact hkey, rfl⟩, rfl, hchallenge,
        ⟨_, rfl, hexDecode_of_decodeHexExact hsignature⟩, ?_⟩⟩
    simpa using keyVerifies_false hverify

theorem rotateKey_blames (req : RotateKeyRequest) :
    (rotateKey env req).Spec (fun _ _ => True) (Blames env (.rotateKey req)) past := by
  unfold rotateKey
  refine spec_result_bind other_ofCore fun agent hagent => ?_
  obtain rfl := AgentId.eq_of_new hagent
  refine spec_fails_bind (checkNonce_fails _ _) fun past _ => ?_
  refine spec_fails_bind (fails_lift fun _ => decodeHexExact_other) fun past newPublicKey => ?_
  rw [Program.spec_lift_bind]
  refine ⟨fun signature hsignature => ?_, fun e he => blames_other (decodeHexExact_other he)⟩
  refine spec_fails_bind (checkSkew_fails _ _) fun past _ => ⟨trivial, fun answer => ?_⟩
  refine spec_result_bind other_ofSqlx fun found hfound => ?_
  subst hfound
  rw [Program.spec_okOr_bind]
  refine ⟨fun current hcurrent => ?_, fun _ => blames_other (other_notFound _)⟩
  subst hcurrent
  rw [Program.spec_ensure_bind]
  refine ⟨fun _ => ?_, fun _ => blames_other (other_badRequest _)⟩
  refine spec_result_bind (fun _ => other_badRequest _) fun challenge hchallenge => ?_
  rw [Program.spec_ensure_bind]
  refine ⟨fun _ => ?_, fun _ => blames_other (other_internal _)⟩
  refine spec_result_bind other_internal fun _ _ => ?_
  rw [Program.spec_ensure_bind]
  refine ⟨fun _ => spec_of_fails ?_, fun hverify => ?_⟩
  · refine .bind (fails_lift_mapError _ fun _ => other_badRequest _) fun _ => ?_
    refine .bind (fails_call _) fun fresh => .bind (orSqlx_fails _) fun fresh => ?_
    refine .bind (fails_ensure _ (other_conflict _)) fun _ => .bind (fails_call _) fun now => ?_
    refine .bind (fails_call _) fun inserted => ?_
    refine .bind (fails_lift_mapError _ fun e => ?_) fun _ => fails_pure
    unfold rotationConflict
    split
    · exact other_conflict _
    · split
      · exact other_conflict _
      · exact other_ofSqlx _
  · intro e _ _
    refine ⟨current.publicKeyHex, [current.publicKey], _, challenge, signature,
      ⟨⟨current, saw_snoc _ _ _, rfl, rfl⟩, rfl, hchallenge,
        ⟨_, rfl, hexDecode_of_decodeHexExact hsignature⟩, ?_⟩⟩
    simpa using keyVerifies_false hverify

end Agents

section Transfers

variable {env : Env} {past : History}

theorem persistRejected_fails (transferId : String) (sender : AgentId) (req : CreateTransferRequest)
    (recipientKind : RecipientKind) (sizeBytes : UInt64) (verdict : Option PipelineVerdict)
    (policyDecision : PolicyDecision) (code reason : String) :
    (persistRejected transferId sender req recipientKind sizeBytes verdict policyDecision code
      reason).Fails ApiError.Other :=
  .bind (insertRow_fails _) fun _ => .bind (auditWarn_fails _) fun _ => fails_pure

/-- The two branches without a blob check the intent over the declared size. -/
theorem admitDeclared_blames {req : CreateTransferRequest} {declaredSize : UInt64}
    (hsize : req.size = some declaredSize) :
    (admitDeclared env req ⟨req.senderAgentId⟩ declaredSize).Spec (fun _ _ => True)
      (Blames env (.createTransfer req)) past := by
  have hchallenge : (Request.createTransfer req).challenge "" = some (req.intent declaredSize) := by
    simp [Request.challenge, hsize]
  unfold admitDeclared
  refine spec_result_bind (fun _ => other_badRequest _) fun canonical hcanonical => ?_
  refine spec_result_bind (fun _ => other_badRequest _) fun signature hsignature => ?_
  refine ⟨trivial, fun now => ?_⟩
  refine spec_valid_keys_bind (fun past rows hrows => ⟨_, _, rows, hrows, rfl⟩) hchallenge
    hcanonical rfl hsignature fun _ => ?_
  refine .bind (fails_call _) fun consumed => ?_
  refine .bind (fails_lift_mapError _ fun e => ?_) fun _ => fails_pure
  unfold intentConflict
  split
  · split_ifs
    · exact other_conflict _
    · exact other_ofSqlx _
  · exact other_ofSqlx _

theorem createReachable_blames {req : CreateTransferRequest} {endpoints : List Endpoint}
    (hreq : req.reachableAt = some endpoints) :
    (createReachable env req ⟨req.senderAgentId⟩ endpoints).Spec (fun _ _ => True)
      (Blames env (.createTransfer req)) past := by
  unfold createReachable
  refine spec_fails_bind (fails_ensure _ (other_badRequest _)) fun past _ => ?_
  refine spec_fails_bind (fails_ensure _ (other_badRequest _)) fun past _ => ?_
  refine spec_fails_bind (fails_ensure _ (other_badRequest _)) fun past _ => ?_
  rw [Program.spec_okOr_bind]
  refine ⟨fun declaredSize hsize => ?_, fun _ => blames_other (other_badRequest _)⟩
  refine spec_fails_bind (validateAll_fails endpoints) fun past results => ?_
  refine spec_fails_bind (fails_ensure _ (other_badRequest _)) fun past _ => ?_
  refine spec_bind_fails (admitDeclared_blames ?_) fun _ => ?_
  · simp [CreateTransferRequest.size, hreq, hsize]
  · exact .bind (fails_call _) fun id => .bind (insertRow_fails _) fun _ => fails_pure

theorem createTunnel_blames {req : CreateTransferRequest} {tunnelUrl : String}
    (hreq : req.tunnelUrl = some tunnelUrl) :
    (createTunnel env req ⟨req.senderAgentId⟩ tunnelUrl).Spec (fun _ _ => True)
      (Blames env (.createTransfer req)) past := by
  unfold createTunnel
  refine spec_fails_bind (fails_ensure _ (other_badRequest _)) fun past _ => ?_
  rw [Program.spec_okOr_bind]
  refine ⟨fun declaredSize hsize => ?_, fun _ => blames_other (other_badRequest _)⟩
  refine spec_fails_bind (fails_ensure _ (other_badRequest _)) fun past _ => ?_
  refine spec_fails_bind (checkTunnel_fails env tunnelUrl) fun past _ => ?_
  refine spec_bind_fails (admitDeclared_blames ?_) fun _ => ?_
  · rw [CreateTransferRequest.size, hreq]
    cases req.reachableAt <;> exact hsize
  · exact .bind (fails_call _) fun id => .bind (insertRow_fails _) fun _ => fails_pure

theorem createBlob_blames {req : CreateTransferRequest} (senderRow : AgentRow)
    (hreach : req.reachableAt = none) (htunnel : req.tunnelUrl = none) :
    (createBlob env req ⟨req.senderAgentId⟩ senderRow).Spec (fun _ _ => True)
      (Blames env (.createTransfer req)) past := by
  unfold createBlob
  refine spec_result_bind (fun _ => other_badRequest _) fun blob hblob => ?_
  refine spec_result_bind (fun _ => other_badRequest _) fun signature hsignature => ?_
  refine spec_result_bind (fun _ => other_badRequest _) fun canonical hcanonical => ?_
  refine ⟨trivial, fun now => ?_⟩
  have hchallenge : (Request.createTransfer req).challenge "" =
      some (req.intent (UInt64.ofNat blob.length)) := by
    simp [Request.challenge, CreateTransferRequest.size, hreach, htunnel, hblob]
  refine spec_valid_keys_bind (fun past rows hrows => ⟨_, _, rows, hrows, rfl⟩) hchallenge
    hcanonical rfl hsignature fun _ => ?_
  refine .bind (fails_call _) fun fresh => .bind (orSqlx_fails _) fun fresh => ?_
  refine .bind (fails_ensure _ (other_conflict _)) fun _ => .bind (fails_call _) fun id => ?_
  refine .bind (auditWarn_fails _) fun _ => .bind (fails_call _) fun preDecision => ?_
  refine .bind (auditWarn_fails _) fun _ => ?_
  split
  · exact .bind (persistRejected_fails _ _ _ _ _ _ _ _ _) fun _ => fails_pure
  · refine .bind (fails_call _) fun verdict => .bind (auditWarn_fails _) fun _ => ?_
    refine .bind (fails_call _) fun postDecision => .bind (auditWarn_fails _) fun _ => ?_
    split
    · exact .bind (persistRejected_fails _ _ _ _ _ _ _ _ _) fun _ => fails_pure
    · refine .bind (fails_call _) fun put => ?_
      refine .bind (fails_lift_mapError _ other_internal) fun _ => ?_
      exact .bind (insertRow_fails _) fun _ => fails_pure

theorem createTransfer_blames (req : CreateTransferRequest) :
    (createTransfer env req).Spec (fun _ _ => True) (Blames env (.createTransfer req)) past := by
  unfold createTransfer
  refine spec_result_bind other_ofCore fun sender hsender => ?_
  obtain rfl := AgentId.eq_of_new hsender
  refine spec_fails_bind (fails_call _) fun past found => ?_
  refine spec_fails_bind (orSqlx_fails _) fun past found => ?_
  refine spec_fails_bind (fails_okOr _ (other_unauthorized (by decide) (by decide)))
    fun past senderRow => ?_
  refine spec_fails_bind (fails_ensure _ (other_badRequest _)) fun past _ => ?_
  refine spec_fails_bind (checkNonce_fails _ _) fun past _ => ?_
  refine spec_fails_bind (checkSkew_fails _ _) fun past _ => ?_
  cases hreach : req.reachableAt with
  | some endpoints => exact createReachable_blames hreach
  | none =>
    cases htunnel : req.tunnelUrl with
    | some tunnelUrl => exact createTunnel_blames htunnel
    | none => exact createBlob_blames senderRow hreach htunnel

end Transfers

section Receipts

variable {env : Env} {past : History}

/-- A receipt for a transfer, checked by the request it belongs to. -/
theorem verifyRecipientReceipt_blames {r : Request} {transferId action : String}
    {req : RecipientReceiptRequest}
    (hchallenge : r.challenge "" = some (.transferReceiptBytes req.recipientAgentId transferId
      action req.nonce req.issuedAt))
    (hhex : r.signatureHex = some req.signatureHex)
    (hconsulted : ∀ past agentId at_ rows, Saw past (.validKeysAt agentId at_) (.ok rows) →
      r.Consulted past "" (rows.map (·.publicKey))) :
    (verifyRecipientReceipt env transferId req action).Spec (fun _ _ => True) (Blames env r)
      past := by
  unfold verifyRecipientReceipt
  refine spec_fails_bind (checkNonce_fails _ _) fun past _ => ?_
  refine spec_fails_bind (checkSkew_fails _ _) fun past _ => ?_
  refine spec_result_bind other_ofCore fun recipient hrecipient => ?_
  obtain rfl := AgentId.eq_of_new hrecipient
  refine spec_fails_bind (fails_call _) fun past found => ?_
  refine spec_fails_bind (orSqlx_fails _) fun past found => ?_
  refine spec_fails_bind (fails_okOr _ (other_notFound _)) fun past row => ?_
  refine spec_fails_bind (fails_ensure _ (other_unauthorized (by decide) (by decide)))
    fun past _ => ?_
  refine spec_result_bind (fun _ => other_badRequest _) fun canonical hcanonical => ?_
  refine spec_result_bind (fun _ => other_badRequest _) fun signature hsignature => ?_
  refine ⟨trivial, fun now => ?_⟩
  exact spec_valid_keys_bind (fun past rows => hconsulted past _ _ rows) hchallenge hcanonical hhex
    hsignature fun _ => fails_pure

theorem downloadTransfer_blames (transferId : String) (req : RecipientReceiptRequest) :
    (downloadTransfer env transferId req).Spec (fun _ _ => True)
      (Blames env (.downloadTransfer transferId req)) past := by
  refine spec_bind_fails (verifyRecipientReceipt_blames rfl rfl
    fun past agentId at_ rows hrows => ⟨agentId, at_, rows, hrows, rfl⟩) fun row => ?_
  refine .bind (fails_ensure _ (other_notFound _)) fun _ => ?_
  refine .bind (fails_ensure _ (other_conflict _)) fun _ => .bind (fails_call _) fun bytes => ?_
  refine .bind (fails_lift_mapError _ other_internal) fun _ => .bind (fails_call _) fun marked => ?_
  exact .bind (orSqlx_fails _) fun _ => .bind (auditWarn_fails _) fun _ => fails_pure

theorem ackTransfer_blames (transferId : String) (req : RecipientReceiptRequest) :
    (ackTransfer env transferId req).Spec (fun _ _ => True)
      (Blames env (.ackTransfer transferId req)) past := by
  refine spec_bind_fails (verifyRecipientReceipt_blames rfl rfl
    fun past agentId at_ rows hrows => ⟨agentId, at_, rows, hrows, rfl⟩) fun row => ?_
  refine .bind (fails_call _) fun marked => .bind (orSqlx_fails _) fun updated => ?_
  refine .bind (fails_ensure _ (other_conflict _)) fun _ => .bind (fails_call _) fun appended => ?_
  refine .bind (fails_lift_mapError _ fun _ => other_internal _) fun receipt => ?_
  exact .bind (fails_call _) fun _ => fails_pure

theorem issueTicket_blames (transferId : String) (req : RecipientReceiptRequest) :
    (issueTicket env transferId req).Spec (fun _ _ => True)
      (Blames env (.issueTicket transferId req)) past := by
  unfold issueTicket
  refine spec_fails_bind (fails_okOr _ (other_internal _)) fun past sign => ?_
  refine spec_result_bind other_ofCore fun recipient hrecipient => ?_
  obtain rfl := AgentId.eq_of_new hrecipient
  refine spec_fails_bind (checkNonce_fails _ _) fun past _ => ?_
  refine spec_fails_bind (checkSkew_fails _ _) fun past nowUnix => ?_
  refine spec_fails_bind (fails_call _) fun past found => ?_
  refine spec_fails_bind (orSqlx_fails _) fun past found => ?_
  refine spec_fails_bind (fails_okOr _ (other_notFound _)) fun past row => ?_
  refine spec_fails_bind (fails_ensure _ (other_unauthorized (by decide) (by decide)))
    fun past _ => ?_
  refine spec_fails_bind (fails_ensure _ (other_badRequest _)) fun past _ => ?_
  refine spec_fails_bind (fails_okOr _ (other_badRequest _)) fun past tunnelUrl => ?_
  refine spec_result_bind (fun _ => other_badRequest _) fun canonical hcanonical => ?_
  refine spec_result_bind (fun _ => other_badRequest _) fun signature hsignature => ?_
  refine ⟨trivial, fun now => ?_⟩
  refine spec_valid_keys_bind (fun past rows hrows => ⟨_, _, rows, hrows, rfl⟩) rfl hcanonical rfl
    hsignature fun _ => ?_
  refine .bind (fails_call _) fun ticketNonce => ?_
  refine .bind (fails_lift_mapError _ fun _ => other_internal _) fun canon => ?_
  exact .bind (fails_call _) fun inserted => .bind (orSqlx_fails _) fun _ => fails_pure

theorem listInbox_blames (req : RecipientReceiptRequest) :
    (listInbox env req).Spec (fun _ _ => True) (Blames env (.listInbox req)) past := by
  unfold listInbox
  refine spec_fails_bind (checkNonce_fails _ _) fun past _ => ?_
  refine spec_fails_bind (checkSkew_fails _ _) fun past _ => ?_
  refine spec_result_bind other_ofCore fun recipient hrecipient => ?_
  obtain rfl := AgentId.eq_of_new hrecipient
  refine spec_result_bind (fun _ => other_badRequest _) fun canonical hcanonical => ?_
  refine spec_result_bind (fun _ => other_badRequest _) fun signature hsignature => ?_
  refine ⟨trivial, fun now => ?_⟩
  refine spec_valid_keys_bind (fun past rows hrows => ⟨_, _, rows, hrows, rfl⟩) rfl hcanonical rfl
    hsignature fun _ => ?_
  exact .bind (fails_call _) fun rows => .bind (orSqlx_fails _) fun _ => fails_pure

end Receipts

section Unsigned

theorem getAgent_fails (agentId : String) : (getAgent agentId).Fails ApiError.Other := by
  refine .bind (orCore_fails _) fun parsed => .bind (fails_call _) fun found => ?_
  refine .bind (orSqlx_fails _) fun found => ?_
  exact .bind (fails_okOr _ (other_notFound _)) fun _ => fails_pure

theorem getTransfer_fails (transferId : String) : (getTransfer transferId).Fails ApiError.Other := by
  refine .bind (fails_call _) fun found => .bind (orSqlx_fails _) fun found => ?_
  exact .bind (fails_okOr _ (other_notFound _)) fun _ => fails_pure

theorem probeAll_fails (nowUnix : Int64) (endpoints : List Endpoint) :
    (probeAll nowUnix endpoints).Fails ApiError.Other := by
  induction endpoints with
  | nil => trivial
  | cons ep rest ih =>
    exact .bind (validateAll_fails [ep]) fun _ => .bind ih fun _ => fails_pure

theorem tickRows_fails (nowUnix : Int64) (rows : List (String × List Endpoint)) (touched : ℕ) :
    (tickRows nowUnix rows touched).Fails ApiError.Other := by
  induction rows generalizing touched with
  | nil => trivial
  | cons row rest ih =>
    unfold tickRows
    split_ifs
    · exact ih touched
    · refine .bind (probeAll_fails nowUnix row.2) fun updated => .bind (fails_call _) fun _ => ?_
      exact .bind (orSqlx_fails _) fun _ => ih (touched + 1)

theorem tick_fails : tick.Fails ApiError.Other := by
  refine .bind (fails_call _) fun rows => .bind (orSqlx_fails _) fun rows => ?_
  exact .bind (fails_call _) fun now => tickRows_fails _ rows 0

end Unsigned

/-- Every request that is refused for its signature was checked against the message it stands for,
under keys none of which verifies it. -/
theorem handler_blames (env : Env) (r : Request) :
    (handler env r).Spec (fun _ _ => True) (Blames env r) [] := by
  cases r with
  | register req => exact spec_bind_fails (register_blames req) fun _ => fails_pure
  | getAgent agentId => exact spec_of_fails (.bind (getAgent_fails agentId) fun _ => fails_pure)
  | rotateKey req => exact spec_bind_fails (rotateKey_blames req) fun _ => fails_pure
  | createTransfer req => exact spec_bind_fails (createTransfer_blames req) fun _ => fails_pure
  | getTransfer transferId =>
    exact spec_of_fails (.bind (getTransfer_fails transferId) fun _ => fails_pure)
  | downloadTransfer transferId req =>
    exact spec_bind_fails (downloadTransfer_blames transferId req) fun _ => fails_pure
  | ackTransfer transferId req =>
    exact spec_bind_fails (ackTransfer_blames transferId req) fun _ => fails_pure
  | issueTicket transferId req =>
    exact spec_bind_fails (issueTicket_blames transferId req) fun _ => fails_pure
  | listInbox req => exact spec_bind_fails (listInbox_blames req) fun _ => fails_pure
  | tick => exact spec_of_fails (.bind tick_fails fun _ => fails_pure)

end AgentExchange.ControlPlane
