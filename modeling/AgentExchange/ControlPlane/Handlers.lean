import AgentExchange.ControlPlane.Contracts

/-!
# Every handler meets its contract

One lemma per handler, by walking through it operation by operation. Probes and
the health monitor perform only operations that need no permission.
-/
namespace AgentExchange.ControlPlane

open Library Wire
open Program (lift ensure okOr)

/-- Operations that are permitted at any time. -/
def Op.Harmless : Op → Prop
  | .validKeysAt _ _ => False
  | .insertAgent _ _ _ _ _ => False
  | .insertRotation _ _ _ _ _ => False
  | .consumeIntentNonce _ _ => False
  | .insertTransfer _ => False
  | .markAccepted _ => False
  | .markDelivered _ => False
  | .insertTicketNonce _ _ _ => False
  | .listInbox _ _ => False
  | _ => True

theorem Op.Harmless.permits {op : Op} (h : op.Harmless) (env : Env) (r : Request)
    (past : History) : permits env r past op := by
  cases op <;> first | exact trivial | exact h.elim

theorem Op.Harmless.ne_insertTransfer {op : Op} (h : op.Harmless) (t : InsertTransfer) :
    op ≠ .insertTransfer t := by
  rintro rfl
  exact h

/-- The operations of probes, lookups and the health monitor. -/
def Op.Plain : Op → Prop
  | .clockNow => True
  | .findAgent _ => True
  | .findTransfer _ => True
  | .loadInFlightTransfers => True
  | .persistReachableAt _ _ => True
  | .buildHttpClient => True
  | .httpGet _ => True
  | .budgetLeft => True
  | _ => False

theorem Op.Plain.harmless (op : Op) (h : op.Plain) : op.Harmless := by
  cases op <;> first | exact trivial | exact h.elim

/-- The operations of probes. -/
def Op.Probes : Op → Prop
  | .buildHttpClient => True
  | .httpGet _ => True
  | .budgetLeft => True
  | _ => False

theorem Op.Probes.plain (op : Op) (h : op.Probes) : op.Plain := by
  cases op <;> first | exact trivial | exact h.elim

section Probes

theorem healthzAttempts_probes (tunnelUrl : String) (n : ℕ) (lastErr : String) :
    (healthzAttempts tunnelUrl n lastErr).Only Op.Probes := by
  induction n generalizing lastErr with
  | zero => trivial
  | succ n ih =>
    unfold healthzAttempts
    refine Program.Only.bind (Program.only_call trivial) fun answer => ?_
    split
    · trivial
    all_goals exact ih _

theorem checkTunnel_probes (env : Env) (tunnelUrl : String) :
    (checkTunnel env tunnelUrl).Only Op.Probes := by
  unfold checkTunnel
  split_ifs
  · trivial
  · unfold verifyTunnelHttpHealthz
    refine Program.Only.bind (Program.only_call trivial) fun client => ?_
    exact Program.Only.bind (Program.only_lift _) fun _ => healthzAttempts_probes tunnelUrl 6 ""

theorem checkTunnel_only (env : Env) (tunnelUrl : String) :
    (checkTunnel env tunnelUrl).Only Op.Plain :=
  (checkTunnel_probes env tunnelUrl).mono Op.Probes.plain

theorem probeEndpoint_probes (ep : Endpoint) : (probeEndpoint ep).Only Op.Probes := by
  unfold probeEndpoint
  refine Program.Only.bind (Program.only_call trivial) fun budgetLeft => ?_
  split_ifs
  · trivial
  · exact Program.Only.bind (Program.only_call trivial) fun _ => trivial
  · trivial
  · trivial

theorem validateAll_probes (endpoints : List Endpoint) :
    (validateAll endpoints).Only Op.Probes := by
  induction endpoints with
  | nil => trivial
  | cons ep rest ih =>
    refine Program.Only.bind (probeEndpoint_probes ep) fun _ => ?_
    exact Program.Only.bind ih fun _ => trivial

theorem validateAll_only (endpoints : List Endpoint) : (validateAll endpoints).Only Op.Plain :=
  (validateAll_probes endpoints).mono Op.Probes.plain

theorem probeAll_only (nowUnix : Int64) (endpoints : List Endpoint) :
    (probeAll nowUnix endpoints).Only Op.Plain := by
  induction endpoints with
  | nil => trivial
  | cons ep rest ih =>
    refine Program.Only.bind (validateAll_only [ep]) fun _ => ?_
    exact Program.Only.bind ih fun _ => trivial

theorem tickRows_only (nowUnix : Int64) (rows : List (String × List Endpoint)) (touched : ℕ) :
    (tickRows nowUnix rows touched).Only Op.Plain := by
  induction rows generalizing touched with
  | nil => trivial
  | cons row rest ih =>
    obtain ⟨transferId, endpoints⟩ := row
    unfold tickRows
    split_ifs
    · exact ih touched
    · refine Program.Only.bind (probeAll_only nowUnix endpoints) fun updated => ?_
      refine Program.Only.bind (Program.only_call trivial) fun persisted => ?_
      exact Program.Only.bind (Program.only_lift _) fun _ => ih (touched + 1)

theorem tick_only : tick.Only Op.Plain := by
  refine Program.Only.bind (Program.only_call trivial) fun rows => ?_
  refine Program.Only.bind (Program.only_lift _) fun rows => ?_
  exact Program.Only.bind (Program.only_call trivial) fun now => tickRows_only _ rows 0

end Probes

theorem getAgent_only (agentId : String) : (getAgent agentId).Only Op.Plain := by
  refine Program.Only.bind (Program.only_lift _) fun parsed => ?_
  refine Program.Only.bind (Program.only_call trivial) fun found => ?_
  refine Program.Only.bind (Program.only_lift _) fun found => ?_
  exact Program.Only.bind (Program.only_okOr _ _) fun row => trivial

theorem getTransfer_only (transferId : String) : (getTransfer transferId).Only Op.Plain := by
  refine Program.Only.bind (Program.only_call trivial) fun found => ?_
  refine Program.Only.bind (Program.only_lift _) fun found => ?_
  exact Program.Only.bind (Program.only_okOr _ _) fun row => trivial

/-- After a probe the history has grown by harmless events. -/
theorem spec_harmless_bind {α β : Type} {env : Env} {r : Request} {past : History}
    {post : History → Except ApiError α → Prop} {p : Prog β} {f : β → Prog α}
    (hp : p.Only Op.Plain) (herr : ∀ past e, post past (.error e))
    (hok : ∀ b past', Grows past past' → (f b).Spec (permits env r) post past') :
    (p >>= f).Spec (permits env r) post past := by
  refine (hp.mono Op.Plain.harmless).spec_bind (fun past op hop => hop.permits env r past) (fun _ _ => herr _) ?_
  intro es hes b
  exact hok b _ ⟨es, rfl, fun e he t => (hes e he).ne_insertTransfer t⟩

/-! ## create_transfer -/

section Create

variable {env : Env} {req : CreateTransferRequest} {past : History}

theorem spec_insertRow_bind {α : Type} {t : InsertTransfer} {f : TransferRow → Prog α}
    (hpre : Admitted env req past t)
    (hok : ∀ row past', (f row).Spec (permits env (.createTransfer req)) (fun _ _ => True) past') :
    (insertRow t >>= f).Spec (permits env (.createTransfer req)) (fun _ _ => True) past := by
  rw [Program.spec_bind]
  unfold insertRow
  rw [Program.spec_call_bind]
  refine ⟨⟨req, rfl, hpre⟩, fun inserted => ?_⟩
  unfold orSqlx
  rw [Program.spec_lift]
  cases inserted with
  | error e => trivial
  | ok row => exact hok row _

theorem admitted_declared {sizeBytes : UInt64} (hblob : ¬req.IsBlob)
    (hintent : IntentChecked env req past sizeBytes) (transferId : String)
    (tunnelUrl : Option String) (reachableAt : List Endpoint) :
    Admitted env req past
      (declaredInsert req ⟨req.senderAgentId⟩ sizeBytes transferId tunnelUrl reachableAt) where
  toIntentChecked := by simpa [declaredInsert] using hintent
  sender := rfl
  recipient := rfl
  mime := rfl
  filename := rfl
  state := Or.inl rfl
  blob h := absurd h hblob

/-- Signature and nonce of the two branches without a blob. -/
theorem spec_admitDeclared_bind {α : Type} {sizeBytes : UInt64} {f : Unit → Prog α}
    (hblob : ¬req.IsBlob) (hfresh : Fresh past req.issuedAt) (hfirst : Uninserted past)
    (hok : ∀ past', IntentChecked env req past' sizeBytes →
      (f ()).Spec (permits env (.createTransfer req)) (fun _ _ => True) past') :
    (admitDeclared env req ⟨req.senderAgentId⟩ sizeBytes >>= f).Spec
      (permits env (.createTransfer req)) (fun _ _ => True) past := by
  rw [Program.spec_bind]
  unfold admitDeclared
  refine spec_mapError_bind (fun _ => trivial) fun canonical hcanonical => ?_
  refine spec_mapError_bind (fun _ => trivial) fun signature hsignature => ?_
  refine spec_ask_bind (by simp) trivial fun now past₁ h₁ hnow => ?_
  refine spec_verifyWithValidKeys_bind (req.intent sizeBytes) hcanonical hsignature
    hnow hnow (fun _ _ => trivial) fun past₂ h₂ hver => ?_
  refine spec_ask_bind (by simp) ⟨req, rfl⟩ fun consumed past₃ h₃ hconsumed => ?_
  refine spec_mapError_bind (fun _ => trivial) fun fresh hfreshNonce => ?_
  subst hfreshNonce
  have hgrow := (h₁.trans h₂).trans h₃
  exact hok past₃ ⟨hfresh.mono hgrow.subset, hver.mono h₃.subset,
    Or.inr ⟨hblob, fresh, hconsumed⟩, hfirst.grow hgrow⟩

theorem createReachable_spec {endpoints : List Endpoint} (hr : req.reachableAt = some endpoints)
    (hfresh : Fresh past req.issuedAt) (hfirst : Uninserted past) :
    (createReachable env req ⟨req.senderAgentId⟩ endpoints).Spec
      (permits env (.createTransfer req)) (fun _ _ => True) past := by
  have hblob : ¬req.IsBlob := fun h => by simp [h.1] at hr
  unfold createReachable
  rw [Program.spec_ensure_bind]
  refine ⟨fun _ => ?_, fun _ => trivial⟩
  rw [Program.spec_ensure_bind]
  refine ⟨fun _ => ?_, fun _ => trivial⟩
  rw [Program.spec_ensure_bind]
  refine ⟨fun _ => ?_, fun _ => trivial⟩
  rw [Program.spec_okOr_bind]
  refine ⟨fun declaredSize _ => ?_, fun _ => trivial⟩
  refine spec_harmless_bind (validateAll_only endpoints) (fun _ _ => trivial)
    fun results past₁ h₁ => ?_
  rw [Program.spec_ensure_bind]
  refine ⟨fun _ => ?_, fun _ => trivial⟩
  refine spec_admitDeclared_bind hblob (hfresh.mono h₁.subset) (hfirst.grow h₁)
    fun past₂ hintent => ?_
  refine spec_ask_bind (by simp) trivial fun id past₃ h₃ _ => ?_
  refine spec_insertRow_bind (admitted_declared hblob (hintent.grow h₃) _ _ _) fun row past₄ => ?_
  trivial

theorem createTunnel_spec {tunnelUrl : String} (hr : req.tunnelUrl = some tunnelUrl)
    (hfresh : Fresh past req.issuedAt) (hfirst : Uninserted past) :
    (createTunnel env req ⟨req.senderAgentId⟩ tunnelUrl).Spec
      (permits env (.createTransfer req)) (fun _ _ => True) past := by
  have hblob : ¬req.IsBlob := fun h => by simp [h.2] at hr
  unfold createTunnel
  rw [Program.spec_ensure_bind]
  refine ⟨fun _ => ?_, fun _ => trivial⟩
  rw [Program.spec_okOr_bind]
  refine ⟨fun declaredSize _ => ?_, fun _ => trivial⟩
  rw [Program.spec_ensure_bind]
  refine ⟨fun _ => ?_, fun _ => trivial⟩
  refine spec_harmless_bind (checkTunnel_only env tunnelUrl) (fun _ _ => trivial)
    fun _ past₁ h₁ => ?_
  refine spec_admitDeclared_bind hblob (hfresh.mono h₁.subset) (hfirst.grow h₁)
    fun past₂ hintent => ?_
  refine spec_ask_bind (by simp) trivial fun id past₃ h₃ _ => ?_
  refine spec_insertRow_bind (admitted_declared hblob (hintent.grow h₃) _ _ _) fun row past₄ => ?_
  trivial

theorem spec_auditWarn_bind {α : Type} {event : Audit.Event} {f : Unit → Prog α} {r : Request}
    {post : History → Except ApiError α → Prop}
    (hok : ∀ past', Grows past past' → (f ()).Spec (permits env r) post past') :
    (auditWarn event >>= f).Spec (permits env r) post past := by
  rw [Program.spec_bind]
  unfold auditWarn
  exact spec_ask_bind (by simp) trivial fun _ past' h _ => hok past' h

theorem persistRejected_spec {sizeBytes : UInt64} (hintent : IntentChecked env req past sizeBytes)
    (transferId : String) (kind : RecipientKind) (verdict : Option PipelineVerdict)
    (decision : PolicyDecision) (code reason : String) :
    (persistRejected transferId ⟨req.senderAgentId⟩ req kind sizeBytes verdict decision code
      reason).Spec (permits env (.createTransfer req)) (fun _ _ => True) past := by
  unfold persistRejected
  refine spec_insertRow_bind ?_ fun row past' => ?_
  · exact {
      toIntentChecked := by simpa using hintent
      sender := rfl
      recipient := rfl
      mime := rfl
      filename := rfl
      state := Or.inr rfl
      blob := fun _ h => by cases h }
  · exact spec_auditWarn_bind fun past'' h => trivial

theorem admitted_stored {blob : Bytes} {org transferId : String} {verdict : PipelineVerdict}
    {pre post : PolicyDecision} (hintent : IntentChecked env req past (.ofNat blob.length))
    (h : BlobChecked env req past
      (storedInsert env req ⟨req.senderAgentId⟩ blob transferId verdict post) org blob verdict pre
        post) :
    Admitted env req past
      (storedInsert env req ⟨req.senderAgentId⟩ blob transferId verdict post) where
  toIntentChecked := by simpa [storedInsert] using hintent
  sender := rfl
  recipient := rfl
  mime := rfl
  filename := rfl
  state := Or.inl rfl
  blob _ _ := ⟨org, blob, verdict, pre, post, h⟩

theorem createBlob_spec (senderRow : AgentRow) (hblob : req.IsBlob)
    (hfresh : Fresh past req.issuedAt) (hfirst : Uninserted past) :
    (createBlob env req ⟨req.senderAgentId⟩ senderRow).Spec
      (permits env (.createTransfer req)) (fun _ _ => True) past := by
  unfold createBlob
  refine spec_mapError_bind (fun _ => trivial) fun blob hdecoded => ?_
  refine spec_mapError_bind (fun _ => trivial) fun signature hsignature => ?_
  refine spec_mapError_bind (fun _ => trivial) fun canonical hcanonical => ?_
  refine spec_ask_bind (by simp) trivial fun now past₁ h₁ hnow => ?_
  refine spec_verifyWithValidKeys_bind (req.intent (.ofNat blob.length)) hcanonical hsignature
    hnow hnow (fun _ _ => trivial) fun past₂ h₂ hver => ?_
  refine spec_ask_bind (by simp) ⟨req, rfl⟩ fun consumed past₃ h₃ hconsumed => ?_
  refine spec_mapError_bind (fun _ => trivial) fun fresh hfreshNonce => ?_
  subst hfreshNonce
  rw [Program.spec_ensure_bind]
  refine ⟨fun hnew => ?_, fun _ => trivial⟩
  subst hnew
  have hgrow := (h₁.trans h₂).trans h₃
  have hintent : IntentChecked env req past₃ (.ofNat blob.length) :=
    ⟨hfresh.mono hgrow.subset, hver.mono h₃.subset, Or.inl ⟨hblob, hconsumed⟩,
      hfirst.grow hgrow⟩
  refine spec_ask_bind (by simp) trivial fun id past₄ h₄ _ => ?_
  refine spec_auditWarn_bind fun past₅ h₅ => ?_
  refine spec_ask_bind (by simp) trivial fun preDecision past₆ h₆ hpre => ?_
  refine spec_auditWarn_bind fun past₇ h₇ => ?_
  replace hintent := ((hintent.grow h₄).grow h₅).grow (h₆.trans h₇)
  replace hpre := hpre.mono h₇.subset
  split
  · rw [Program.spec_bind]
    exact (persistRejected_spec hintent _ _ _ _ _ _).mono (fun _ _ h => h)
      fun _ out _ => by cases out <;> trivial
  rename_i hpassed
  refine spec_ask_bind (by simp) trivial fun verdict past₈ h₈ hscan => ?_
  refine spec_auditWarn_bind fun past₉ h₉ => ?_
  refine spec_ask_bind (by simp) trivial fun postDecision past₁₀ h₁₀ hpost => ?_
  refine spec_auditWarn_bind fun past₁₁ h₁₁ => ?_
  have hgrow₁₁ := (h₈.trans h₉).trans (h₁₀.trans h₁₁)
  replace hintent := hintent.grow hgrow₁₁
  replace hpre := hpre.mono hgrow₁₁.subset
  replace hscan := hscan.mono (h₉.trans (h₁₀.trans h₁₁)).subset
  replace hpost := hpost.mono h₁₁.subset
  split
  · rw [Program.spec_bind]
    exact (persistRejected_spec hintent _ _ _ _ _ _).mono (fun _ _ h => h)
      fun _ out _ => by cases out <;> trivial
  rename_i hpassed'
  refine spec_ask_bind (by simp) trivial fun put past₁₂ h₁₂ hput => ?_
  refine spec_mapError_bind (fun _ => trivial) fun _ hstored => ?_
  subst hstored
  have hchecked : BlobChecked env req past₁₂
      (storedInsert env req ⟨req.senderAgentId⟩ blob ("tx_" ++ hexEncode id) verdict postDecision)
      senderRow.org blob verdict preDecision postDecision :=
    { decoded := hdecoded
      preScan := hpre.mono h₁₂.subset
      preScan_passed := hpassed
      scanned := hscan.mono h₁₂.subset
      postScan := hpost.mono h₁₂.subset
      postScan_passed := hpassed'
      stored := hput
      row := rfl }
  exact spec_insertRow_bind (admitted_stored (hintent.grow h₁₂) hchecked) fun row past₁₃ => trivial

theorem createTransfer_spec (env : Env) (req : CreateTransferRequest) :
    (createTransfer env req).Spec (permits env (.createTransfer req)) (fun _ _ => True) [] := by
  unfold createTransfer
  refine spec_mapError_bind (fun _ => trivial) fun sender hsender => ?_
  obtain rfl := AgentId.eq_of_new hsender
  refine spec_ask_bind (by simp) trivial fun found past₁ h₁ _ => ?_
  refine spec_mapError_bind (fun _ => trivial) fun found _ => ?_
  rw [Program.spec_okOr_bind]
  refine ⟨fun senderRow _ => ?_, fun _ => trivial⟩
  rw [Program.spec_ensure_bind]
  refine ⟨fun _ => ?_, fun _ => trivial⟩
  refine spec_checkNonce_bind (fun _ => trivial) ?_
  refine spec_checkSkew_bind trivial (fun _ _ => trivial) fun t past₂ h₂ hfresh => ?_
  have hfirst : Uninserted past₂ := Uninserted.grow (by simp [Uninserted]) (h₁.trans h₂)
  split
  · rename_i endpoints hr
    exact createReachable_spec hr hfresh hfirst
  · rename_i hr
    split
    · rename_i tunnelUrl ht
      exact createTunnel_spec ht hfresh hfirst
    · rename_i ht
      exact createBlob_spec senderRow ⟨hr, ht⟩ hfresh hfirst

end Create

/-! ## The recipient's requests -/

section Recipient

variable {env : Env} {past : History}

/-- The postcondition of a handler whose errors promise nothing. -/
def OnOk {α : Type} (P : History → Prop) (past : History) : Except ApiError α → Prop
  | .ok _ => P past
  | .error _ => True

theorem spec_verifyRecipientReceipt_bind {α : Type} {r : Request} {transferId action : String}
    {req : RecipientReceiptRequest} {P : History → Prop} {f : TransferRow → Prog α}
    (hr : r.receipt = some (req, .transferReceiptBytes req.recipientAgentId transferId action
      req.nonce req.issuedAt))
    (hok : ∀ row past', r.Receipted env past' → Addressed past' transferId req.recipientAgentId →
      (f row).Spec (permits env r) (OnOk P) past') :
    (verifyRecipientReceipt env transferId req action >>= f).Spec (permits env r) (OnOk P) past := by
  rw [Program.spec_bind]
  unfold verifyRecipientReceipt
  refine spec_checkNonce_bind (fun _ => trivial) ?_
  refine spec_checkSkew_bind trivial (fun _ _ => trivial) fun t past₁ h₁ hfresh => ?_
  refine spec_mapError_bind (fun _ => trivial) fun recipient hrecipient => ?_
  obtain rfl := AgentId.eq_of_new hrecipient
  refine spec_ask_bind (by simp) trivial fun found past₂ h₂ hfound => ?_
  refine spec_mapError_bind (fun _ => trivial) fun found' hfound' => ?_
  subst hfound'
  rw [Program.spec_okOr_bind]
  refine ⟨fun row hrow => ?_, fun _ => trivial⟩
  subst hrow
  rw [Program.spec_ensure_bind]
  refine ⟨fun haddressed => ?_, fun _ => trivial⟩
  refine spec_mapError_bind (fun _ => trivial) fun canonical hcanonical => ?_
  refine spec_mapError_bind (fun _ => trivial) fun signature hsignature => ?_
  refine spec_ask_bind (by simp) trivial fun now past₃ h₃ hnow => ?_
  refine spec_verifyWithValidKeys_bind (.transferReceiptBytes req.recipientAgentId transferId
    action req.nonce req.issuedAt) hcanonical hsignature hnow hnow (fun _ _ => trivial)
    fun past₄ h₄ hver => ?_
  refine hok row past₄ ?_ ⟨row, hfound.mono (h₃.trans h₄).subset, haddressed⟩
  intro req' message hreq
  rw [hr] at hreq
  cases hreq
  exact ⟨hfresh.mono (h₂.trans (h₃.trans h₄)).subset, hver⟩

theorem downloadTransfer_spec (env : Env) (transferId : String) (req : RecipientReceiptRequest) :
    (downloadTransfer env transferId req).Spec (permits env (.downloadTransfer transferId req))
      (OnOk fun past => (Request.downloadTransfer transferId req).Receipted env past ∧
        ∃ bytes, Saw past (.blobGet transferId) (.ok bytes) ∧
          Addressed past transferId req.recipientAgentId) [] := by
  unfold downloadTransfer
  refine spec_verifyRecipientReceipt_bind rfl fun row past hreceipt haddressed => ?_
  rw [Program.spec_ensure_bind]
  refine ⟨fun _ => ?_, fun _ => trivial⟩
  rw [Program.spec_ensure_bind]
  refine ⟨fun _ => ?_, fun _ => trivial⟩
  refine spec_ask_bind (by simp) trivial fun loaded past₁ h₁ hloaded => ?_
  refine spec_mapError_bind (fun _ => trivial) fun bytes hbytes => ?_
  subst hbytes
  refine spec_ask_bind (by simp)
    ⟨req, rfl, hreceipt.mono h₁.subset, haddressed.mono h₁.subset⟩ fun marked past₂ h₂ _ => ?_
  refine spec_mapError_bind (fun _ => trivial) fun _ _ => ?_
  refine spec_auditWarn_bind fun past₃ h₃ => ?_
  have hgrow := h₁.trans (h₂.trans h₃)
  exact ⟨hreceipt.mono hgrow.subset, bytes, hloaded.mono (h₂.trans h₃).subset,
    haddressed.mono hgrow.subset⟩

theorem ackTransfer_spec (env : Env) (transferId : String) (req : RecipientReceiptRequest) :
    (ackTransfer env transferId req).Spec (permits env (.ackTransfer transferId req))
      (OnOk fun past => (Request.ackTransfer transferId req).Receipted env past ∧
        ∃ updated, updated ≠ 0 ∧ Saw past (.markDelivered transferId) (.ok updated) ∧
          Addressed past transferId req.recipientAgentId) [] := by
  unfold ackTransfer
  refine spec_verifyRecipientReceipt_bind rfl fun row past hreceipt haddressed => ?_
  refine spec_ask_bind (by simp) ⟨req, rfl, hreceipt, haddressed⟩ fun marked past₁ h₁ hmarked => ?_
  refine spec_mapError_bind (fun _ => trivial) fun updated hupdated => ?_
  subst hupdated
  rw [Program.spec_ensure_bind]
  refine ⟨fun hne => ?_, fun _ => trivial⟩
  refine spec_ask_bind (by simp) trivial fun appended past₂ h₂ _ => ?_
  refine spec_mapError_bind (fun _ => trivial) fun _ _ => ?_
  refine spec_ask_bind (by simp) trivial fun _ past₃ h₃ _ => ?_
  have hgrow := h₁.trans (h₂.trans h₃)
  exact ⟨hreceipt.mono hgrow.subset, updated, hne, hmarked.mono (h₂.trans h₃).subset,
    haddressed.mono hgrow.subset⟩

theorem issueTicket_spec (env : Env) (transferId : String) (req : RecipientReceiptRequest) :
    (issueTicket env transferId req).Spec (permits env (.issueTicket transferId req))
      (OnOk fun past => (Request.issueTicket transferId req).Receipted env past ∧
        Addressed past transferId req.recipientAgentId) [] := by
  unfold issueTicket
  rw [Program.spec_okOr_bind]
  refine ⟨fun sign _ => ?_, fun _ => trivial⟩
  refine spec_mapError_bind (fun _ => trivial) fun recipient hrecipient => ?_
  obtain rfl := AgentId.eq_of_new hrecipient
  refine spec_checkNonce_bind (fun _ => trivial) ?_
  refine spec_checkSkew_bind trivial (fun _ _ => trivial) fun t past₁ h₁ hfresh => ?_
  refine spec_ask_bind (by simp) trivial fun found past₂ h₂ hfound => ?_
  refine spec_mapError_bind (fun _ => trivial) fun found' hfound' => ?_
  subst hfound'
  rw [Program.spec_okOr_bind]
  refine ⟨fun row hrow => ?_, fun _ => trivial⟩
  subst hrow
  rw [Program.spec_ensure_bind]
  refine ⟨fun haddressed => ?_, fun _ => trivial⟩
  rw [Program.spec_ensure_bind]
  refine ⟨fun _ => ?_, fun _ => trivial⟩
  rw [Program.spec_okOr_bind]
  refine ⟨fun tunnelUrl _ => ?_, fun _ => trivial⟩
  refine spec_mapError_bind (fun _ => trivial) fun canonical hcanonical => ?_
  refine spec_mapError_bind (fun _ => trivial) fun signature hsignature => ?_
  refine spec_ask_bind (by simp) trivial fun now past₃ h₃ hnow => ?_
  refine spec_verifyWithValidKeys_bind (.transferReceiptBytes req.recipientAgentId transferId
    ticketAction req.nonce req.issuedAt) hcanonical hsignature hnow hnow (fun _ _ => trivial)
    fun past₄ h₄ hver => ?_
  have hreceipt : (Request.issueTicket transferId req).Receipted env past₄ := by
    rintro req' message ⟨⟩
    exact ⟨hfresh.mono (h₂.trans (h₃.trans h₄)).subset, hver⟩
  have haddressed' : Addressed past₄ transferId req.recipientAgentId :=
    ⟨row, hfound.mono (h₃.trans h₄).subset, haddressed⟩
  refine spec_ask_bind (by simp) trivial fun ticketNonce past₅ h₅ _ => ?_
  refine spec_mapError_bind (fun _ => trivial) fun canon _ => ?_
  refine spec_ask_bind (by simp)
    ⟨req, rfl, hreceipt.mono h₅.subset, haddressed'.mono h₅.subset⟩ fun inserted past₆ h₆ _ => ?_
  refine spec_mapError_bind (fun _ => trivial) fun _ _ => ?_
  exact ⟨hreceipt.mono (h₅.trans h₆).subset, haddressed'.mono (h₅.trans h₆).subset⟩

theorem listInbox_spec (env : Env) (req : RecipientReceiptRequest) :
    (listInbox env req).Spec (permits env (.listInbox req))
      (OnOk fun past => (Request.listInbox req).Receipted env past) [] := by
  unfold listInbox
  refine spec_checkNonce_bind (fun _ => trivial) ?_
  refine spec_checkSkew_bind trivial (fun _ _ => trivial) fun t past₁ h₁ hfresh => ?_
  refine spec_mapError_bind (fun _ => trivial) fun recipient hrecipient => ?_
  obtain rfl := AgentId.eq_of_new hrecipient
  refine spec_mapError_bind (fun _ => trivial) fun canonical hcanonical => ?_
  refine spec_mapError_bind (fun _ => trivial) fun signature hsignature => ?_
  refine spec_ask_bind (by simp) trivial fun now past₂ h₂ hnow => ?_
  refine spec_verifyWithValidKeys_bind (.transferReceiptBytes req.recipientAgentId
    inboxTransferMarker "inbox" req.nonce req.issuedAt) hcanonical hsignature hnow hnow
    (fun _ _ => trivial) fun past₃ h₃ hver => ?_
  have hreceipt : (Request.listInbox req).Receipted env past₃ := by
    rintro req' message ⟨⟩
    exact ⟨hfresh.mono (h₂.trans h₃).subset, hver⟩
  refine spec_ask_bind (by simp) ⟨req, rfl, rfl, hreceipt⟩ fun rows past₄ h₄ _ => ?_
  refine spec_mapError_bind (fun _ => trivial) fun _ _ => ?_
  exact hreceipt.mono h₄.subset

end Recipient

/-! ## The key ledger -/

section Ledger

/-- The postcondition of a handler whose errors leave the ledger alone. -/
def KeptOnError {α : Type} (past : History) : Except ApiError α → Prop
  | .ok _ => True
  | .error _ => ∀ e ∈ past, ¬WroteLedger e

theorem not_wroteLedger_snoc {past : History} {e : Library.Event effects}
    (h : ∀ e ∈ past, ¬WroteLedger e) (he : ¬WroteLedger e) :
    ∀ e' ∈ past ++ [e], ¬WroteLedger e' := by
  intro e' he'
  rcases List.mem_append.mp he' with he' | he'
  · exact h e' he'
  · rwa [List.mem_singleton.mp he']

theorem register_spec (env : Env) (req : RegisterRequest) :
    (register env req).Spec (permits env (.register req)) KeptOnError [] := by
  have hnil : ∀ e ∈ ([] : History), ¬WroteLedger e := by simp
  unfold register
  rw [Program.spec_lift_bind]
  refine ⟨fun _ _ => ?_, fun _ _ => hnil⟩
  rw [Program.spec_lift_bind]
  refine ⟨fun _ _ => ?_, fun _ _ => hnil⟩
  refine spec_checkNonce_bind (fun _ => hnil) ?_
  rw [Program.spec_lift_bind]
  refine ⟨fun publicKey _ => ?_, fun _ _ => hnil⟩
  rw [Program.spec_lift_bind]
  refine ⟨fun signature _ => ?_, fun _ _ => hnil⟩
  have h₁ (t) := not_wroteLedger_snoc (e := ⟨.clockNow, t⟩) hnil id
  refine spec_checkSkew_bind_exact trivial (fun t _ => h₁ t) fun t _ => ?_
  refine spec_mapError_bind (fun _ => h₁ t) fun challenge _ => ?_
  refine spec_mapError_bind (fun _ => h₁ t) fun _ _ => ?_
  rw [Program.spec_ensure_bind]
  refine ⟨fun _ => ?_, fun _ => h₁ t⟩
  rw [Program.spec_call_bind]
  refine ⟨trivial, fun fresh => ?_⟩
  have h₂ := not_wroteLedger_snoc (e := ⟨.consumeNonce req.nonce publicKey, fresh⟩) (h₁ t) id
  refine spec_mapError_bind (fun _ => h₂) fun _ _ => ?_
  rw [Program.spec_ensure_bind]
  refine ⟨fun _ => ?_, fun _ => h₂⟩
  rw [Program.spec_call_bind]
  refine ⟨⟨req, rfl⟩, fun inserted => ?_⟩
  cases inserted with
  | error e => exact not_wroteLedger_snoc h₂ id
  | ok row => trivial

theorem hexDecode_of_decodeHexExact {s field : String} {expected : ℕ} {bytes : Bytes}
    (h : decodeHexExact s expected field = .ok bytes) : hexDecode s = .ok bytes := by
  unfold decodeHexExact at h
  split at h
  · cases h
  · rename_i decoded hdecoded
    split_ifs at h
    cases h
    exact hdecoded

theorem rotateKey_spec (env : Env) (req : RotateKeyRequest) :
    (rotateKey env req).Spec (permits env (.rotateKey req)) KeptOnError [] := by
  have hnil : ∀ e ∈ ([] : History), ¬WroteLedger e := by simp
  unfold rotateKey
  refine spec_mapError_bind (fun _ => hnil) fun agent hagent => ?_
  obtain rfl := AgentId.eq_of_new hagent
  refine spec_checkNonce_bind (fun _ => hnil) ?_
  rw [Program.spec_lift_bind]
  refine ⟨fun newPublicKey _ => ?_, fun _ _ => hnil⟩
  rw [Program.spec_lift_bind]
  refine ⟨fun signature hsignature => ?_, fun _ _ => hnil⟩
  have h₁ (t) := not_wroteLedger_snoc (e := ⟨.clockNow, t⟩) hnil id
  refine spec_checkSkew_bind_exact trivial (fun t _ => h₁ t) fun t _ => ?_
  rw [Program.spec_call_bind]
  refine ⟨trivial, fun found => ?_⟩
  have h₂ := not_wroteLedger_snoc (e := ⟨.currentKey req.agentId, found⟩) (h₁ t) id
  refine spec_mapError_bind (fun _ => h₂) fun found' hfound => ?_
  subst hfound
  rw [Program.spec_okOr_bind]
  refine ⟨fun current hcurrent => ?_, fun _ => h₂⟩
  subst hcurrent
  rw [Program.spec_ensure_bind]
  refine ⟨fun _ => ?_, fun _ => h₂⟩
  refine spec_mapError_bind (fun _ => h₂) fun challenge hchallenge => ?_
  rw [Program.spec_ensure_bind]
  refine ⟨fun _ => ?_, fun _ => h₂⟩
  refine spec_mapError_bind (fun _ => h₂) fun _ _ => ?_
  rw [Program.spec_ensure_bind]
  refine ⟨fun hverified => ?_, fun _ => h₂⟩
  refine spec_mapError_bind (fun _ => h₂) fun _ _ => ?_
  rw [Program.spec_call_bind]
  refine ⟨trivial, fun fresh => ?_⟩
  have h₃ := not_wroteLedger_snoc (e := ⟨.consumeRotateNonce req.nonce req.agentId, fresh⟩) h₂ id
  refine spec_mapError_bind (fun _ => h₃) fun _ _ => ?_
  rw [Program.spec_ensure_bind]
  refine ⟨fun _ => ?_, fun _ => h₃⟩
  rw [Program.spec_call_bind]
  refine ⟨trivial, fun now => ?_⟩
  have h₄ := not_wroteLedger_snoc (e := ⟨.clockNow, now⟩) h₃ id
  rw [Program.spec_call_bind]
  refine ⟨⟨req, rfl, rfl, rfl, current, challenge, signature, ?_, rfl, hchallenge,
    hexDecode_of_decodeHexExact hsignature, hverified, saw_snoc _ .clockNow now⟩,
    fun inserted => ?_⟩
  · simp [Saw]
  · cases inserted with
    | error e => exact not_wroteLedger_snoc h₄ id
    | ok row => trivial

end Ledger

/-- Every request's program meets its contract. -/
theorem handler_spec (env : Env) (r : Request) :
    ((semantics env).handler r).Spec (permits env r) (ensures env r) [] := by
  cases r with
  | register req =>
    refine Program.spec_bind.mpr ((register_spec env req).mono (fun _ _ h => h) ?_)
    rintro past (e | body) h
    · exact h
    · exact ⟨by rintro _ _ ⟨⟩, trivial⟩
  | getAgent agentId =>
    refine spec_harmless_bind (getAgent_only agentId) (fun _ _ => trivial) fun _ _ _ => ?_
    exact ⟨by rintro _ _ ⟨⟩, trivial⟩
  | rotateKey req =>
    refine Program.spec_bind.mpr ((rotateKey_spec env req).mono (fun _ _ h => h) ?_)
    rintro past (e | body) h
    · exact h
    · exact ⟨by rintro _ _ ⟨⟩, trivial⟩
  | createTransfer req =>
    refine Program.spec_bind.mpr ((createTransfer_spec env req).mono (fun _ _ h => h) ?_)
    rintro past (e | body) -
    · trivial
    · exact ⟨by rintro _ _ ⟨⟩, trivial⟩
  | getTransfer transferId =>
    refine spec_harmless_bind (getTransfer_only transferId) (fun _ _ => trivial) fun _ _ _ => ?_
    exact ⟨by rintro _ _ ⟨⟩, trivial⟩
  | downloadTransfer transferId req =>
    refine Program.spec_bind.mpr ((downloadTransfer_spec env transferId req).mono
      (fun _ _ h => h) ?_)
    rintro past (e | body) h
    · trivial
    · exact h
  | ackTransfer transferId req =>
    refine Program.spec_bind.mpr ((ackTransfer_spec env transferId req).mono (fun _ _ h => h) ?_)
    rintro past (e | body) h
    · trivial
    · exact h
  | issueTicket transferId req =>
    refine Program.spec_bind.mpr ((issueTicket_spec env transferId req).mono (fun _ _ h => h) ?_)
    rintro past (e | body) h
    · trivial
    · exact h
  | listInbox req =>
    refine Program.spec_bind.mpr ((listInbox_spec env req).mono (fun _ _ h => h) ?_)
    rintro past (e | body) h
    · trivial
    · exact ⟨h, trivial⟩
  | tick =>
    refine spec_harmless_bind tick_only (fun _ _ => trivial) fun _ _ _ => ?_
    exact ⟨by rintro _ _ ⟨⟩, trivial⟩

end AgentExchange.ControlPlane
