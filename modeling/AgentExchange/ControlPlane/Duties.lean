import AgentExchange.ControlPlane.Frame
import AgentExchange.ControlPlane.Handlers
import AgentExchange.Library.Duties

/-!
# Work that spans two stores

`create_transfer` stores the bytes before it inserts the row, and `ack_transfer`
updates the row, appends to the audit log and deletes the bytes, one after the other.
No transaction covers two of these steps. What the code does give is that a task
that took one of them takes the next one at once, unless it is dropped: the steps
form a discipline.
-/
namespace AgentExchange.ControlPlane

open Library Wire
open Program (lift ensure okOr)

/-- What the last operation of a handler leaves to be done. -/
inductive Duty where
  | insert (transferId : String) (blob : Bytes)
  | record (transferId : String)
  | discard (transferId : String)

def Op.leaves : (op : Op) → op.Answer → Option Duty
  | .blobPut transferId blob, .ok _ => some (.insert transferId blob)
  | .markDelivered transferId, .ok updated => if updated = 0 then none else some (.record transferId)
  | .auditAppend event, .ok _ =>
    if event.kind = .transferDelivered then some (.discard event.subject) else none
  | _, _ => none

/-- The row is the row of the stored bytes. -/
structure InsertTransfer.Stores (env : Env) (t : InsertTransfer) (transferId : String)
    (blob : Bytes) : Prop where
  transferId : t.transferId = transferId
  sha256 : t.blobSha256 = some (hexEncode (env.sha256 blob))
  size : t.sizeBytes = (UInt64.ofNat blob.length).toInt64

/-- The transfer whose delivery the operation records. -/
def Op.records : Op → Option String
  | .auditAppend event => if event.kind = .transferDelivered then some event.subject else none
  | _ => none

/-- The transfer whose stored bytes the operation is about. -/
def Op.concerns : Op → Option String
  | .insertTransfer t => if t.blobSha256.isSome then some t.transferId else none
  | .blobDelete transferId => some transferId
  | op => op.records

def Duty.Settles (env : Env) : Duty → Op → Prop
  | .insert transferId blob, op =>
    ∃ t, op = .insertTransfer t ∧ t.Stores env transferId blob ∧ t.state = .readyForPickup
  | .record transferId, op => ∃ event, op = .auditAppend event ∧ event.kind = .transferDelivered ∧
      event.subject = transferId ∧ Audit.isObject event.payload = true
  | .discard transferId, op => op = .blobDelete transferId

def duties (env : Env) : Discipline effects Duty where
  leaves e := e.op.leaves e.answer
  settles := Duty.Settles env
  reserved op := op.concerns ≠ none

section Idle

variable {env : Env}

/-- The operation changes nothing. -/
def Op.Reads (op : Op) : Prop := op.writes = none

abbrev Op.Idle (env : Env) (op : Op) : Prop := (duties env).Idle op

theorem Op.Reads.idle (op : Op) (h : op.Reads) : op.Idle env := by
  cases op <;> first | exact ⟨fun hne => hne rfl, fun _ => rfl⟩ | cases h

theorem Op.Plain.idle (op : Op) (h : op.Plain) : op.Idle env := by
  cases op <;> first | exact h.elim | exact ⟨fun hne => hne rfl, fun _ => rfl⟩

/-- An operation that is no part of a chain of operations on several stores. -/
def Op.Aside : Op → Prop
  | .blobPut _ _ | .blobDelete _ | .markAccepted _ | .markDelivered _ => False
  | .insertTransfer t => t.blobSha256 = none
  | .auditAppend event => event.kind ≠ .transferAccepted ∧ event.kind ≠ .transferDelivered
  | _ => True

theorem Op.Reads.aside (op : Op) (h : op.Reads) : op.Aside := by
  cases op <;> trivial

theorem Op.Plain.aside (op : Op) (h : op.Plain) : op.Aside := by
  cases op <;> trivial

theorem auditAppend_idle {event : Audit.Event} (h : event.kind ≠ .transferDelivered) :
    (Op.auditAppend event).Idle env := by
  refine ⟨fun hne => hne (if_neg h), fun answer => ?_⟩
  cases answer with
  | error e => rfl
  | ok receipt => exact if_neg h

theorem Op.Aside.idle (op : Op) (h : op.Aside) : op.Idle env := by
  cases op with
  | insertTransfer t => exact ⟨fun hne => hne (by simp [Op.concerns, (show t.blobSha256 = none from h)]), fun _ => rfl⟩
  | auditAppend event => exact auditAppend_idle h.2
  | _ => first | exact h.elim | exact ⟨fun hne => hne rfl, fun _ => rfl⟩

theorem ask_idle {op : Op} (h : op.Idle env) : (ask op).Only (Op.Idle env) := Program.only_call h

theorem auditWarn_aside {event : Audit.Event} (haccepted : event.kind ≠ .transferAccepted)
    (hdelivered : event.kind ≠ .transferDelivered) : (auditWarn event).Only Op.Aside :=
  .bind (Program.only_call ⟨haccepted, hdelivered⟩) fun _ => trivial

theorem auditWarn_idle {event : Audit.Event} (h : event.kind ≠ .transferDelivered) :
    (auditWarn event).Only (Op.Idle env) :=
  .bind (ask_idle (auditAppend_idle h)) fun _ => trivial

theorem checkNonce_only {Q : Op → Prop} (nonce message : String) :
    (checkNonce nonce message).Only Q :=
  .bind (Program.only_ensure _ _) fun _ => Program.only_ensure _ _

theorem checkSkew_reads (issuedAt : Int64) (message : String) :
    (checkSkew issuedAt message).Only Op.Reads :=
  .bind (Program.only_call rfl) fun _ => .bind (Program.only_ensure _ _) fun _ => trivial

theorem verifyWithValidKeys_reads (agentId : String) (at_ : Timestamp)
    (canonical signature : Bytes) :
    (verifyWithValidKeys env agentId at_ canonical signature).Only Op.Reads := by
  unfold verifyWithValidKeys
  refine .bind (Program.only_ensure _ _) fun _ => ?_
  refine .bind (Program.only_call rfl) fun rows => ?_
  refine .bind (Program.only_lift _) fun rows => ?_
  exact .bind (Program.only_ensure _ _) fun _ => Program.only_ensure _ _

theorem verifyRecipientReceipt_reads (transferId : String) (req : RecipientReceiptRequest)
    (action : String) : (verifyRecipientReceipt env transferId req action).Only Op.Reads := by
  unfold verifyRecipientReceipt
  refine .bind (checkNonce_only _ _) fun _ => ?_
  refine .bind (checkSkew_reads _ _) fun _ => ?_
  refine .bind (Program.only_lift _) fun recipient => ?_
  refine .bind (Program.only_call rfl) fun found => ?_
  refine .bind (Program.only_lift _) fun found => ?_
  refine .bind (Program.only_okOr _ _) fun row => ?_
  refine .bind (Program.only_ensure _ _) fun _ => ?_
  refine .bind (Program.only_lift _) fun canonical => ?_
  refine .bind (Program.only_lift _) fun signature => ?_
  refine .bind (Program.only_call rfl) fun now => ?_
  exact .bind (verifyWithValidKeys_reads _ _ _ _) fun _ => trivial

theorem listInbox_reads (req : RecipientReceiptRequest) : (listInbox env req).Only Op.Reads := by
  unfold listInbox
  refine .bind (checkNonce_only _ _) fun _ => ?_
  refine .bind (checkSkew_reads _ _) fun _ => ?_
  refine .bind (Program.only_lift _) fun recipient => ?_
  refine .bind (Program.only_lift _) fun canonical => ?_
  refine .bind (Program.only_lift _) fun signature => ?_
  refine .bind (Program.only_call rfl) fun now => ?_
  refine .bind (verifyWithValidKeys_reads _ _ _ _) fun _ => ?_
  refine .bind (Program.only_call rfl) fun rows => ?_
  exact .bind (Program.only_lift _) fun rows => trivial

theorem register_aside (req : RegisterRequest) : (register env req).Only Op.Aside := by
  unfold register
  refine .bind (Program.only_lift _) fun _ => ?_
  refine .bind (Program.only_lift _) fun _ => ?_
  refine .bind (checkNonce_only _ _) fun _ => ?_
  refine .bind (Program.only_lift _) fun publicKey => ?_
  refine .bind (Program.only_lift _) fun signature => ?_
  refine .bind ((checkSkew_reads _ _).mono Op.Reads.aside) fun _ => ?_
  refine .bind (Program.only_lift _) fun challenge => ?_
  refine .bind (Program.only_lift _) fun _ => ?_
  refine .bind (Program.only_ensure _ _) fun _ => ?_
  refine .bind (Program.only_call trivial) fun fresh => ?_
  refine .bind (Program.only_lift _) fun fresh => ?_
  refine .bind (Program.only_ensure _ _) fun _ => ?_
  refine .bind (Program.only_call trivial) fun inserted => ?_
  exact .bind (Program.only_lift _) fun row => trivial

theorem rotateKey_aside (req : RotateKeyRequest) : (rotateKey env req).Only Op.Aside := by
  unfold rotateKey
  refine .bind (Program.only_lift _) fun agent => ?_
  refine .bind (checkNonce_only _ _) fun _ => ?_
  refine .bind (Program.only_lift _) fun newPublicKey => ?_
  refine .bind (Program.only_lift _) fun signature => ?_
  refine .bind ((checkSkew_reads _ _).mono Op.Reads.aside) fun _ => ?_
  refine .bind (Program.only_call trivial) fun found => ?_
  refine .bind (Program.only_lift _) fun found => ?_
  refine .bind (Program.only_okOr _ _) fun current => ?_
  refine .bind (Program.only_ensure _ _) fun _ => ?_
  refine .bind (Program.only_lift _) fun challenge => ?_
  refine .bind (Program.only_ensure _ _) fun _ => ?_
  refine .bind (Program.only_lift _) fun _ => ?_
  refine .bind (Program.only_ensure _ _) fun _ => ?_
  refine .bind (Program.only_lift _) fun _ => ?_
  refine .bind (Program.only_call trivial) fun fresh => ?_
  refine .bind (Program.only_lift _) fun fresh => ?_
  refine .bind (Program.only_ensure _ _) fun _ => ?_
  refine .bind (Program.only_call trivial) fun now => ?_
  refine .bind (Program.only_call trivial) fun inserted => ?_
  exact .bind (Program.only_lift _) fun row => trivial

theorem downloadTransfer_idle (transferId : String) (req : RecipientReceiptRequest) :
    (downloadTransfer env transferId req).Only (Op.Idle env) := by
  unfold downloadTransfer
  refine .bind ((verifyRecipientReceipt_reads _ _ _).mono Op.Reads.idle) fun row => ?_
  refine .bind (Program.only_ensure _ _) fun _ => ?_
  refine .bind (Program.only_ensure _ _) fun _ => ?_
  refine .bind (ask_idle ⟨fun h => h rfl, fun _ => rfl⟩) fun bytes => ?_
  refine .bind (Program.only_lift _) fun bytes => ?_
  refine .bind (ask_idle ⟨fun h => h rfl, fun _ => rfl⟩) fun marked => ?_
  refine .bind (Program.only_lift _) fun _ => ?_
  exact .bind (auditWarn_idle nofun) fun _ => trivial

theorem issueTicket_aside (transferId : String) (req : RecipientReceiptRequest) :
    (issueTicket env transferId req).Only Op.Aside := by
  unfold issueTicket
  refine .bind (Program.only_okOr _ _) fun sign => ?_
  refine .bind (Program.only_lift _) fun recipient => ?_
  refine .bind (checkNonce_only _ _) fun _ => ?_
  refine .bind ((checkSkew_reads _ _).mono Op.Reads.aside) fun nowUnix => ?_
  refine .bind (Program.only_call trivial) fun found => ?_
  refine .bind (Program.only_lift _) fun found => ?_
  refine .bind (Program.only_okOr _ _) fun row => ?_
  refine .bind (Program.only_ensure _ _) fun _ => ?_
  refine .bind (Program.only_ensure _ _) fun _ => ?_
  refine .bind (Program.only_okOr _ _) fun tunnelUrl => ?_
  refine .bind (Program.only_lift _) fun canonical => ?_
  refine .bind (Program.only_lift _) fun signature => ?_
  refine .bind (Program.only_call trivial) fun now => ?_
  refine .bind ((verifyWithValidKeys_reads _ _ _ _).mono Op.Reads.aside) fun _ => ?_
  refine .bind (Program.only_call trivial) fun ticketNonce => ?_
  refine .bind (Program.only_lift _) fun canon => ?_
  refine .bind (Program.only_call trivial) fun inserted => ?_
  exact .bind (Program.only_lift _) fun _ => trivial

end Idle

/-! ## create_transfer -/

section Create

variable {env : Env} (req : CreateTransferRequest) (sender : AgentId)

theorem insertRow_aside {t : InsertTransfer} (h : t.blobSha256 = none) :
    (insertRow t).Only Op.Aside :=
  .bind (Program.only_call h) fun _ => Program.only_lift _

theorem admitDeclared_aside (declaredSize : UInt64) :
    (admitDeclared env req sender declaredSize).Only Op.Aside := by
  unfold admitDeclared
  refine .bind (Program.only_lift _) fun canonical => ?_
  refine .bind (Program.only_lift _) fun signature => ?_
  refine .bind (Program.only_call trivial) fun now => ?_
  refine .bind ((verifyWithValidKeys_reads _ _ _ _).mono Op.Reads.aside) fun _ => ?_
  refine .bind (Program.only_call trivial) fun consumed => ?_
  exact .bind (Program.only_lift _) fun _ => trivial

theorem createReachable_aside (endpoints : List Endpoint) :
    (createReachable env req sender endpoints).Only Op.Aside := by
  unfold createReachable
  refine .bind (Program.only_ensure _ _) fun _ => ?_
  refine .bind (Program.only_ensure _ _) fun _ => ?_
  refine .bind (Program.only_ensure _ _) fun _ => ?_
  refine .bind (Program.only_okOr _ _) fun declaredSize => ?_
  refine .bind ((validateAll_only endpoints).mono Op.Plain.aside) fun results => ?_
  refine .bind (Program.only_ensure _ _) fun _ => ?_
  refine .bind (admitDeclared_aside req sender declaredSize) fun _ => ?_
  refine .bind (Program.only_call trivial) fun id => ?_
  exact .bind (insertRow_aside rfl) fun row => trivial

theorem createTunnel_aside (tunnelUrl : String) :
    (createTunnel env req sender tunnelUrl).Only Op.Aside := by
  unfold createTunnel
  refine .bind (Program.only_ensure _ _) fun _ => ?_
  refine .bind (Program.only_okOr _ _) fun declaredSize => ?_
  refine .bind (Program.only_ensure _ _) fun _ => ?_
  refine .bind ((checkTunnel_only env tunnelUrl).mono Op.Plain.aside) fun _ => ?_
  refine .bind (admitDeclared_aside req sender declaredSize) fun _ => ?_
  refine .bind (Program.only_call trivial) fun id => ?_
  exact .bind (insertRow_aside rfl) fun row => trivial

theorem persistRejected_aside (transferId : String) (kind : RecipientKind) (sizeBytes : UInt64)
    (verdict : Option PipelineVerdict) (decision : PolicyDecision) (code reason : String) :
    (persistRejected transferId sender req kind sizeBytes verdict decision code reason).Only
      Op.Aside :=
  .bind (insertRow_aside rfl) fun _ => .bind (auditWarn_aside nofun nofun) fun _ => trivial

theorem storedInsert_stores (blob : Bytes) (transferId : String) (verdict : PipelineVerdict)
    (decision : PolicyDecision) :
    (storedInsert env req sender blob transferId verdict decision).Stores env transferId blob :=
  ⟨rfl, rfl, rfl⟩

/-- The bytes are stored, and their row is inserted next. -/
theorem spec_store {past : History} (blob : Bytes) (transferId : String) (verdict : PipelineVerdict)
    (decision : PolicyDecision) (hpast : (duties env).owed past = none) :
    (do
      let put ← ask (.blobPut transferId blob)
      lift (put.mapError .internal)
      let row ← insertRow (storedInsert env req sender blob transferId verdict decision)
      pure (201, rowToResponse row) : Prog (ℕ × TransferResponse)).Spec (duties env).Next
        (duties env).Done past := by
  rw [Program.spec_call_bind]
  refine ⟨?_, fun put => ?_⟩
  · rw [Discipline.Next, hpast]
    exact fun hne => hne rfl
  · cases put with
    | error e => exact Discipline.owed_snoc _ _ _
    | ok _ =>
      refine ⟨Discipline.next_of_owed (Discipline.owed_snoc _ _ _)
        ⟨_, rfl, storedInsert_stores req sender blob transferId verdict decision, rfl⟩, ?_⟩
      intro inserted
      cases inserted <;> exact Discipline.owed_snoc _ _ _

theorem createBlob_duties (senderRow : AgentRow) {past : History}
    (hpast : (duties env).owed past = none) :
    (createBlob env req sender senderRow).Spec (duties env).Next (duties env).Done past := by
  unfold createBlob
  refine Discipline.spec_idle_bind (Program.only_lift _) hpast fun blob past₁ h₁ => ?_
  refine Discipline.spec_idle_bind (Program.only_lift _) h₁ fun signature past₂ h₂ => ?_
  refine Discipline.spec_idle_bind (Program.only_lift _) h₂ fun canonical past₃ h₃ => ?_
  refine Discipline.spec_idle_bind (ask_idle (Op.Plain.idle _ trivial)) h₃ fun now past₄ h₄ => ?_
  refine Discipline.spec_idle_bind ((verifyWithValidKeys_reads _ _ _ _).mono Op.Reads.idle) h₄ fun _ past₅ h₅ => ?_
  refine Discipline.spec_idle_bind (ask_idle ⟨fun h => h rfl, fun _ => rfl⟩) h₅
    fun fresh past₆ h₆ => ?_
  refine Discipline.spec_idle_bind (Program.only_lift _) h₆ fun fresh past₇ h₇ => ?_
  refine Discipline.spec_idle_bind (Program.only_ensure _ _) h₇ fun _ past₈ h₈ => ?_
  refine Discipline.spec_idle_bind (ask_idle ⟨fun h => h rfl, fun _ => rfl⟩) h₈
    fun id past₉ h₉ => ?_
  refine Discipline.spec_idle_bind (auditWarn_idle nofun) h₉ fun _ past₁₀ h₁₀ => ?_
  refine Discipline.spec_idle_bind (ask_idle ⟨fun h => h rfl, fun _ => rfl⟩) h₁₀
    fun preDecision past₁₁ h₁₁ => ?_
  refine Discipline.spec_idle_bind (auditWarn_idle nofun) h₁₁ fun _ past₁₂ h₁₂ => ?_
  split
  · exact Discipline.spec_idle_bind
      ((persistRejected_aside req sender _ _ _ _ _ _ _).mono Op.Aside.idle) h₁₂
      fun row past h => h
  refine Discipline.spec_idle_bind (ask_idle ⟨fun h => h rfl, fun _ => rfl⟩) h₁₂
    fun verdict past₁₃ h₁₃ => ?_
  refine Discipline.spec_idle_bind (auditWarn_idle nofun) h₁₃ fun _ past₁₄ h₁₄ => ?_
  refine Discipline.spec_idle_bind (ask_idle ⟨fun h => h rfl, fun _ => rfl⟩) h₁₄
    fun postDecision past₁₅ h₁₅ => ?_
  refine Discipline.spec_idle_bind (auditWarn_idle nofun) h₁₅ fun _ past₁₆ h₁₆ => ?_
  split
  · exact Discipline.spec_idle_bind
      ((persistRejected_aside req sender _ _ _ _ _ _ _).mono Op.Aside.idle) h₁₆
      fun row past h => h
  · exact spec_store req sender blob _ verdict _ h₁₆

theorem createTransfer_duties {past : History} (hpast : (duties env).owed past = none) :
    (createTransfer env req).Spec (duties env).Next (duties env).Done past := by
  unfold createTransfer
  refine Discipline.spec_idle_bind (Program.only_lift _) hpast fun sender past₁ h₁ => ?_
  refine Discipline.spec_idle_bind (ask_idle (Op.Plain.idle _ trivial)) h₁ fun found past₂ h₂ => ?_
  refine Discipline.spec_idle_bind (Program.only_lift _) h₂ fun found past₃ h₃ => ?_
  refine Discipline.spec_idle_bind (Program.only_okOr _ _) h₃ fun senderRow past₄ h₄ => ?_
  refine Discipline.spec_idle_bind (Program.only_ensure _ _) h₄ fun _ past₅ h₅ => ?_
  refine Discipline.spec_idle_bind (checkNonce_only _ _) h₅ fun _ past₆ h₆ => ?_
  refine Discipline.spec_idle_bind ((checkSkew_reads _ _).mono Op.Reads.idle) h₆ fun _ past₇ h₇ => ?_
  split
  · exact Discipline.spec_idle ((createReachable_aside req sender _).mono Op.Aside.idle) h₇
  · split
    · exact Discipline.spec_idle ((createTunnel_aside req sender _).mono Op.Aside.idle) h₇
    · exact createBlob_duties req sender senderRow h₇

end Create

/-- The row is marked, the event recorded and the bytes deleted, in this order. -/
theorem ackTransfer_duties {env : Env} (transferId : String) (req : RecipientReceiptRequest)
    {past : History} (hpast : (duties env).owed past = none) :
    (ackTransfer env transferId req).Spec (duties env).Next (duties env).Done past := by
  unfold ackTransfer
  refine Discipline.spec_idle_bind ((verifyRecipientReceipt_reads _ _ _).mono Op.Reads.idle) hpast fun row past₁ h₁ => ?_
  rw [Program.spec_call_bind]
  refine ⟨?_, fun marked => ?_⟩
  · rw [Discipline.Next, h₁]
    exact fun hne => hne rfl
  cases marked with
  | error e => exact Discipline.owed_snoc _ _ _
  | ok updated =>
    have hmarked : (duties env).leaves ⟨.markDelivered transferId, .ok updated⟩ =
        if updated = 0 then none else some (.record transferId) := rfl
    refine Program.spec_ensure_bind.mpr ⟨fun hne => ?_, fun hzero => ?_⟩
    · rw [if_neg hne] at hmarked
      rw [Program.spec_call_bind]
      refine ⟨Discipline.next_of_owed ((Discipline.owed_snoc _ _ _).trans hmarked)
        ⟨_, rfl, rfl, rfl, rfl⟩, fun appended => ?_⟩
      cases appended with
      | error e => exact Discipline.owed_snoc _ _ _
      | ok receipt =>
        refine ⟨Discipline.next_of_owed (Discipline.owed_snoc _ _ _) rfl, fun deleted => ?_⟩
        exact Discipline.owed_snoc _ _ _
    · rw [if_pos (not_not.mp hzero)] at hmarked
      exact (Discipline.owed_snoc _ _ _).trans hmarked

/-- Every handler keeps the discipline. -/
theorem handler_duties (env : Env) (r : Request) :
    ((semantics env).handler r).Spec (duties env).Next (duties env).Done [] := by
  cases r with
  | register req => exact Discipline.spec_idle_bind ((register_aside req).mono Op.Aside.idle) rfl fun _ _ h => h
  | getAgent agentId =>
    exact Discipline.spec_idle_bind ((getAgent_only agentId).mono Op.Plain.idle) rfl fun _ _ h => h
  | rotateKey req => exact Discipline.spec_idle_bind ((rotateKey_aside req).mono Op.Aside.idle) rfl fun _ _ h => h
  | createTransfer req =>
    refine Program.spec_bind.mpr ((createTransfer_duties req rfl).mono (fun _ _ h => h) ?_)
    intro past out h
    cases out <;> exact h
  | getTransfer transferId =>
    exact Discipline.spec_idle_bind ((getTransfer_only transferId).mono Op.Plain.idle) rfl
      fun _ _ h => h
  | downloadTransfer transferId req =>
    exact Discipline.spec_idle_bind (downloadTransfer_idle transferId req) rfl fun _ _ h => h
  | ackTransfer transferId req =>
    refine Program.spec_bind.mpr ((ackTransfer_duties transferId req rfl).mono (fun _ _ h => h) ?_)
    intro past out h
    cases out <;> exact h
  | issueTicket transferId req =>
    exact Discipline.spec_idle_bind ((issueTicket_aside transferId req).mono Op.Aside.idle) rfl fun _ _ h => h
  | listInbox req => exact Discipline.spec_idle_bind ((listInbox_reads req).mono Op.Reads.idle) rfl fun _ _ h => h
  | tick => exact Discipline.spec_idle_bind (tick_only.mono Op.Plain.idle) rfl fun _ _ h => h

end AgentExchange.ControlPlane
