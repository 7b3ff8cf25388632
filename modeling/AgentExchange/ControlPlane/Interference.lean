import AgentExchange.Library.Purge
import AgentExchange.ControlPlane.Duties

/-!
# What one sender's requests do to another's

Two runs of `create_transfer` that differ only in the requests of other senders. The nonce
table has the nonce alone as its key, so a nonce another sender has used is refused. As long
as a sender meets only rows of its own and rows from before, its requests end the same in
both runs: the runs agree on these rows, whatever the others insert.
-/
namespace AgentExchange.ControlPlane

open Library

/-! ## The operations of a sender's request -/

/-- The row of the nonce table was inserted for the sender. The branches without a blob put
the sender where the nonce belongs. -/
def ownNonce (sender : String) (entry : String × String) : Bool :=
  if entry.1.toList.all isAsciiHexdigit then entry.2 = sender else entry.1 = sender

theorem ownNonce_unique {sender sender' : String} {entry : String × String}
    (h : ownNonce sender entry = true) (h' : ownNonce sender' entry = true) :
    sender = sender' := by
  unfold ownNonce at h h'
  split_ifs at h h' with hhex
  · simp only [decide_eq_true_eq] at h h'
    rw [← h, h']
  · simp only [decide_eq_true_eq] at h h'
    rw [← h, h']

/-- What a request of the sender to `create_transfer` does to the tables. -/
def Op.CreatesFor (sender : String) : Op → Prop
  | .clockNow | .findAgent _ | .validKeysAt _ _ | .random16 => True
  | .scan _ | .evaluate _ | .buildHttpClient | .httpGet _ | .budgetLeft => True
  | .blobPut _ _ | .auditAppend _ => True
  | .consumeIntentNonce nonce owner => ownNonce sender (nonce, owner) = true
  | .insertTransfer t => t.senderAgentId = sender
  | _ => False

theorem Op.Probes.createsFor {sender : String} (op : Op) (h : op.Probes) : op.CreatesFor sender := by
  cases op <;> first | exact trivial | exact h.elim

section Handler

variable {env : Env} {req : CreateTransferRequest} (sender : AgentId)

theorem checkSkew_createsFor {asStr : String} (issuedAt : Int64) (message : String) :
    (checkSkew issuedAt message).Only (Op.CreatesFor asStr) :=
  .bind (Program.only_call trivial) fun _ => .bind (Program.only_ensure _ _) fun _ => trivial

theorem verifyWithValidKeys_createsFor {asStr : String} (agentId : String) (at_ : Timestamp)
    (canonical signature : Bytes) :
    (verifyWithValidKeys env agentId at_ canonical signature).Only (Op.CreatesFor asStr) := by
  unfold verifyWithValidKeys
  refine .bind (Program.only_ensure _ _) fun _ => ?_
  refine .bind (Program.only_call trivial) fun rows => ?_
  refine .bind (Program.only_lift _) fun rows => ?_
  exact .bind (Program.only_ensure _ _) fun _ => Program.only_ensure _ _

theorem auditWarn_createsFor {asStr : String} (event : Audit.Event) :
    (auditWarn event).Only (Op.CreatesFor asStr) :=
  .bind (Program.only_call trivial) fun _ => trivial

theorem insertRow_createsFor {t : InsertTransfer} {asStr : String} (h : t.senderAgentId = asStr) :
    (insertRow t).Only (Op.CreatesFor asStr) :=
  .bind (Program.only_call h) fun _ => Program.only_lift _

theorem admitDeclared_createsFor (declaredSize : UInt64)
    (hsender : ¬sender.asStr.toList.all isAsciiHexdigit = true) :
    (admitDeclared env req sender declaredSize).Only (Op.CreatesFor sender.asStr) := by
  have hown : ownNonce sender.asStr (sender.asStr, req.nonce) = true := by
    rw [ownNonce, if_neg hsender]
    exact decide_eq_true rfl
  unfold admitDeclared
  refine .bind (Program.only_lift _) fun canonical => ?_
  refine .bind (Program.only_lift _) fun signature => ?_
  refine .bind (Program.only_call trivial) fun now => ?_
  refine .bind (verifyWithValidKeys_createsFor _ _ _ _) fun _ => ?_
  refine .bind (Program.only_call hown) fun consumed => ?_
  exact .bind (Program.only_lift _) fun _ => trivial

theorem createReachable_createsFor (endpoints : List Endpoint)
    (hsender : ¬sender.asStr.toList.all isAsciiHexdigit = true) :
    (createReachable env req sender endpoints).Only (Op.CreatesFor sender.asStr) := by
  unfold createReachable
  refine .bind (Program.only_ensure _ _) fun _ => ?_
  refine .bind (Program.only_ensure _ _) fun _ => ?_
  refine .bind (Program.only_ensure _ _) fun _ => ?_
  refine .bind (Program.only_okOr _ _) fun declaredSize => ?_
  refine .bind ((validateAll_probes endpoints).mono Op.Probes.createsFor) fun results => ?_
  refine .bind (Program.only_ensure _ _) fun _ => ?_
  refine .bind (admitDeclared_createsFor sender declaredSize hsender) fun _ => ?_
  refine .bind (Program.only_call trivial) fun id => ?_
  exact .bind (insertRow_createsFor rfl) fun row => trivial

theorem createTunnel_createsFor (tunnelUrl : String)
    (hsender : ¬sender.asStr.toList.all isAsciiHexdigit = true) :
    (createTunnel env req sender tunnelUrl).Only (Op.CreatesFor sender.asStr) := by
  unfold createTunnel
  refine .bind (Program.only_ensure _ _) fun _ => ?_
  refine .bind (Program.only_okOr _ _) fun declaredSize => ?_
  refine .bind (Program.only_ensure _ _) fun _ => ?_
  refine .bind ((checkTunnel_probes env tunnelUrl).mono Op.Probes.createsFor) fun _ => ?_
  refine .bind (admitDeclared_createsFor sender declaredSize hsender) fun _ => ?_
  refine .bind (Program.only_call trivial) fun id => ?_
  exact .bind (insertRow_createsFor rfl) fun row => trivial

theorem persistRejected_createsFor (transferId : String) (kind : RecipientKind) (sizeBytes : UInt64)
    (verdict : Option PipelineVerdict) (decision : PolicyDecision) (code reason : String) :
    (persistRejected transferId sender req kind sizeBytes verdict decision code reason).Only
      (Op.CreatesFor sender.asStr) :=
  .bind (insertRow_createsFor rfl) fun _ => .bind (auditWarn_createsFor _) fun _ => trivial

theorem createBlob_createsFor (senderRow : AgentRow)
    (hnonce : req.nonce.toList.all isAsciiHexdigit = true) :
    (createBlob env req sender senderRow).Only (Op.CreatesFor sender.asStr) := by
  have hown : ownNonce sender.asStr (req.nonce, sender.asStr) = true := by
    rw [ownNonce, if_pos hnonce]
    exact decide_eq_true rfl
  unfold createBlob
  refine .bind (Program.only_lift _) fun blob => ?_
  refine .bind (Program.only_lift _) fun signature => ?_
  refine .bind (Program.only_lift _) fun canonical => ?_
  refine .bind (Program.only_call trivial) fun now => ?_
  refine .bind (verifyWithValidKeys_createsFor _ _ _ _) fun _ => ?_
  refine .bind (Program.only_call hown) fun fresh => ?_
  refine .bind (Program.only_lift _) fun fresh => ?_
  refine .bind (Program.only_ensure _ _) fun _ => ?_
  refine .bind (Program.only_call trivial) fun id => ?_
  refine .bind (auditWarn_createsFor _) fun _ => ?_
  refine .bind (Program.only_call trivial) fun preDecision => ?_
  refine .bind (auditWarn_createsFor _) fun _ => ?_
  split
  · exact .bind (persistRejected_createsFor sender _ _ _ _ _ _ _) fun row => trivial
  refine .bind (Program.only_call trivial) fun verdict => ?_
  refine .bind (auditWarn_createsFor _) fun _ => ?_
  refine .bind (Program.only_call trivial) fun postDecision => ?_
  refine .bind (auditWarn_createsFor _) fun _ => ?_
  split
  · exact .bind (persistRejected_createsFor sender _ _ _ _ _ _ _) fun row => trivial
  refine .bind (Program.only_call trivial) fun put => ?_
  refine .bind (Program.only_lift _) fun _ => ?_
  exact .bind (insertRow_createsFor rfl) fun row => trivial

/-- An agent id is no nonce. -/
theorem AgentId.not_hex {s : String} {id : AgentId} (h : AgentId.new s = .ok id) :
    ¬s.toList.all isAsciiHexdigit = true := by
  intro hall
  have hcolon := List.all_eq_true.mp hall _ (AgentId.new_eq_ok h).2
  exact absurd hcolon (by decide)

/-- After the check the nonce consists of hex digits. -/
theorem only_checkNonce_bind {α : Type} {Q : Op → Prop} {nonce message : String}
    {f : Unit → Prog α} (h : nonce.toList.all isAsciiHexdigit = true → (f ()).Only Q) :
    (checkNonce nonce message >>= f).Only Q := by
  unfold checkNonce Program.ensure
  split_ifs with hlength hhex
  · exact h hhex
  all_goals trivial

theorem createTransfer_createsFor (env : Env) (req : CreateTransferRequest) :
    (createTransfer env req).Only (Op.CreatesFor req.senderAgentId) := by
  unfold createTransfer orCore
  refine Program.only_lift_bind fun sender hsender => ?_
  have hnew := except_mapError_eq_ok.mp hsender
  have hagent := AgentId.not_hex hnew
  obtain rfl := AgentId.eq_of_new hnew
  refine .bind (Program.only_call trivial) fun found => ?_
  refine .bind (Program.only_lift _) fun found => ?_
  refine .bind (Program.only_okOr _ _) fun senderRow => ?_
  refine .bind (Program.only_ensure _ _) fun _ => ?_
  refine only_checkNonce_bind fun hnonce => ?_
  refine .bind (checkSkew_createsFor _ _) fun _ => ?_
  split
  · exact createReachable_createsFor ⟨req.senderAgentId⟩ _ hagent
  split
  · exact createTunnel_createsFor ⟨req.senderAgentId⟩ _ hagent
  · exact createBlob_createsFor ⟨req.senderAgentId⟩ senderRow hnonce

end Handler

/-! ## Two runs -/

/-- The sender's requests to `create_transfer`. -/
def sentBy (sender : String) : Request → Bool
  | .createTransfer req => req.senderAgentId = sender
  | _ => false

/-- The request is one to `create_transfer`, and the operation one of its sender's. -/
def Request.Creates (r : Request) (op : Op) : Prop :=
  ∃ req, r = .createTransfer req ∧ op.CreatesFor req.senderAgentId

theorem handler_creates (env : Env) (req : CreateTransferRequest) :
    (handler env (.createTransfer req)).Only (Request.Creates (.createTransfer req)) :=
  .bind ((createTransfer_createsFor env req).mono fun _ h => ⟨req, rfl, h⟩) fun _ => trivial

/-- The rows of the nonce table that a sender meets in any case: its own and those from before
the run. -/
def keptNonce (sender : String) (start : State) (entry : String × String) : Bool :=
  ownNonce sender entry || entry ∈ start.db.transferIntentNonces

def keptTransfer (sender : String) (start : State) (row : TransferRow) : Bool :=
  row.senderAgentId = sender || row ∈ start.db.transfers

/-- No row of another sender, inserted since the run began, has the key of the row to be inserted. -/
def unclaimed (sender : String) (start s : State) : Op → Bool
  | .consumeIntentNonce nonce _ =>
    s.db.transferIntentNonces.all fun entry => entry.1 ≠ nonce || keptNonce sender start entry
  | .insertTransfer t =>
    s.db.transfers.all fun row => row.transferId ≠ t.transferId || keptTransfer sender start row
  | _ => true

/-- The step is none of the sender's, fails on its own, or inserts under a key no other sender has
taken. -/
def undisturbed (sender : String) (start : State) (w : World) : Label → Bool
  | .step i c => !(w.tasks[i]?).any (fun t => sentBy sender t.request) || c.failure.isSome ||
    (w.pending i).all (unclaimed sender start w.shared)
  | _ => true

/-- The second state is the first without the rows others have inserted. -/
structure WithoutOthers (sender : String) (start s s' : State) : Prop where
  agents : s'.db.agents = s.db.agents
  agentKeys : s'.db.agentKeys = s.db.agentKeys
  now : s'.now = s.now
  dbNow : s'.dbNow = s.dbNow
  nonces : s'.db.transferIntentNonces =
    s.db.transferIntentNonces.filter (keptNonce sender start)
  transfers : s'.db.transfers = s.db.transfers.filter (keptTransfer sender start)
  nonces_subset : start.db.transferIntentNonces ⊆ s.db.transferIntentNonces
  transfers_subset : start.db.transfers ⊆ s.db.transfers

section Rows

variable {β : Type} {rows : List (String × β)} {kept : String × β → Bool} {nonce : String} {owner : β}

/-- A statement that meets no row but the kept ones does the same without the others. -/
theorem consume_filter (hmet : ∀ entry ∈ rows, entry.1 = nonce → kept entry = true)
    (hown : kept (nonce, owner) = true) :
    consume (rows.filter kept) nonce owner =
      ((consume rows nonce owner).1, (consume rows nonce owner).2.filter kept) := by
  have hkeys : nonce ∈ (rows.filter kept).map Prod.fst ↔ nonce ∈ rows.map Prod.fst := by
    simp only [List.mem_map, List.mem_filter]
    constructor
    · rintro ⟨entry, ⟨hentry, -⟩, rfl⟩
      exact ⟨entry, hentry, rfl⟩
    · rintro ⟨entry, hentry, rfl⟩
      exact ⟨entry, ⟨hentry, hmet entry hentry rfl⟩, rfl⟩
  unfold consume
  by_cases hused : nonce ∈ rows.map Prod.fst
  · rw [if_pos hused, if_pos (hkeys.mpr hused)]
  · rw [if_neg hused, if_neg fun h => hused (hkeys.mp h), List.filter_append,
      List.filter_singleton, hown]
    rfl

/-- A row that is not kept changes nothing. -/
theorem filter_consume (hother : nonce ∉ rows.map Prod.fst → kept (nonce, owner) = false) :
    (consume rows nonce owner).2.filter kept = rows.filter kept := by
  unfold consume
  split_ifs with hused
  · rfl
  · rw [List.filter_append, List.filter_singleton, hother hused]
    exact List.append_nil _

theorem subset_consume : rows ⊆ (consume rows nonce owner).2 := by
  unfold consume
  split_ifs
  · exact List.Subset.refl _
  · exact List.subset_append_left _ _

end Rows

namespace State

variable {α : Type} {s : State} {c : Choice} {out : Except SqlxError (α × Db)}

theorem write_failed {message : String} (hc : c.failure = some message) :
    s.write c out = (.error (.other message), s) := by
  unfold write
  rw [hc]

theorem write_refused {e : SqlxError} (hc : c.failure = none) :
    s.write c (.error e : Except SqlxError (α × Db)) = (.error e, s) := by
  rw [write, hc]

theorem write_done {a : α} {db : Db} (hc : c.failure = none) :
    s.write c (.ok (a, db)) = (.ok a, { s with db := db }) := by
  rw [write, hc]

end State

section Transitions

variable {env : Env} {sender : String} {start s s' : State} {op : Op} {c : Choice}

theorem WithoutOthers.congr (h : WithoutOthers sender start s s') {t t' : State}
    (ht : t.db = s.db ∧ t.now = s.now ∧ t.dbNow = s.dbNow)
    (ht' : t'.db = s'.db ∧ t'.now = s'.now ∧ t'.dbNow = s'.dbNow) :
    WithoutOthers sender start t t' := by
  obtain ⟨hdb, hnow, hdbNow⟩ := ht
  obtain ⟨hdb', hnow', hdbNow'⟩ := ht'
  refine ⟨?_, ?_, by rw [hnow, hnow', h.now], by rw [hdbNow, hdbNow', h.dbNow], ?_, ?_, ?_, ?_⟩
  all_goals rw [hdb]
  all_goals try rw [hdb']
  · exact h.agents
  · exact h.agentKeys
  · exact h.nonces
  · exact h.transfers
  · exact h.nonces_subset
  · exact h.transfers_subset

theorem exec_consumeIntentNonce (nonce owner : String) :
    exec env s (.consumeIntentNonce nonce owner) c =
      s.write c (.ok ((consume s.db.transferIntentNonces nonce owner).1, { s.db with
        transferIntentNonces := (consume s.db.transferIntentNonces nonce owner).2 })) := rfl

theorem WithoutOthers.consume_own (h : WithoutOthers sender start s s') {nonce owner : String}
    (hop : ownNonce sender (nonce, owner) = true)
    (hfree : c.failure.isSome = true ∨
      unclaimed sender start s (.consumeIntentNonce nonce owner) = true) :
    (exec env s (.consumeIntentNonce nonce owner) c).1 =
        (exec env s' (.consumeIntentNonce nonce owner) c).1 ∧
      WithoutOthers sender start (exec env s (.consumeIntentNonce nonce owner) c).2
        (exec env s' (.consumeIntentNonce nonce owner) c).2 := by
  rw [exec_consumeIntentNonce, exec_consumeIntentNonce]
  cases hc : c.failure with
  | some message =>
    rw [State.write_failed hc, State.write_failed hc]
    exact ⟨rfl, h⟩
  | none =>
    rw [hc] at hfree
    have hfree' : unclaimed sender start s (.consumeIntentNonce nonce owner) = true :=
      hfree.resolve_left Bool.false_ne_true
    have hmet : ∀ entry ∈ s.db.transferIntentNonces, entry.1 = nonce →
        keptNonce sender start entry = true := by
      intro entry hentry hnonce
      simpa [hnonce] using List.all_eq_true.mp hfree' entry hentry
    have hkept : keptNonce sender start (nonce, owner) = true := by
      rw [keptNonce, hop]
      rfl
    have hconsume := consume_filter hmet hkept
    rw [← h.nonces] at hconsume
    rw [State.write_done hc, State.write_done hc, hconsume]
    exact ⟨rfl, { h with
      nonces := rfl
      nonces_subset := List.Subset.trans h.nonces_subset subset_consume }⟩

theorem WithoutOthers.insert_own (h : WithoutOthers sender start s s') {t : InsertTransfer}
    (hop : t.senderAgentId = sender)
    (hfree : c.failure.isSome = true ∨ unclaimed sender start s (.insertTransfer t) = true) :
    (exec env s (.insertTransfer t) c).1 = (exec env s' (.insertTransfer t) c).1 ∧
      WithoutOthers sender start (exec env s (.insertTransfer t) c).2
        (exec env s' (.insertTransfer t) c).2 := by
  change (s.write c (s.db.insertTransfer s.dbNow t)).1 =
    (s'.write c (s'.db.insertTransfer s'.dbNow t)).1 ∧
      WithoutOthers sender start (s.write c (s.db.insertTransfer s.dbNow t)).2
        (s'.write c (s'.db.insertTransfer s'.dbNow t)).2
  cases hc : c.failure with
  | some message =>
    rw [State.write_failed hc, State.write_failed hc]
    exact ⟨rfl, h⟩
  | none =>
    rw [hc] at hfree
    have hfree' : unclaimed sender start s (.insertTransfer t) = true :=
      hfree.resolve_left Bool.false_ne_true
    have hsame : (s'.db.transfers.any fun row => row.transferId = t.transferId) =
        s.db.transfers.any fun row => row.transferId = t.transferId := by
      rw [h.transfers, Bool.eq_iff_iff, List.any_eq_true, List.any_eq_true]
      simp only [List.mem_filter, decide_eq_true_eq]
      constructor
      · rintro ⟨row, ⟨hrow, -⟩, hid⟩
        exact ⟨row, hrow, hid⟩
      · rintro ⟨row, hrow, hid⟩
        refine ⟨row, ⟨hrow, ?_⟩, hid⟩
        simpa [hid] using List.all_eq_true.mp hfree' row hrow
    by_cases hused : (s.db.transfers.any fun row => row.transferId = t.transferId) = true
    · have hrefused : s.db.insertTransfer s.dbNow t =
        .error (.uniqueViolation "transfers_transfer_id_key") := if_pos hused
      have hrefused' : s'.db.insertTransfer s'.dbNow t =
        .error (.uniqueViolation "transfers_transfer_id_key") := if_pos (hsame.trans hused)
      rw [hrefused, hrefused', State.write_refused hc, State.write_refused hc]
      exact ⟨rfl, h⟩
    · have hrow : s.db.insertTransfer s.dbNow t = .ok ({ t with createdAt := s.dbNow },
        { s.db with transfers := s.db.transfers ++ [{ t with createdAt := s.dbNow }] }) :=
        if_neg hused
      have hrow' : s'.db.insertTransfer s.dbNow t = .ok ({ t with createdAt := s.dbNow },
        { s'.db with transfers := s'.db.transfers ++ [{ t with createdAt := s.dbNow }] }) :=
        if_neg (hsame ▸ hused)
      rw [h.dbNow, hrow, hrow', State.write_done hc, State.write_done hc]
      refine ⟨rfl, { h with
        transfers := ?_
        transfers_subset := List.Subset.trans h.transfers_subset (List.subset_append_left _ _) }⟩
      change s'.db.transfers ++ [_] = (s.db.transfers ++ [_]).filter _
      have hkept : keptTransfer sender start { t with createdAt := s.dbNow } = true := by
        rw [keptTransfer, hop, decide_eq_true rfl]
        rfl
      rw [List.filter_append, List.filter_singleton, hkept, h.transfers]
      rfl

theorem WithoutOthers.exec_own (h : WithoutOthers sender start s s') (hop : op.CreatesFor sender)
    (hfree : c.failure.isSome = true ∨ unclaimed sender start s op = true) :
    (exec env s op c).1 = (exec env s' op c).1 ∧
      WithoutOthers sender start (exec env s op c).2 (exec env s' op c).2 := by
  cases op with
  | clockNow => exact ⟨h.now.symm, h⟩
  | findAgent agentId =>
    refine ⟨?_, h⟩
    change State.read c (s.db.findAgent agentId) = State.read c (s'.db.findAgent agentId)
    rw [Db.findAgent, Db.findAgent, h.agents]
  | validKeysAt agentId at_ =>
    refine ⟨?_, h⟩
    change State.read c (s.db.validKeysAt agentId at_) = State.read c (s'.db.validKeysAt agentId at_)
    rw [Db.validKeysAt, Db.validKeysAt, h.agentKeys]
  | consumeIntentNonce nonce owner => exact h.consume_own hop hfree
  | insertTransfer t => exact h.insert_own hop hfree
  | blobPut transferId bytes =>
    refine ⟨?_, h.congr (State.storeBlob_db _) (State.storeBlob_db _)⟩
    change (s.storeBlob c _).1 = (s'.storeBlob c _).1
    unfold State.storeBlob
    cases c.failure <;> rfl
  | auditAppend event =>
    refine ⟨?_, h.congr (State.appendAudit_db _) (State.appendAudit_db _)⟩
    change (s.appendAudit c event).1 = (s'.appendAudit c event).1
    unfold State.appendAudit
    cases c.failure with
    | some message => rfl
    | none =>
      dsimp only
      split_ifs <;> rfl
  | scan | evaluate | buildHttpClient | httpGet | budgetLeft | random16 => exact ⟨rfl, h⟩
  | _ => exact hop.elim

theorem WithoutOthers.consume_other (h : WithoutOthers sender start s s') {nonce owner : String}
    (hop : ownNonce sender (nonce, owner) = false) :
    WithoutOthers sender start (exec env s (.consumeIntentNonce nonce owner) c).2 s' := by
  rw [exec_consumeIntentNonce]
  rcases State.write_cases s c _ with ⟨e, he⟩ | ⟨a, db, hout, hw⟩
  · rw [he]
    exact h
  · rw [hw]
    cases hout
    refine { h with
      nonces := ?_
      nonces_subset := List.Subset.trans h.nonces_subset subset_consume }
    refine h.nonces.trans (filter_consume fun hnew => ?_).symm
    have hstart : (nonce, owner) ∉ start.db.transferIntentNonces := fun hmem =>
      hnew (List.mem_map_of_mem (h.nonces_subset hmem))
    rw [keptNonce, hop, decide_eq_false hstart]
    rfl

theorem WithoutOthers.insert_other (h : WithoutOthers sender start s s') {t : InsertTransfer}
    (hop : t.senderAgentId ≠ sender) :
    WithoutOthers sender start (exec env s (.insertTransfer t) c).2 s' := by
  change WithoutOthers sender start (s.write c (s.db.insertTransfer s.dbNow t)).2 s'
  rcases State.write_cases s c (s.db.insertTransfer s.dbNow t) with ⟨e, he⟩ | ⟨row, db, hout, hw⟩
  · rw [he]
    exact h
  · rw [hw]
    obtain ⟨rfl, rfl, hnew⟩ := Db.insertTransfer_eq_ok hout
    refine { h with
      transfers := ?_
      transfers_subset := List.Subset.trans h.transfers_subset (List.subset_append_left _ _) }
    have hkept : keptTransfer sender start { t with createdAt := s.dbNow } = false := by
      have hstart : ({ t with createdAt := s.dbNow } : TransferRow) ∉ start.db.transfers :=
        fun hmem => hnew _ (h.transfers_subset hmem) rfl
      rw [keptTransfer, decide_eq_false hop, decide_eq_false hstart]
      rfl
    change s'.db.transfers = (s.db.transfers ++ [_]).filter _
    rw [List.filter_append, List.filter_singleton, hkept, h.transfers]
    exact (List.append_nil _).symm

/-- What others do cannot be seen in the state without their rows. -/
theorem WithoutOthers.exec_other (h : WithoutOthers sender start s s') {other : String}
    (hop : op.CreatesFor other) (hne : other ≠ sender) :
    WithoutOthers sender start (exec env s op c).2 s' := by
  cases op with
  | consumeIntentNonce nonce owner =>
    refine h.consume_other (Bool.eq_false_iff.mpr fun hown => ?_)
    exact hne (ownNonce_unique hop hown)
  | insertTransfer t => exact h.insert_other (hop.trans_ne hne)
  | blobPut transferId bytes => exact h.congr (State.storeBlob_db _) ⟨rfl, rfl, rfl⟩
  | auditAppend event => exact h.congr (State.appendAudit_db _) ⟨rfl, rfl, rfl⟩
  | clockNow | findAgent | validKeysAt | scan | evaluate | buildHttpClient | httpGet | budgetLeft
  | random16 => exact h
  | _ => exact hop.elim

end Transitions

/-- The sender's requests with what they ended in. -/
def outcomesOf (sender : String) (w : World) : List (Request × Option (Except ApiError Response)) :=
  (Pool.tasksOf (sentBy sender) w).map fun t => (t.request, t.program.bind Program.outcome)

def Request.isCreateTransfer : Request → Bool
  | .createTransfer _ => true
  | _ => false

/-- Only requests to `create_transfer` are received. -/
def createsOnly (labels : List Label) : Bool :=
  (labels.filterMap Label.received).all Request.isCreateTransfer

section Runs

variable {env : Env} {sender : String} {start : State}

theorem WithoutOthers.refl : WithoutOthers sender start start start where
  agents := rfl
  agentKeys := rfl
  now := rfl
  dbNow := rfl
  nonces := by
    refine (List.filter_eq_self.mpr fun entry hentry => ?_).symm
    rw [keptNonce, decide_eq_true hentry, Bool.or_true]
  transfers := by
    refine (List.filter_eq_self.mpr fun row hrow => ?_).symm
    rw [keptTransfer, decide_eq_true hrow, Bool.or_true]
  nonces_subset := List.Subset.refl _
  transfers_subset := List.Subset.refl _

theorem handler_of_createsOnly {labels : List Label} (h : createsOnly labels = true) {r : Request}
    (hr : Label.spawn r ∈ labels) : (handler env r).Only r.Creates := by
  have hmem : r ∈ labels.filterMap Label.received := List.mem_filterMap.mpr ⟨_, hr, rfl⟩
  have hcreate := List.all_eq_true.mp h r hmem
  cases r with
  | createTransfer req => exact handler_creates env req
  | _ => cases hcreate

theorem unclaimed_of_undisturbed {w : World} {i : ℕ} {c : Choice} {r : Request} {op : Op}
    {k : op.Answer → Prog Response} (hi : w.tasks[i]? = some ⟨r, some (.perform op k)⟩)
    (hr : sentBy sender r = true) (h : undisturbed sender start w (.step i c) = true) :
    c.failure.isSome = true ∨ unclaimed sender start w.shared op = true := by
  have hpending := Pool.pending_eq_some hi
  rw [undisturbed, hi, hpending, Option.any_some, hr] at h
  simpa using h

theorem sentBy_eq_true {r : Request} {op : Op} (hr : sentBy sender r = true) (hop : r.Creates op) :
    op.CreatesFor sender := by
  obtain ⟨req, rfl, hop⟩ := hop
  rw [sentBy, decide_eq_true_eq] at hr
  exact hr ▸ hop

theorem sentBy_eq_false {r : Request} {op : Op} (hr : sentBy sender r = false)
    (hop : r.Creates op) : ∃ other, other ≠ sender ∧ op.CreatesFor other := by
  obtain ⟨req, rfl, hop⟩ := hop
  rw [sentBy, decide_eq_false_iff_not] at hr
  exact ⟨_, hr, hop⟩

/-- The sender's tasks are where they would be without the others. -/
theorem tasksOf_eq_purge {labels : List Label} (hcreate : createsOnly labels = true)
    (h : Pool.AlongFrom (semantics env) (fun w l => undisturbed sender start w l = true)
      ⟨start, [], []⟩ labels) :
    Pool.tasksOf (sentBy sender) (Pool.run (semantics env) start labels) =
      (Pool.run (semantics env) start (Pool.purge (sentBy sender) [] labels)).tasks := by
  have hstart : Pool.Purged (sentBy sender) Request.Creates (WithoutOthers sender start)
      (⟨start, [], []⟩ : World) ⟨start, [], []⟩ := ⟨rfl, .refl, by simp⟩
  refine (Pool.Purged.tasks (h.purge hstart (fun r hr => handler_of_createsOnly hcreate hr) ?_ ?_
    ?_)).symm
  · intro w s' i c r op k hi hr hl hop hR
    exact hR.exec_own (sentBy_eq_true hr hop) (unclaimed_of_undisturbed hi hr hl)
  · intro s s' r op c hr hop hR
    obtain ⟨other, hne, hother⟩ := sentBy_eq_false hr hop
    exact hR.exec_other hother hne
  · intro s s' t hR
    exact { hR with now := rfl, dbNow := rfl }

/-- Two runs that differ only in the requests of others. -/
theorem outcomesOf_eq_of_undisturbed (env : Env) (sender : String) (start : State)
    (labels labels' : List Label) (hcreate : createsOnly labels = true)
    (hcreate' : createsOnly labels' = true)
    (hsame : Pool.purge (sentBy sender) [] labels = Pool.purge (sentBy sender) [] labels')
    (h : Pool.AlongFrom (semantics env) (fun w l => undisturbed sender start w l = true)
      ⟨start, [], []⟩ labels)
    (h' : Pool.AlongFrom (semantics env) (fun w l => undisturbed sender start w l = true)
      ⟨start, [], []⟩ labels') :
    outcomesOf sender (Pool.run (semantics env) start labels) =
      outcomesOf sender (Pool.run (semantics env) start labels') := by
  rw [outcomesOf, outcomesOf, tasksOf_eq_purge hcreate h, tasksOf_eq_purge hcreate' h', hsame]

end Runs

namespace Sample

/-- An upload of Bob's to Alice. -/
def bobUpload (b : UInt8) (signatureHex : String) : CreateTransferRequest :=
  { blobRequest with
    senderAgentId := bob
    recipient := alice
    nonce := nonce b
    intentSignatureHex := signatureHex }

def bobSameNonce : CreateTransferRequest := bobUpload 0xb1
  ("57ef1cfd482fce6f4b551abfb4bcf062b6615cb7b1831ce767311415c8ff3507" ++
    "98ea90caf449b33eae123d5d0554a18a5cc0d4f221478ebd9df0e08a5901a308")

def bobOtherNonce : CreateTransferRequest := bobUpload 0xb2
  ("b1adb5c457f356830ebe9fa53ac308b33e87111da211737e17164ecfd304cc63" ++
    "cf3bbd127f875741880c7dc795672a8b47af15180951058e8c676b56f0975106")

/-- The server that also knows these two signatures. -/
def bobEnv : Env :=
  { env with
    verify := fun key message signature => env.verify key message signature ||
      [bobSameNonce, bobOtherNonce].any fun req => hexEncode key = bobKeyHex &&
        hexEncode signature = req.intentSignatureHex &&
        (req.intent 5).encode = .ok message }

/-- The intents of Bob's uploads as he signed them. -/
def bobSigned (req : CreateTransferRequest) : Signed :=
  ⟨bobKeyHex, req.intent 5, req.intentSignatureHex⟩

theorem bobEnv_eq :
    bobEnv = knowing (signatures ++ [bobSameNonce, bobOtherNonce].map bobSigned) :=
  eq_knowing (by decide +kernel) fun _ _ _ => by
    rw [List.any_map]
    rfl

/-- Both agents are registered. -/
def registered : State :=
  (run bobEnv (clockAt 1700000000 :: serve 0 (.register registerAlice) 3 ++
    serve 1 (.register registerBob) 3)).shared

def aliceAlone : List Label := serve 0 (.createTransfer blobRequest) 15 1

/-- Alice's upload after one of Bob's. -/
def afterBob (req : CreateTransferRequest) : List Label :=
  serve 0 (.createTransfer req) 15 2 ++ serve 1 (.createTransfer blobRequest) 15 1

/-- The outcome without its body. -/
def answered : Option (Except ApiError Response) → Option (Except ApiError ℕ)
  | some (.ok (.transfer status _)) => some (.ok status)
  | some (.error e) => some (.error e)
  | _ => none

end Sample

/-- Alice's upload is created when she is alone and refused after Bob's with the same nonce. -/
theorem Sample.upload_runs :
    Pool.AlongTo (semantics Sample.bobEnv)
      (fun w l => undisturbed Sample.alice Sample.registered w l = true)
      (fun w => (outcomesOf Sample.alice w).map (fun o => Sample.answered o.2) = [some (.ok 201)])
      ⟨Sample.registered, [], []⟩ Sample.aliceAlone ∧
    Pool.AlongFrom (semantics Sample.bobEnv)
      (fun w l => undisturbed Sample.alice Sample.registered w l = true)
      ⟨Sample.registered, [], []⟩ (Sample.afterBob Sample.bobOtherNonce) ∧
    (outcomesOf Sample.alice (Pool.run (semantics Sample.bobEnv) Sample.registered
      (Sample.afterBob Sample.bobSameNonce))).map (fun o => Sample.answered o.2) =
        [some (.error (.conflict "intent nonce already used"))] := by
  rw [Sample.registered, Sample.bobEnv_eq]
  decide +kernel

theorem purge_afterBob (req : CreateTransferRequest) (h : req.senderAgentId ≠ Sample.alice) :
    Pool.purge (sentBy Sample.alice) [] (Sample.afterBob req) =
      Pool.purge (sentBy Sample.alice) [] Sample.aliceAlone := by
  have hother : sentBy Sample.alice (.createTransfer req) = false := decide_eq_false h
  have hown : sentBy Sample.alice (.createTransfer Sample.blobRequest) = true := by decide
  simp [Sample.afterBob, Sample.aliceAlone, Sample.serve, List.replicate, Pool.purge, Pool.seen,
    Label.received, hother, hown]

/-- Bob chooses another nonce. -/
theorem outcomesOf_eq_of_undisturbed_otherNonce :
    (outcomesOf Sample.alice (Pool.run (semantics Sample.bobEnv) Sample.registered
      Sample.aliceAlone)).map (fun o => Sample.answered o.2) = [some (.ok 201)] ∧
    outcomesOf Sample.alice (Pool.run (semantics Sample.bobEnv) Sample.registered
        (Sample.afterBob Sample.bobOtherNonce)) =
      outcomesOf Sample.alice (Pool.run (semantics Sample.bobEnv) Sample.registered
        Sample.aliceAlone) := by
  obtain ⟨hupload, hafter, -⟩ := Sample.upload_runs
  obtain ⟨halone, hcreated⟩ := hupload.from
  exact ⟨hcreated, outcomesOf_eq_of_undisturbed _ _ _ _ _ (by decide) (by decide)
    (purge_afterBob _ (by decide)) hafter halone⟩

/-- Bob has used the nonce that Alice draws for her first upload: it is refused, though it is
created without Bob's. -/
theorem outcomesOf_ne_sameNonce :
    createsOnly Sample.aliceAlone = true ∧
    createsOnly (Sample.afterBob Sample.bobSameNonce) = true ∧
    Pool.purge (sentBy Sample.alice) [] (Sample.afterBob Sample.bobSameNonce) =
      Pool.purge (sentBy Sample.alice) [] Sample.aliceAlone ∧
    (outcomesOf Sample.alice (Pool.run (semantics Sample.bobEnv) Sample.registered
      Sample.aliceAlone)).map (fun o => Sample.answered o.2) = [some (.ok 201)] ∧
    (outcomesOf Sample.alice (Pool.run (semantics Sample.bobEnv) Sample.registered
      (Sample.afterBob Sample.bobSameNonce))).map (fun o => Sample.answered o.2) =
        [some (.error (.conflict "intent nonce already used"))] := by
  obtain ⟨hupload, -, hrefused⟩ := Sample.upload_runs
  exact ⟨by decide, by decide, purge_afterBob _ (by decide), hupload.from.2, hrefused⟩

end AgentExchange.ControlPlane
