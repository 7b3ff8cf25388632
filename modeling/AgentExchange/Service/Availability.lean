import AgentExchange.ControlPlane.Delivery
import AgentExchange.Service.Downloads

/-!
# An upload can be fetched and closed

Bytes are deleted only after the row has been delivered, so the bytes of every open row are held:
no failure and no dropped task loses them. A recipient that presents a valid receipt and is served
with nothing in between and no failing operation gets the bytes, and closes the transfer.
-/
namespace AgentExchange.ControlPlane

open Library Wire
open Program (lift ensure okOr)

/-! ## The bytes of an open row -/

theorem leaves_discard {env : Env} {e : Library.Event effects} {transferId : String}
    (h : (duties env).leaves e = some (.discard transferId)) :
    e.op.records = some transferId := by
  obtain ⟨op, answer⟩ := e
  change op.leaves answer = some (.discard transferId) at h
  unfold Op.leaves at h
  split at h
  · cases h
  · split_ifs at h
    cases h
  · split_ifs at h with hkind
    cases h
    exact if_pos hkind
  · cases h

theorem leaves_insert {env : Env} {e : Library.Event effects} {transferId : String} {blob : Bytes}
    (h : (duties env).leaves e = some (.insert transferId blob)) :
    e = ⟨.blobPut transferId blob, .ok ()⟩ := by
  obtain ⟨op, answer⟩ := e
  change op.leaves answer = some (.insert transferId blob) at h
  unfold Op.leaves at h
  split at h
  · cases h
    rfl
  · split_ifs at h
    cases h
  · split_ifs at h
    cases h
  · cases h

section Held

variable {env : Env} {labels : List Label}

/-- A duty that an operation of the run settles was left by an earlier one. -/
theorem exists_leaves_of_concerns {past rest : Trace} {e : Entry effects State Request}
    (htrace : (run env labels).trace = past ++ e :: rest) (hconcerns : e.event.op.concerns ≠ none) :
    ∃ d, d.Settles env e.event.op ∧ ∃ e' ∈ past, (duties env).leaves e'.event = some d := by
  have hnext := (Pool.run_conforms (semantics env) {} labels).operation_spec (handler_duties env)
    htrace
  cases howed : (duties env).owed (Pool.eventsOf past e.task) with
  | none =>
    rw [Discipline.Next, howed] at hnext
    exact absurd hconcerns hnext
  | some d =>
    rw [Discipline.Next, howed] at hnext
    obtain ⟨event, hevent, hleaves⟩ := Discipline.exists_leaves_of_owed howed
    obtain ⟨e', he', -, rfl⟩ := Pool.mem_eventsOf.mp hevent
    exact ⟨d, hnext, e', he', hleaves⟩

/-- A delivery that is recorded has taken effect. -/
theorem delivers_of_recorded {e : Entry effects State Request} {transferId : String}
    (he : e ∈ (run env labels).trace) (hrecords : e.event.op.records = some transferId) :
    ∃ e' ∈ (run env labels).trace, Delivers transferId e'.event := by
  obtain ⟨event, hop, hkind, rfl⟩ := Op.records_eq_some hrecords
  obtain ⟨past, rest, htrace⟩ := List.append_of_mem he
  obtain ⟨d, hsettles, e', he', hleaves⟩ := exists_leaves_of_concerns htrace (by
    rw [hop, concerns_delivered hkind]
    exact nofun)
  rw [hop] at hsettles
  cases d with
  | insert id blob =>
    obtain ⟨t, ht, -⟩ := hsettles
    cases ht
  | record id =>
    obtain ⟨event', hevent', -, rfl, -⟩ := hsettles
    cases hevent'
    exact ⟨e', by simp [htrace, he'], leaves_record_iff.mp hleaves⟩
  | discard id => cases hsettles

/-- Bytes are deleted once the transfer has been delivered. -/
theorem delivers_of_deleted {e : Entry effects State Request} {transferId : String}
    (he : e ∈ (run env labels).trace) (hop : e.event.op = .blobDelete transferId) :
    ∃ e' ∈ (run env labels).trace, Delivers transferId e'.event := by
  obtain ⟨past, rest, htrace⟩ := List.append_of_mem he
  obtain ⟨d, hsettles, e', he', hleaves⟩ := exists_leaves_of_concerns htrace (by
    simp [hop, Op.concerns])
  rw [hop] at hsettles
  cases d with
  | insert id blob =>
    obtain ⟨t, ht, -⟩ := hsettles
    cases ht
  | record id =>
    obtain ⟨event, hevent, -⟩ := hsettles
    cases hevent
  | discard id =>
    cases hsettles
    exact delivers_of_recorded (by simp [htrace, he']) (leaves_discard hleaves)

theorem held_of_exec_ne {s : State} {op : Op} {c : Choice} {transferId : String}
    (hne : op ≠ .blobDelete transferId)
    (h : (s.held transferId).isSome ∨ ∃ blob, (⟨op, (exec env s op c).1⟩ : Library.Event effects) =
      ⟨.blobPut transferId blob, .ok ()⟩) :
    ((exec env s op c).2.held transferId).isSome := by
  by_cases hop : op.writes = some .blobs
  · cases op with
    | blobPut id bytes =>
      rw [held_blobPut]
      split_ifs with hc
      · rw [Function.update_apply]
        split_ifs with hid
        · rfl
        · rcases h with hold | ⟨blob, hnew⟩
          · exact hold
          · exact absurd (congrArg (·.op) hnew) (by simp [Ne.symm hid])
      · rcases h with hold | ⟨blob, hnew⟩
        · exact hold
        · obtain ⟨message, hmessage⟩ := Option.ne_none_iff_exists'.mp hc
          simp [exec, State.storeBlob, hmessage] at hnew
    | blobDelete id =>
      rw [held_blobDelete]
      have hid : transferId ≠ id := fun hid => hne (by rw [hid])
      rcases h with hold | ⟨blob, hnew⟩
      · split_ifs
        · rwa [Function.update_of_ne hid]
        · exact hold
      · exact absurd (congrArg (·.op) hnew) (by simp)
    | _ => cases hop
  · rw [held_frame hop]
    rcases h with hold | ⟨blob, hnew⟩
    · exact hold
    · obtain rfl : op = .blobPut transferId blob := congrArg (·.op) hnew
      exact absurd rfl hop

/-- Bytes that were put and not deleted are there. -/
theorem held_of_put {transferId : String}
    (hput : ∃ e ∈ (run env labels).trace, ∃ blob, e.event = ⟨.blobPut transferId blob, .ok ()⟩)
    (hkept : ∀ e ∈ (run env labels).trace, e.event.op ≠ .blobDelete transferId) :
    ((run env labels).shared.held transferId).isSome := by
  refine run_invariant env labels (J := fun trace s =>
    (∃ e ∈ trace, ∃ blob, e.event = ⟨.blobPut transferId blob, .ok ()⟩) →
    (∀ e ∈ trace, e.event.op ≠ .blobDelete transferId) → (s.held transferId).isSome)
    ?_ ?_ (fun _ _ _ h => h) hput hkept
  · rintro ⟨e, he, -⟩
    cases he
  · intro trace s i r op c _ hJ hput hkept
    apply held_of_exec_ne (hkept _ (List.mem_append_right _ (List.mem_singleton_self _)))
    rcases exists_mem_snoc.mp hput with hold | hnew
    · exact Or.inl (hJ hold fun e he => hkept e (List.mem_append_left _ he))
    · exact Or.inr hnew

/-- The bytes of an open row are held, whatever failed and whatever was dropped. -/
theorem open_upload_held {row : TransferRow} (hrow : row ∈ (run env labels).shared.db.transfers)
    (hblob : row.blobSha256.isSome) (hopen : row.Open) :
    ∃ blob, (run env labels).shared.held row.transferId = some blob := by
  apply Option.isSome_iff_exists.mp
  have htable := run_table env labels
  apply held_of_put
  · obtain ⟨e, he, row₀, hcreates, hfixed, -⟩ := htable.origin row hrow
    obtain ⟨past, rest, htrace⟩ := List.append_of_mem he
    obtain ⟨req, t, -, hop, rfl, -⟩ := created_admitted htrace hcreates
    have hsha : t.blobSha256.isSome := by
      obtain ⟨-, -, -, -, -, hsha⟩ := TransferRow.columns_of_fixed hfixed
      rwa [hsha] at hblob
    obtain ⟨d, hsettles, e', he', hleaves⟩ := exists_leaves_of_concerns htrace (by
      rw [hop, concerns_insertTransfer hsha]
      exact nofun)
    rw [hop] at hsettles
    cases d with
    | insert id blob =>
      obtain ⟨t', ht', hstores, -⟩ := hsettles
      cases ht'
      refine ⟨e', by simp [htrace, he'], blob, ?_⟩
      rw [leaves_insert hleaves, TransferRow.transferId_of_fixed hfixed, ← hstores.transferId]
    | record id =>
      obtain ⟨event, hevent, -⟩ := hsettles
      cases hevent
    | discard id => cases hsettles
  · intro e he hop
    obtain ⟨e', he', hdelivers⟩ := delivers_of_deleted he hop
    exact not_open_of_delivered ((htable.delivered row hrow).mpr ⟨e', he', hdelivers⟩) hopen

end Held

/-! ## A receipt that is served alone -/

/-- The receipt is fresh and signed by the row's recipient for the action, under a key that is
valid when it is presented. -/
structure Presented (env : Env) (s : State) (row : TransferRow) (action : String)
    (req : RecipientReceiptRequest) : Prop where
  addressed : row.recipient = req.recipientAgentId
  agent : AgentId.new req.recipientAgentId = .ok ⟨req.recipientAgentId⟩
  nonceLength : minNonceLen ≤ req.nonce.utf8ByteSize ∧ req.nonce.utf8ByteSize ≤ maxNonceLen
  nonceHex : req.nonce.toList.all isAsciiHexdigit = true
  fresh : isWithinClockSkew (unixTimestamp s.now) req.issuedAt = true
  signed : ∃ canonical signature, transferReceiptBytes req.recipientAgentId row.transferId action
      req.nonce req.issuedAt = .ok canonical ∧ hexDecode req.signatureHex = .ok signature ∧
    signature.length = signatureLen ∧ ∃ key ∈ s.db.validKeysAt req.recipientAgentId s.now,
      keyVerifies env canonical signature key.publicKey = true

/-- No operation fails. -/
def Succeeds (c : Choice) : Prop := c.failure = none

section Served

variable {env : Env} {s : State} {c : Choice} {α : Type}
  {post : History → Except ApiError α → State → Prop} {past : History}

theorem read_of_succeeds {β : Type} (hc : Succeeds c) (b : β) : State.read c b = .ok b := by
  unfold State.read
  rw [hc]

theorem write_of_succeeds {β : Type} (hc : Succeeds c) (b : β) (db : Db) :
    s.write c (.ok (b, db)) = (.ok b, { s with db := db }) := by
  unfold State.write
  rw [hc]

theorem storeBlob_of_succeeds (hc : Succeeds c) (blobs : List (String × Bytes)) :
    s.storeBlob c blobs = (.ok (), { s with blobs := blobs }) := by
  unfold State.storeBlob
  rw [hc]

theorem appendAudit_of_succeeds (hc : Succeeds c) {event : Audit.Event}
    (h : Audit.isObject event.payload = true) :
    s.appendAudit c event = (.ok c.receipt, { s with audit := s.audit ++ [event] }) := by
  unfold State.appendAudit
  rw [hc]
  exact if_pos h

/-- An operation whose answer and effect are known. -/
theorem ask_ends (op : Op) (answer : op.Answer) (s' : State) {f : op.Answer → Prog α}
    (hexec : ∀ c, Succeeds c → exec env s op c = (answer, s'))
    (hok : ∀ past, (f answer).Ends (exec env) Succeeds post past s') :
    (ask op >>= f).Ends (exec env) Succeeds post past s := by
  intro c hc
  rw [hexec c hc]
  exact hok _

theorem auditAppend_ends {event : Audit.Event} (h : Audit.isObject event.payload = true)
    {f : Except Audit.AuditError Audit.EventReceipt → Prog α}
    (hok : ∀ past receipt, (f (.ok receipt)).Ends (exec env) Succeeds post past
      { s with audit := s.audit ++ [event] }) :
    (ask (.auditAppend event) >>= f).Ends (exec env) Succeeds post past s := by
  intro c hc
  change Program.Ends _ _ _ (f (s.appendAudit c event).1) _ (s.appendAudit c event).2
  rw [appendAudit_of_succeeds hc h]
  exact hok _ _

theorem verifyWithValidKeys_ends {agentId : String} {canonical signature : Bytes}
    {f : Unit → Prog α} (hlength : signature.length = signatureLen)
    (hkey : ∃ key ∈ s.db.validKeysAt agentId s.now,
      keyVerifies env canonical signature key.publicKey = true)
    (hok : ∀ past, (f ()).Ends (exec env) Succeeds post past s) :
    (verifyWithValidKeys env agentId s.now canonical signature >>= f).Ends (exec env) Succeeds
      post past s := by
  obtain ⟨key, hkey, hverifies⟩ := hkey
  rw [Program.ends_bind]
  unfold verifyWithValidKeys
  apply Program.ends_ensure_bind hlength
  apply ask_ends (.validKeysAt agentId s.now) (.ok (s.db.validKeysAt agentId s.now)) s
  · intro c hc
    exact congrArg (·, s) (read_of_succeeds hc _)
  intro past
  apply Program.ends_lift_bind (b := s.db.validKeysAt agentId s.now) rfl
  apply Program.ends_ensure_bind (List.ne_nil_of_mem hkey)
  rw [Program.ensure, if_pos (List.any_eq_true.mpr ⟨key, hkey, hverifies⟩)]
  exact hok _

theorem verifyRecipientReceipt_ends {row : TransferRow} {action : String}
    {req : RecipientReceiptRequest} {f : TransferRow → Prog α}
    (h : Presented env s row action req)
    (hfound : s.db.findTransfer row.transferId = some row)
    (hok : ∀ past, (f row).Ends (exec env) Succeeds post past s) :
    (verifyRecipientReceipt env row.transferId req action >>= f).Ends (exec env) Succeeds post
      past s := by
  obtain ⟨canonical, signature, hcanonical, hsignature, hlength, hkey⟩ := h.signed
  rw [Program.ends_bind]
  unfold verifyRecipientReceipt checkNonce checkSkew
  apply Program.ends_bind.mpr
  apply Program.ends_ensure_bind h.nonceLength
  rw [Program.ensure, if_pos h.nonceHex]
  apply Program.ends_bind.mpr
  apply ask_ends .clockNow s.now s fun _ _ => rfl
  intro past
  apply Program.ends_ensure_bind h.fresh
  apply Program.ends_lift_bind (b := ⟨req.recipientAgentId⟩)
  · rw [h.agent]
    rfl
  apply ask_ends (.findTransfer row.transferId) (.ok (some row)) s
  · intro c hc
    rw [← hfound]
    exact congrArg (·, s) (read_of_succeeds hc _)
  intro past
  apply Program.ends_lift_bind (b := some row) rfl
  apply Program.ends_ensure_bind h.addressed
  apply Program.ends_lift_bind (b := canonical)
  · rw [AgentId.asStr, hcanonical]
    rfl
  apply Program.ends_lift_bind (b := signature)
  · rw [hsignature]
    rfl
  apply ask_ends .clockNow s.now s fun _ _ => rfl
  intro past
  exact verifyWithValidKeys_ends hlength hkey hok

def acceptedEvent (transferId : String) (req : RecipientReceiptRequest) : Audit.Event :=
  ⟨.transferAccepted, req.recipientAgentId, transferId, .obj [("nonce", .str req.nonce)]⟩

def deliveredEvent (transferId : String) (req : RecipientReceiptRequest) : Audit.Event :=
  ⟨.transferDelivered, req.recipientAgentId, transferId, .obj [("nonce", .str req.nonce)]⟩

variable {row : TransferRow} {req : RecipientReceiptRequest}

theorem downloadTransfer_ends (h : Presented env s row "download" req)
    (hfound : s.db.findTransfer row.transferId = some row) (hopen : row.Open) {blob : Bytes}
    (hheld : s.held row.transferId = some blob) :
    (handler env (.downloadTransfer row.transferId req)).Ends (exec env) Succeeds
      (fun _ out s' => out = .ok (.download ⟨row.transferId, hexEncode blob,
          row.blobSha256.getD "", row.filename, row.declaredMime⟩) ∧
        s' = { s with
          db := (s.db.markAccepted s.dbNow row.transferId).2
          audit := s.audit ++ [acceptedEvent row.transferId req] }) [] s := by
  apply Program.ends_bind.mpr
  unfold downloadTransfer
  apply verifyRecipientReceipt_ends h hfound
  intro past
  have hrejected : row.state ≠ .rejected := by
    rcases hopen with hstate | hstate <;> rw [hstate] <;> exact nofun
  apply Program.ends_ensure_bind hrejected
  have hstate : row.state = .readyForPickup ∨ row.state = .accepted := hopen
  apply Program.ends_ensure_bind hstate
  apply ask_ends (.blobGet row.transferId) (.ok blob) s
  · intro c hc
    refine congrArg (·, s) ?_
    unfold State.loadBlob
    rw [hc]
    rw [State.held] at hheld
    simp only [hheld]
  intro past
  apply Program.ends_lift_bind (b := blob) rfl
  apply ask_ends (.markAccepted row.transferId) _ _ fun c hc => write_of_succeeds hc _ _
  intro past
  apply Program.ends_lift_bind (b := (s.db.markAccepted s.dbNow row.transferId).1) rfl
  apply auditAppend_ends rfl
  intro past receipt
  exact ⟨rfl, rfl⟩

theorem ackTransfer_ends (h : Presented env s row "ack" req)
    (hfound : s.db.findTransfer row.transferId = some row) (hrow : row ∈ s.db.transfers)
    (hopen : row.Open) :
    (handler env (.ackTransfer row.transferId req)).Ends (exec env) Succeeds
      (fun _ out s' => (∃ head, out = .ok (.ack ⟨row.transferId, .delivered, head⟩)) ∧
        s' = { s with
          db := (s.db.markDelivered s.dbNow row.transferId).2
          audit := s.audit ++ [deliveredEvent row.transferId req]
          blobs := s.blobs.filter fun b => b.1 ≠ row.transferId }) [] s := by
  have hupdated : (s.db.markDelivered s.dbNow row.transferId).1 ≠ 0 := by
    have hcount : 0 < s.db.transfers.countP (deliverable row.transferId) :=
      List.countP_pos_iff.mpr ⟨row, hrow, deliverable_iff.mpr ⟨rfl, hopen.symm⟩⟩
    exact hcount.ne'
  apply Program.ends_bind.mpr
  unfold ackTransfer
  apply verifyRecipientReceipt_ends h hfound
  intro past
  apply ask_ends (.markDelivered row.transferId) _ _ fun c hc => write_of_succeeds hc _ _
  intro past
  apply Program.ends_lift_bind (b := (s.db.markDelivered s.dbNow row.transferId).1) rfl
  apply Program.ends_ensure_bind hupdated
  apply auditAppend_ends rfl
  intro past receipt
  apply Program.ends_lift_bind (b := receipt) rfl
  intro c hc
  refine ⟨⟨receipt.chainHead, rfl⟩, ?_⟩
  exact congrArg Prod.snd (storeBlob_of_succeeds hc _)

end Served

/-- The request, served at the end of the run with nothing in between, is granted. -/
def ServedAlone (env : Env) (labels : List Label) (choices : ℕ → Choice) (r : Request)
    (post : Response → State → Prop) : Prop :=
  ∃ n response,
    (run env (labels ++ Pool.alone (run env labels) r choices n)).outcome
      (run env labels).tasks.length = some (.ok response) ∧
    post response (run env (labels ++ Pool.alone (run env labels) r choices n)).shared

section Final

variable {env : Env} {labels : List Label} {choices : ℕ → Choice}

theorem servedAlone_of_ends {r : Request} {post : Response → State → Prop}
    (hchoices : ∀ n, Succeeds (choices n))
    (h : (handler env r).Ends (exec env) Succeeds
      (fun _ out s' => ∃ response, out = .ok response ∧ post response s') []
      (run env labels).shared) : ServedAlone env labels choices r post := by
  obtain ⟨n, hn⟩ := Pool.run_alone (semantics env) {} labels r choices
  obtain ⟨hout, hshared⟩ := hn _ _ rfl rfl
  obtain ⟨response, hresponse, hpost⟩ := h.execute hchoices
  refine ⟨n, response, ?_, ?_⟩
  · rw [← hresponse]
    exact hout
  · exact hshared.symm ▸ hpost

theorem findTransfer_of_mem {row : TransferRow}
    (hrow : row ∈ (run env labels).shared.db.transfers) :
    (run env labels).shared.db.findTransfer row.transferId = some row := by
  obtain ⟨found, hfound⟩ := Option.isSome_iff_exists.mp (List.find?_isSome
    (p := fun r : TransferRow => decide (r.transferId = row.transferId)).mpr
    ⟨row, hrow, decide_eq_true rfl⟩)
  have hid : found.transferId = row.transferId := by simpa using List.find?_some hfound
  rw [Db.findTransfer, hfound,
    (run_table env labels).unique (List.mem_of_find?_eq_some hfound) hrow hid]

theorem acceptRow_state {row : TransferRow} (hopen : row.Open) (now : Timestamp) :
    (acceptRow now row.transferId row).state = .accepted := by
  unfold acceptRow
  split_ifs with hguard
  · rfl
  · rcases hopen with hready | haccepted
    · exact absurd (acceptable_iff.mpr ⟨rfl, hready⟩) hguard
    · exact haccepted

theorem deliverRow_state {row : TransferRow} (hopen : row.Open) (now : Timestamp) :
    (deliverRow now row.transferId row).state = .delivered := by
  rw [deliverRow, if_pos (deliverable_iff.mpr ⟨rfl, hopen.symm⟩)]

/-- In every state that a run reaches, whatever failed or was dropped on the way, the bytes of an
open upload are held. A recipient that presents a valid receipt and is served with nothing in
between gets them, and can again; with a valid acknowledgement it closes the transfer, which is
recorded and frees the bytes. -/
theorem open_upload_served {row : TransferRow}
    (hrow : row ∈ (run env labels).shared.db.transfers) (hblob : row.blobSha256.isSome)
    (hopen : row.Open) (hchoices : ∀ n, Succeeds (choices n)) :
    ∃ blob, (run env labels).shared.held row.transferId = some blob ∧
      (∀ req, Presented env (run env labels).shared row "download" req →
        ServedAlone env labels choices (.downloadTransfer row.transferId req) fun response s =>
          response = .download ⟨row.transferId, hexEncode blob, row.blobSha256.getD "",
            row.filename, row.declaredMime⟩ ∧
          s.held row.transferId = some blob ∧
          ∃ row' ∈ s.db.transfers, row.Steps row' ∧ row'.state = .accepted) ∧
      ∀ req, Presented env (run env labels).shared row "ack" req →
        ServedAlone env labels choices (.ackTransfer row.transferId req) fun response s =>
          (∃ head, response = .ack ⟨row.transferId, .delivered, head⟩) ∧
          s.held row.transferId = none ∧
          (∃ row' ∈ s.db.transfers, row.Steps row' ∧ row'.state = .delivered) ∧
          s.audit = (run env labels).shared.audit ++ [deliveredEvent row.transferId req] := by
  have hfound := findTransfer_of_mem hrow
  obtain ⟨blob, hheld⟩ := open_upload_held hrow hblob hopen
  refine ⟨blob, hheld, ?_, ?_⟩
  · intro req hreq
    apply servedAlone_of_ends hchoices
    apply (downloadTransfer_ends hreq hfound hopen hheld).mono
    rintro _ _ _ ⟨rfl, rfl⟩
    refine ⟨_, rfl, rfl, hheld, ?_⟩
    exact ⟨acceptRow _ row.transferId row, List.mem_map_of_mem hrow, acceptRow_steps _ _ _,
      acceptRow_state hopen _⟩
  · intro req hreq
    apply servedAlone_of_ends hchoices
    apply (ackTransfer_ends hreq hfound hrow hopen).mono
    rintro _ _ _ ⟨⟨head, rfl⟩, rfl⟩
    refine ⟨_, rfl, ⟨head, rfl⟩, ?_, ?_, rfl⟩
    · have hfreed := congrFun (@lookup_filter_ne row.transferId (run env labels).shared.blobs)
        row.transferId
      rwa [Function.update_self] at hfreed
    · exact ⟨deliverRow _ row.transferId row, List.mem_map_of_mem hrow, deliverRow_steps _ _ _,
        deliverRow_state hopen _⟩

end Final

/-- The agent that sent itself a byte can fetch it. -/
theorem open_upload_served_solo :
    ∃ row ∈ (run Sample.lenientEnv Sample.soloUpload).shared.db.transfers, ∃ blob,
      ServedAlone Sample.lenientEnv Sample.soloUpload (fun _ => {})
        (.downloadTransfer row.transferId Sample.soloReceipt) fun response _ =>
          response = .download ⟨row.transferId, hexEncode blob, row.blobSha256.getD "",
            row.filename, row.declaredMime⟩ := by
  have hrun : (∃ row ∈ (run Sample.lenientEnv Sample.soloUpload).shared.db.transfers,
        row.blobSha256.isSome ∧ row.state = .readyForPickup ∧ row.recipient = Sample.solo ∧
        row.transferId = "tx_" ++ Sample.zeros 16) ∧
      isWithinClockSkew
        (unixTimestamp (run Sample.lenientEnv Sample.soloUpload).shared.now) 0 = true ∧
      ∃ key ∈ (run Sample.lenientEnv Sample.soloUpload).shared.db.validKeysAt Sample.solo
          (run Sample.lenientEnv Sample.soloUpload).shared.now,
        keyVerifies Sample.lenientEnv [] [] key.publicKey = true := by
    decide +kernel
  obtain ⟨⟨row, hrow, hblob, hready, hrecipient, hid⟩, hfresh, key, hkey, hverifies⟩ := hrun
  have hchoices (n : ℕ) : Succeeds ((fun _ => {} : ℕ → Choice) n) := rfl
  obtain ⟨blob, -, hdownload, -⟩ := open_upload_served hrow hblob (Or.inl hready) hchoices
  have hpresented : Presented Sample.lenientEnv (run Sample.lenientEnv Sample.soloUpload).shared
      row "download" Sample.soloReceipt := by
    refine ⟨hrecipient, by decide +kernel, by decide +kernel, by decide +kernel, hfresh, ?_⟩
    have hencodes : (transferReceiptBytes Sample.solo ("tx_" ++ Sample.zeros 16) "download"
        (Sample.zeros 16) 0).toBool = true := by
      decide +kernel
    rw [hid]
    cases hcanonical : transferReceiptBytes Sample.solo ("tx_" ++ Sample.zeros 16) "download"
        (Sample.zeros 16) 0 with
    | error e =>
      rw [hcanonical] at hencodes
      cases hencodes
    | ok canonical =>
      exact ⟨canonical, List.replicate 64 0, hcanonical, hexDecode_hexEncode _,
        List.length_replicate, key, hkey, hverifies⟩
  obtain ⟨n, response, hout, hresponse, -⟩ := hdownload _ hpresented
  exact ⟨row, hrow, blob, n, response, hout, hresponse⟩

end AgentExchange.ControlPlane
