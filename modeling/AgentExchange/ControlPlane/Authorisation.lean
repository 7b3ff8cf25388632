import AgentExchange.ControlPlane.Replay
import AgentExchange.ControlPlane.KeyLedger

/-!
# Every effect was asked for by the right agent

A signature is traced back from its effect: to the keys the ledger listed when it
was checked, to a message that holds the very fields of the effect, and, if
signatures cannot be forged, to an agent that signed this message. The canonical
formats are injective, so the signed bytes stand for no other message.
-/
namespace AgentExchange.ControlPlane

open Library Wire

/-- Whoever has a signature got it from the key's holder; `Signed key bytes` says that the holder
of the key signed the bytes. -/
def Unforgeable (env : Env) (Signed : Bytes → Bytes → Prop) : Prop :=
  ∀ key message signature, env.verify key message signature = true → Signed key message

/-- The task read the server's clock. -/
def ReadsClock (w : World) (i : ℕ) (t : Timestamp) : Prop :=
  ∃ e ∈ w.trace, e.task = i ∧ e.event = ⟨.clockNow, t⟩ ∧ e.before.now = t

/-- For the task, a key valid for the agent at the server's time signed the message, and the signed
bytes stand for no other message. -/
def Authorised (Signed : Bytes → Bytes → Prop) (w : World) (i : ℕ) (agentId : String)
    (message : Message) : Prop :=
  ∃ now, ReadsClock w i now ∧
    ∃ e ∈ w.trace, e.task = i ∧ e.event.op = .validKeysAt agentId now ∧
      ∃ row ∈ e.before.db.validKeysAt agentId now, ∃ bytes, message.encode = .ok bytes ∧
        Signed row.publicKey bytes ∧ ∀ message', message'.encode = .ok bytes → message' = message

section Events

variable {env : Env} {labels : List Label}

theorem readsClock_of_saw {past : Trace} {i : ℕ} {t : Timestamp}
    (hpast : past ⊆ (run env labels).trace)
    (h : Saw (Pool.eventsOf past i) .clockNow t) : ReadsClock (run env labels) i t := by
  obtain ⟨e, he, htask, hevent⟩ := Pool.mem_eventsOf.mp h
  obtain ⟨c, hanswer⟩ := (Pool.run_conforms (semantics env) {} labels).answered e (hpast he)
  refine ⟨e, hpast he, htask, hevent, ?_⟩
  obtain ⟨task, request, before, event⟩ := e
  dsimp only at hevent hanswer ⊢
  subst hevent
  exact hanswer.symm

/-- The keys a check used are those the ledger listed then. -/
theorem validKeysAt_of_saw {past : Trace} {i : ℕ} {agentId : String} {t : Timestamp}
    {rows : List AgentKeyRow} (hpast : past ⊆ (run env labels).trace)
    (h : Saw (Pool.eventsOf past i) (.validKeysAt agentId t) (.ok rows)) :
    ∃ e ∈ (run env labels).trace, e.task = i ∧ e.event = ⟨.validKeysAt agentId t, .ok rows⟩ ∧
      e.before.db.validKeysAt agentId t = rows := by
  obtain ⟨e, he, htask, hevent⟩ := Pool.mem_eventsOf.mp h
  obtain ⟨c, hanswer⟩ := (Pool.run_conforms (semantics env) {} labels).answered e (hpast he)
  refine ⟨e, hpast he, htask, hevent, ?_⟩
  obtain ⟨task, request, before, event⟩ := e
  dsimp only at hevent hanswer ⊢
  subst hevent
  exact State.read_eq_ok hanswer.symm

/-- A verified signature was made by a valid key's holder. -/
theorem authorised_of_verified {Signed : Bytes → Bytes → Prop} (hsigned : Unforgeable env Signed)
    {past : Trace} {i : ℕ} {agentId signatureHex : String} {message : Message}
    (hpast : past ⊆ (run env labels).trace)
    (h : Verified env (Pool.eventsOf past i) agentId message signatureHex) :
    Authorised Signed (run env labels) i agentId message := by
  obtain ⟨now, rows, hnow, hrows, canonical, signature, hcanonical, -, row, hrow, hverifies⟩ := h
  obtain ⟨e, he, htask, hevent, hlisted⟩ := validKeysAt_of_saw hpast hrows
  have hverify : env.verify row.publicKey canonical signature = true := by
    have := (Bool.and_eq_true_iff.mp hverifies).2
    split at this
    · exact this
    · cases this
  refine ⟨now, readsClock_of_saw hpast hnow, e, he, htask, by rw [hevent], row, hlisted ▸ hrow,
    canonical, hcanonical, hsigned _ _ _ hverify, ?_⟩
  intro message' hmessage'
  obtain ⟨hh, hf⟩ := Message.encode_lines hmessage' hcanonical
  exact Message.eq_of_lines hh hf

/-- The transfer a request looked up is still there, addressed to the same agent. -/
theorem exists_row_of_addressed {past : Trace} {i : ℕ} {transferId recipient : String}
    (hpast : past ⊆ (run env labels).trace)
    (h : Addressed (Pool.eventsOf past i) transferId recipient) :
    ∃ row ∈ (run env labels).shared.db.transfers, row.transferId = transferId ∧
      row.recipient = recipient := by
  obtain ⟨found, hsaw, hrecipient⟩ := h
  obtain ⟨e, he, -, hevent⟩ := Pool.mem_eventsOf.mp hsaw
  obtain ⟨before, after, htrace⟩ := List.append_of_mem (hpast he)
  obtain ⟨done, more, rfl, -, hbefore⟩ := Pool.run_entry (semantics env) htrace
  obtain ⟨c, hanswer⟩ := (Pool.run_conforms (semantics env) {} _).answered e (hpast he)
  obtain ⟨task, request, state, event⟩ := e
  dsimp only at hevent hanswer hbefore
  subst hevent hbefore
  have hfind : (run env done).shared.db.findTransfer transferId = some found :=
    State.read_eq_ok hanswer.symm
  have hmem := List.mem_of_find?_eq_some hfind
  have hid : found.transferId = transferId := by simpa using List.find?_some hfind
  obtain ⟨row, hrow, hfixed, -⟩ := run_evolves env done more found hmem
  exact ⟨row, hrow, (TransferRow.transferId_of_fixed hfixed).trans hid,
    (TransferRow.columns_of_fixed hfixed).2.1.trans hrecipient⟩

/-- A recipient's request that was answered was authorised by its receipt. -/
theorem authorised_of_ok {Signed : Bytes → Bytes → Prop} (hsigned : Unforgeable env Signed)
    {i : ℕ} {t : Task effects Request ApiError Response} {req : RecipientReceiptRequest}
    {message : Message} {response : Response} (ht : (run env labels).tasks[i]? = some t)
    (hreceipt : t.request.receipt = some (req, message))
    (hout : (run env labels).outcome i = some (.ok response)) :
    Authorised Signed (run env labels) i req.recipientAgentId message := by
  have hensures := (Pool.run_conforms (semantics env) {} labels).outcome_spec (handler_spec env)
    ht hout
  exact authorised_of_verified hsigned (List.Subset.refl _) (hensures.1 req message hreceipt).2

theorem optStr_getD (s : String) : (optStr s).getD "" = s := by
  unfold optStr
  split_ifs with h
  · simpa using (String.isEmpty_iff.mp h).symm
  · rfl

/-- The columns of a row are those of the intent that was signed for it. -/
theorem intent_of_row {req : CreateTransferRequest} {past : History} {t : InsertTransfer}
    {row row₀ : TransferRow} {now : Timestamp} (hadmitted : Admitted env req past t)
    (hrow₀ : row₀ = { t with createdAt := now }) (hfixed : row.fixed = row₀.fixed) :
    row.senderAgentId = req.senderAgentId ∧
      req.intent t.sizeBytes.toUInt64 = .transferIntentBytes row.senderAgentId row.recipient
        row.sizeBytes.toUInt64 (row.declaredMime.getD "") (row.filename.getD "") req.nonce
        req.issuedAt := by
  subst hrow₀
  obtain ⟨hsender, hrecipient, hsize, hmime, hfilename, -⟩ := TransferRow.columns_of_fixed hfixed
  refine ⟨hsender.trans hadmitted.sender, ?_⟩
  rw [hsender, hrecipient, hsize, hmime, hfilename]
  dsimp only
  rw [hadmitted.sender, hadmitted.recipient, hadmitted.mime, hadmitted.filename, optStr_getD,
    optStr_getD]
  rfl

/-- A row was created for a fresh intent with the row's columns, signed by the sender. -/
theorem row_authorised {Signed : Bytes → Bytes → Prop} (hsigned : Unforgeable env Signed)
    {row : TransferRow} (hrow : row ∈ (run env labels).shared.db.transfers) :
    ∃ e ∈ (run env labels).trace, ∃ row₀ nonce issuedAt t, Creates row₀ e.event ∧
      row.fixed = row₀.fixed ∧ ReadsClock (run env labels) e.task t ∧
      ((unixTimestamp t).toInt - issuedAt.toInt).natAbs ≤ 300 ∧
      Authorised Signed (run env labels) e.task row.senderAgentId
        (.transferIntentBytes row.senderAgentId row.recipient row.sizeBytes.toUInt64
          (row.declaredMime.getD "") (row.filename.getD "") nonce issuedAt) := by
  obtain ⟨e, he, row₀, hcreates, hfixed, -⟩ := (run_table env labels).origin row hrow
  obtain ⟨past, rest, htrace⟩ := List.append_of_mem he
  obtain ⟨req, t, -, -, hrow₀, hadmitted⟩ := created_admitted htrace hcreates
  have hpast : past ⊆ (run env labels).trace := by simp [htrace]
  obtain ⟨hsender, hintent⟩ := intent_of_row hadmitted hrow₀ hfixed
  obtain ⟨now, hnow, hskew⟩ := hadmitted.fresh
  refine ⟨e, he, row₀, req.nonce, req.issuedAt, now, hcreates, hfixed,
    readsClock_of_saw hpast hnow, of_decide_eq_true hskew, ?_⟩
  rw [← hintent, hsender]
  exact authorised_of_verified hsigned hpast hadmitted.verified

/-- A row became delivered through an acknowledgement its recipient signed. -/
theorem delivered_authorised {Signed : Bytes → Bytes → Prop} (hsigned : Unforgeable env Signed)
    {row : TransferRow} (hrow : row ∈ (run env labels).shared.db.transfers)
    (hstate : row.state = .delivered) :
    ∃ e ∈ (run env labels).trace, ∃ req, Delivers row.transferId e.event ∧
      e.request = .ackTransfer row.transferId req ∧
      Authorised Signed (run env labels) e.task row.recipient
        (.transferReceiptBytes row.recipient row.transferId "ack" req.nonce req.issuedAt) := by
  have htable := run_table env labels
  obtain ⟨e, he, hdelivers⟩ := (htable.delivered row hrow).mp hstate
  obtain ⟨past, rest, htrace⟩ := List.append_of_mem he
  have hpast : past ⊆ (run env labels).trace := by simp [htrace]
  have hpermits := (Pool.run_conforms (semantics env) {} labels).operation_spec (handler_spec env)
    htrace
  obtain ⟨updated, -, hevent⟩ := id hdelivers
  rw [hevent] at hpermits
  obtain ⟨req, hreq, hreceipted, haddressed⟩ := hpermits
  obtain ⟨row', hrow', hid, hrecipient⟩ := exists_row_of_addressed hpast haddressed
  rw [htable.unique hrow hrow' hid.symm] at hdelivers ⊢
  rw [hid] at hdelivers ⊢
  rw [hrecipient]
  refine ⟨e, he, req, hdelivers, hreq, ?_⟩
  exact authorised_of_verified hsigned hpast (hreceipted req _ (by rw [hreq]; rfl)).2

/-- A transfer was looked up for a recipient's request and is addressed to the agent that signed
its receipt. -/
theorem transfer_authorised {Signed : Bytes → Bytes → Prop} (hsigned : Unforgeable env Signed)
    {i : ℕ} {t : Task effects Request ApiError Response} {req : RecipientReceiptRequest}
    {response : Response} {transferId action : String}
    (ht : (run env labels).tasks[i]? = some t)
    (hreceipt : t.request.receipt = some (req, .transferReceiptBytes req.recipientAgentId
      transferId action req.nonce req.issuedAt))
    (hout : (run env labels).outcome i = some (.ok response))
    (haddressed : Addressed (Pool.eventsOf (run env labels).trace i) transferId
      req.recipientAgentId) :
    ∃ row ∈ (run env labels).shared.db.transfers, row.transferId = transferId ∧
      Authorised Signed (run env labels) i row.recipient
        (.transferReceiptBytes row.recipient transferId action req.nonce req.issuedAt) := by
  obtain ⟨row, hrow, hid, hrecipient⟩ := exists_row_of_addressed (List.Subset.refl _) haddressed
  refine ⟨row, hrow, hid, ?_⟩
  rw [hrecipient]
  exact authorised_of_ok hsigned ht hreceipt hout

end Events

/-- In every run: a row was created for a fresh intent with its columns, signed by its sender; bytes
were returned, a row was delivered, a ticket was issued and an inbox was listed for a receipt that
names the transfer and the action, signed by the recipient. Each time the key was valid for that
agent at the server's time. -/
theorem request_authorisation (env : Env) (Signed : Bytes → Bytes → Prop)
    (hsigned : Unforgeable env Signed) (labels : List Label) :
    (∀ row ∈ (run env labels).shared.db.transfers,
      ∃ e ∈ (run env labels).trace, ∃ (row₀ : TransferRow) (nonce : String) (issuedAt : Int64)
        (t : Timestamp), Creates row₀ e.event ∧ row.fixed = row₀.fixed ∧
        ReadsClock (run env labels) e.task t ∧
        ((unixTimestamp t).toInt - issuedAt.toInt).natAbs ≤ 300 ∧
        Authorised Signed (run env labels) e.task row.senderAgentId
          (.transferIntentBytes row.senderAgentId row.recipient row.sizeBytes.toUInt64
            (row.declaredMime.getD "") (row.filename.getD "") nonce issuedAt)) ∧
    (∀ (i : ℕ) (t : Task effects Request ApiError Response) (transferId : String)
        (req : RecipientReceiptRequest) (response : Response),
      (run env labels).tasks[i]? = some t → t.request = .downloadTransfer transferId req →
      (run env labels).outcome i = some (.ok response) →
      ∃ row ∈ (run env labels).shared.db.transfers, row.transferId = transferId ∧
        Authorised Signed (run env labels) i row.recipient
          (.transferReceiptBytes row.recipient transferId "download" req.nonce req.issuedAt)) ∧
    (∀ row ∈ (run env labels).shared.db.transfers, row.state = .delivered →
      ∃ e ∈ (run env labels).trace, ∃ req : RecipientReceiptRequest,
        Delivers row.transferId e.event ∧ e.request = .ackTransfer row.transferId req ∧
        Authorised Signed (run env labels) e.task row.recipient
          (.transferReceiptBytes row.recipient row.transferId "ack" req.nonce req.issuedAt)) ∧
    (∀ (i : ℕ) (t : Task effects Request ApiError Response) (transferId : String)
        (req : RecipientReceiptRequest) (response : Response),
      (run env labels).tasks[i]? = some t → t.request = .issueTicket transferId req →
      (run env labels).outcome i = some (.ok response) →
      ∃ row ∈ (run env labels).shared.db.transfers, row.transferId = transferId ∧
        Authorised Signed (run env labels) i row.recipient
          (.transferReceiptBytes row.recipient transferId "request_ticket" req.nonce
            req.issuedAt)) ∧
    ∀ (i : ℕ) (t : Task effects Request ApiError Response) (req : RecipientReceiptRequest)
        (response : Response),
      (run env labels).tasks[i]? = some t → t.request = .listInbox req →
      (run env labels).outcome i = some (.ok response) →
      Authorised Signed (run env labels) i req.recipientAgentId
        (.transferReceiptBytes req.recipientAgentId "inbox" "inbox" req.nonce req.issuedAt) := by
  have hconforms := Pool.run_conforms (semantics env) {} labels
  refine ⟨fun row hrow => row_authorised hsigned hrow, ?_,
    fun row hrow hstate => delivered_authorised hsigned hrow hstate, ?_, ?_⟩
  · intro i t transferId req response ht hreq hout
    have hensures := hconforms.outcome_spec (handler_spec env) ht hout
    rw [hreq] at hensures
    obtain ⟨-, bytes, -, haddressed⟩ := hensures
    exact transfer_authorised hsigned ht (by rw [hreq]; rfl) hout haddressed
  · intro i t transferId req response ht hreq hout
    have hensures := hconforms.outcome_spec (handler_spec env) ht hout
    rw [hreq] at hensures
    obtain ⟨-, haddressed⟩ := hensures
    exact transfer_authorised hsigned ht (by rw [hreq]; rfl) hout haddressed
  · intro i t req response ht hreq hout
    exact authorised_of_ok hsigned ht (by rw [hreq]; rfl) hout

/-- The messages the two agents signed, as bytes. -/
def Sample.HasSigned (key message : Bytes) : Prop :=
  ∃ s ∈ signatures, hexEncode key = s.publicKeyHex ∧ s.message.encode = .ok message

theorem Sample.unforgeable : Unforgeable env HasSigned := by
  intro key message signature h
  obtain ⟨s, hs, hmatch⟩ := List.any_eq_true.mp h
  rw [Bool.and_eq_true, Bool.and_eq_true, decide_eq_true_eq, decide_eq_true_eq] at hmatch
  exact ⟨s, hs, hmatch.1.1, hmatch.1.2⟩

/-- Task `i` returned a response to the request. -/
def Answered (w : World) (i : ℕ) (r : Request) : Prop :=
  (do
    let t ← w.tasks[i]?
    let q ← t.program
    let out ← q.outcome
    pure (t.request, out.isOk)) = some (r, true)

instance (w : World) (i : ℕ) (r : Request) : Decidable (Answered w i r) :=
  inferInstanceAs (Decidable (_ = _))

theorem Answered.exists_response {w : World} {i : ℕ} {r : Request} (h : Answered w i r) :
    ∃ t response, w.tasks[i]? = some t ∧ t.request = r ∧
      w.outcome i = some (.ok response) := by
  obtain ⟨t, ht, h⟩ := Option.bind_eq_some_iff.mp h
  obtain ⟨q, hq, h⟩ := Option.bind_eq_some_iff.mp h
  obtain ⟨out, hout, h⟩ := Option.bind_eq_some_iff.mp h
  cases out with
  | error e => cases h
  | ok response =>
    cases h
    refine ⟨t, response, ht, rfl, ?_⟩
    rw [Pool.outcome, ht]
    change (t.program.bind Program.outcome) = _
    rw [hq]
    exact hout

/-- An upload to Bob, and its download. -/
def Sample.fetch : List Label :=
  clockAt 1700000000 :: serve 0 (.register registerAlice) 3 ++ serve 1 (.register registerBob) 3 ++
    serve 2 (.createTransfer blobRequest) 15 1 ++
    serve 3 (.downloadTransfer transferId downloadRequest) 7

theorem Sample.fetch_answered : Answered (run Sample.env Sample.fetch) 3
    (.downloadTransfer Sample.transferId Sample.downloadRequest) := by
  rw [Sample.env_eq]
  decide +kernel

theorem request_authorisation_fetch :
    Answered (run Sample.env Sample.fetch) 3
        (.downloadTransfer Sample.transferId Sample.downloadRequest) ∧
      ∃ row ∈ (run Sample.env Sample.fetch).shared.db.transfers,
        row.transferId = Sample.transferId ∧
        Authorised Sample.HasSigned (run Sample.env Sample.fetch) 3 row.recipient
          (.transferReceiptBytes row.recipient Sample.transferId "download"
            Sample.downloadRequest.nonce Sample.downloadRequest.issuedAt) := by
  obtain ⟨t, response, ht, hreq, hout⟩ := Sample.fetch_answered.exists_response
  exact ⟨Sample.fetch_answered, (request_authorisation Sample.env Sample.HasSigned Sample.unforgeable
    Sample.fetch).2.1 3 t _ _ response ht hreq hout⟩

end AgentExchange.ControlPlane
