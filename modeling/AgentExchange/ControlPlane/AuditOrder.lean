import AgentExchange.ControlPlane.Delivery

/-!
# The order of the audit events of a transfer

`download_transfer` marks the row as accepted and appends a `TransferAccepted` event
whether or not the update changed the row. `ack_transfer` appends a `TransferDelivered`
event only if it did.
-/
namespace AgentExchange.ControlPlane

open Library Wire
open Program (lift ensure okOr)

/-- The event that the operation appended to the log. -/
def appended : Library.Event effects → Option Audit.Event
  | ⟨.auditAppend event, .ok _⟩ => some event
  | _ => none

def acceptedEvents (audit : List Audit.Event) (transferId : String) : ℕ :=
  audit.countP fun event => event.kind = .transferAccepted ∧ event.subject = transferId

/-- Task `i` appended a `TransferAccepted` event for the transfer. -/
def Announced (trace : Trace) (i : ℕ) (transferId : String) : Prop :=
  ∃ e ∈ trace, e.task = i ∧ ∃ event, appended e.event = some event ∧
    event.kind = .transferAccepted ∧ event.subject = transferId

/-- The update of task `i` changed the row to accepted. -/
def Marked (trace : Trace) (i : ℕ) (transferId : String) : Prop :=
  ∃ e ∈ trace, e.task = i ∧ Accepts transferId e.event

/-- The events of each transfer follow its state machine. -/
structure AuditOrdered (env : Env) (labels : List Label) : Prop where
  accepted : ∀ transferId, acceptedEvents (run env labels).shared.audit transferId ≤ 1
  delivered : ∀ transferId, deliveredEvents (run env labels).shared.audit transferId ≤ 1
  order : (run env labels).shared.audit.Pairwise fun event event' =>
    event.kind = .transferDelivered → event'.kind = .transferAccepted →
      event.subject ≠ event'.subject
  marked : ∀ i transferId, Announced (run env labels).trace i transferId →
    Marked (run env labels).trace i transferId
  announced : ∀ i out transferId, (run env labels).outcome i = some out →
    Marked (run env labels).trace i transferId → Announced (run env labels).trace i transferId

/-- The transfer that the operation announces as accepted. -/
def Op.announces : Op → Option String
  | .auditAppend event => if event.kind = .transferAccepted then some event.subject else none
  | _ => none

/-- Appends to the log succeed. -/
def appendsSucceed (w : World) : Label → Bool
  | .step i c =>
    match w.pending i with
    | some (.auditAppend _) => c.failure.isNone
    | _ => true
  | _ => true

def AppendsSucceed (w : World) (l : Label) : Prop := appendsSucceed w l = true

/-- A row is marked as accepted only where it is ready for pickup, and as delivered only where no
task is about to announce it as accepted. -/
def announcesInOrder (w : World) : Label → Bool
  | .step i c => c.failure.isSome ||
    match w.pending i with
    | some (.markAccepted transferId) => w.shared.db.transfers.any (acceptable transferId)
    | some (.markDelivered transferId) =>
      (List.range w.tasks.length).all fun j => (w.pending j).bind Op.announces ≠ some transferId
    | _ => true
  | _ => true

def AnnouncesInOrder (w : World) (l : Label) : Prop := announcesInOrder w l = true

instance (w : World) (l : Label) : Decidable (AppendsSucceed w l) :=
  inferInstanceAs (Decidable (_ = true))

instance (w : World) (l : Label) : Decidable (AnnouncesInOrder w l) :=
  inferInstanceAs (Decidable (_ = true))

/-! ## Announcements follow their marks -/

/-- The transfer that a successful update was to mark as accepted. -/
def Op.accepts : (op : Op) → op.Answer → Option String
  | .markAccepted transferId, .ok _ => some transferId
  | _, _ => none

def acceptances : Discipline effects String where
  leaves e := e.op.accepts e.answer
  settles transferId op := ∃ event, op = .auditAppend event ∧ event.kind = .transferAccepted ∧
    event.subject = transferId ∧ Audit.isObject event.payload = true
  reserved op := op.announces ≠ none

theorem Op.accepts_eq_some {op : Op} {answer : op.Answer} {transferId : String}
    (h : op.accepts answer = some transferId) :
    ∃ updated, (⟨op, answer⟩ : Library.Event effects) = ⟨.markAccepted transferId, .ok updated⟩ := by
  unfold Op.accepts at h
  split at h
  · cases h
    exact ⟨_, rfl⟩
  · cases h

/-- Everything but the append of a `TransferAccepted` event and the update before it. -/
theorem acceptances_idle {op : Op} (haudit : op.announces = none)
    (hmark : ∀ transferId, op ≠ .markAccepted transferId) : acceptances.Idle op := by
  refine ⟨fun hne => hne haudit, fun answer => ?_⟩
  by_contra hsome
  obtain ⟨transferId, h⟩ := Option.ne_none_iff_exists'.mp hsome
  obtain ⟨updated, heq⟩ := Op.accepts_eq_some h
  exact hmark transferId (congrArg Library.Event.op heq)

theorem Op.Aside.acceptances_idle (op : Op) (h : op.Aside) : acceptances.Idle op := by
  refine ControlPlane.acceptances_idle ?_ ?_
  · cases op with
    | auditAppend event => exact if_neg h.1
    | _ => rfl
  · rintro transferId rfl
    exact h

theorem createBlob_acceptances {env : Env} (req : CreateTransferRequest) (sender : AgentId)
    (senderRow : AgentRow) : (createBlob env req sender senderRow).Only acceptances.Idle := by
  have aside {op : Op} (h : op.Aside) : (ask op).Only acceptances.Idle :=
    Program.only_call (h.acceptances_idle op)
  have warn {event : Audit.Event} (haccepted : event.kind ≠ .transferAccepted)
      (hdelivered : event.kind ≠ .transferDelivered) :
      (auditWarn event).Only acceptances.Idle :=
    (auditWarn_aside haccepted hdelivered).mono Op.Aside.acceptances_idle
  unfold createBlob
  refine .bind (Program.only_lift _) fun blob => ?_
  refine .bind (Program.only_lift _) fun signature => ?_
  refine .bind (Program.only_lift _) fun canonical => ?_
  refine .bind (aside trivial) fun now => ?_
  refine .bind ((verifyWithValidKeys_reads _ _ _ _).mono
    fun op h => (h.aside op).acceptances_idle op) fun _ => ?_
  refine .bind (aside trivial) fun fresh => ?_
  refine .bind (Program.only_lift _) fun fresh => ?_
  refine .bind (Program.only_ensure _ _) fun _ => ?_
  refine .bind (aside trivial) fun id => ?_
  refine .bind (warn nofun nofun) fun _ => ?_
  refine .bind (aside trivial) fun preDecision => ?_
  refine .bind (warn nofun nofun) fun _ => ?_
  split
  · exact .bind ((persistRejected_aside req sender _ _ _ _ _ _ _).mono
      Op.Aside.acceptances_idle) fun _ => trivial
  refine .bind (aside trivial) fun verdict => ?_
  refine .bind (warn nofun nofun) fun _ => ?_
  refine .bind (aside trivial) fun postDecision => ?_
  refine .bind (warn nofun nofun) fun _ => ?_
  split
  · exact .bind ((persistRejected_aside req sender _ _ _ _ _ _ _).mono
      Op.Aside.acceptances_idle) fun _ => trivial
  · refine .bind (Program.only_call (acceptances_idle rfl nofun)) fun put => ?_
    refine .bind (Program.only_lift _) fun _ => ?_
    refine .bind (.bind (Program.only_call (acceptances_idle rfl nofun)) fun _ =>
      Program.only_lift _) fun row => trivial

theorem createTransfer_acceptances {env : Env} (req : CreateTransferRequest) :
    (createTransfer env req).Only acceptances.Idle := by
  have aside {op : Op} (h : op.Aside) : (ask op).Only acceptances.Idle :=
    Program.only_call (h.acceptances_idle op)
  unfold createTransfer
  refine .bind (Program.only_lift _) fun sender => ?_
  refine .bind (aside trivial) fun found => ?_
  refine .bind (Program.only_lift _) fun found => ?_
  refine .bind (Program.only_okOr _ _) fun senderRow => ?_
  refine .bind (Program.only_ensure _ _) fun _ => ?_
  refine .bind (checkNonce_only _ _) fun _ => ?_
  refine .bind ((checkSkew_reads _ _).mono fun op h => (h.aside op).acceptances_idle op)
    fun _ => ?_
  split
  · exact (createReachable_aside req sender _).mono Op.Aside.acceptances_idle
  · split
    · exact (createTunnel_aside req sender _).mono Op.Aside.acceptances_idle
    · exact createBlob_acceptances req sender senderRow

theorem ackTransfer_acceptances {env : Env} (transferId : String)
    (req : RecipientReceiptRequest) : (ackTransfer env transferId req).Only acceptances.Idle := by
  unfold ackTransfer
  refine .bind ((verifyRecipientReceipt_reads _ _ _).mono
    fun op h => (h.aside op).acceptances_idle op) fun _ => ?_
  refine .bind (Program.only_call (acceptances_idle rfl nofun)) fun marked => ?_
  refine .bind (Program.only_lift _) fun updated => ?_
  refine .bind (Program.only_ensure _ _) fun _ => ?_
  refine .bind (Program.only_call (acceptances_idle rfl nofun)) fun appended => ?_
  refine .bind (Program.only_lift _) fun receipt => ?_
  exact .bind (Program.only_call (acceptances_idle rfl nofun)) fun _ => trivial

/-- The update and its announcement, one right after the other. -/
theorem downloadTransfer_acceptances {env : Env} (transferId : String)
    (req : RecipientReceiptRequest) :
    (downloadTransfer env transferId req).Spec acceptances.Next acceptances.Done [] := by
  unfold downloadTransfer
  refine Discipline.spec_idle_bind ((verifyRecipientReceipt_reads _ _ _).mono
    fun op h => (h.aside op).acceptances_idle op) rfl fun row past₁ h₁ => ?_
  refine Discipline.spec_idle_bind (Program.only_ensure _ _) h₁ fun _ past₂ h₂ => ?_
  refine Discipline.spec_idle_bind (Program.only_ensure _ _) h₂ fun _ past₃ h₃ => ?_
  refine Discipline.spec_idle_bind (Program.only_call (acceptances_idle rfl nofun)) h₃
    fun bytes past₄ h₄ => ?_
  refine Discipline.spec_idle_bind (Program.only_lift _) h₄ fun bytes past₅ h₅ => ?_
  rw [Program.spec_call_bind]
  refine ⟨?_, fun marked => ?_⟩
  · rw [Discipline.Next, h₅]
    exact fun hne => hne rfl
  cases marked with
  | error e => exact Discipline.owed_snoc _ _ _
  | ok updated =>
    refine ⟨Discipline.next_of_owed (Discipline.owed_snoc _ _ _) ⟨_, rfl, rfl, rfl, rfl⟩, ?_⟩
    intro answer
    exact Discipline.owed_snoc _ _ _

theorem handler_acceptances (env : Env) (r : Request) :
    ((semantics env).handler r).Spec acceptances.Next acceptances.Done [] := by
  have aside {α : Type} {p : Prog α} {f : α → Response} (h : p.Only Op.Aside) :
      (do pure (f (← p)) : Prog Response).Spec acceptances.Next acceptances.Done [] :=
    Discipline.spec_idle_bind (h.mono Op.Aside.acceptances_idle) rfl fun _ _ h => h
  cases r with
  | register req => exact aside (register_aside req)
  | getAgent agentId => exact aside ((getAgent_only agentId).mono Op.Plain.aside)
  | rotateKey req => exact aside (rotateKey_aside req)
  | createTransfer req =>
    exact Discipline.spec_idle_bind (createTransfer_acceptances req) rfl fun _ _ h => h
  | getTransfer transferId => exact aside ((getTransfer_only transferId).mono Op.Plain.aside)
  | downloadTransfer transferId req =>
    refine Program.spec_bind.mpr ((downloadTransfer_acceptances transferId req).mono
      (fun _ _ h => h) ?_)
    intro past out h
    cases out <;> exact h
  | ackTransfer transferId req =>
    exact Discipline.spec_idle_bind (ackTransfer_acceptances transferId req) rfl fun _ _ h => h
  | issueTicket transferId req => exact aside (issueTicket_aside transferId req)
  | listInbox req => exact aside ((listInbox_reads req).mono Op.Reads.aside)
  | tick => exact aside (tick_only.mono Op.Plain.aside)

/-! ## The log and the table along a run -/

section Runs

variable (env : Env) (labels : List Label)

/-- The log holds what was appended, in order. -/
theorem run_audit :
    (run env labels).shared.audit = (run env labels).trace.filterMap fun e => appended e.event := by
  refine run_invariant env labels
    (J := fun trace s => s.audit = trace.filterMap fun e => appended e.event) rfl ?_
    fun _ _ _ h => h
  intro trace s i r op c _ h
  rw [List.filterMap_append, ← h]
  cases op with
  | auditAppend event =>
    rcases State.appendAudit_cases s c event with ⟨e, -, he⟩ | ⟨-, he⟩ <;>
      simp [exec, he, appended]
  | _ =>
    rw [exec_audit_frame (by simp [Op.writes])]
    exact (List.append_nil _).symm

/-- The update that took effect found the row ready for pickup. -/
theorem Accepts.ready {env : Env} {s : State} {op : Op} {c : Choice} {transferId : String}
    (h : Accepts transferId ⟨op, (exec env s op c).1⟩) :
    ∃ row ∈ s.db.transfers, row.transferId = transferId ∧ row.state = .readyForPickup := by
  obtain ⟨updated, hne, heq⟩ := h
  have hstep := exec_tableStep env s op c
  obtain rfl := congrArg Library.Event.op heq
  rw [eq_of_heq (Library.Event.mk.inj heq).2] at hstep
  generalize (exec env s (.markAccepted transferId) c).2.db.transfers = rows at hstep
  cases hstep with
  | quiet hop => exact absurd rfl hop
  | failed hfailed => exact hfailed.elim
  | accept =>
    obtain ⟨row, hrow, hacceptable⟩ := List.countP_pos_iff.mp (Nat.pos_of_ne_zero hne)
    exact ⟨row, hrow, acceptable_iff.mp hacceptable⟩

/-- A row that was accepted is not ready for pickup any more. -/
theorem TableStep.not_ready {now : Timestamp} {rows rows' : List TransferRow} {op : Op}
    {answer : op.Answer} (h : TableStep now rows op answer rows')
    (hrows : ∀ row ∈ rows, row.acceptedAt.isSome → row.state ≠ .readyForPickup) :
    ∀ row ∈ rows', row.acceptedAt.isSome → row.state ≠ .readyForPickup := by
  cases h with
  | quiet _ => exact hrows
  | failed _ => exact hrows
  | insert t _ =>
    intro row hrow
    rcases List.mem_append.mp hrow with hrow | hrow
    · exact hrows row hrow
    · rw [List.mem_singleton.mp hrow]
      nofun
  | accept transferId =>
    intro row hrow
    obtain ⟨old, hold, rfl⟩ := List.mem_map.mp hrow
    unfold acceptRow
    split_ifs
    · nofun
    · exact hrows old hold
  | deliver transferId =>
    intro row hrow
    obtain ⟨old, hold, rfl⟩ := List.mem_map.mp hrow
    unfold deliverRow
    split_ifs
    · nofun
    · exact hrows old hold
  | persist transferId endpoints _ =>
    intro row hrow
    obtain ⟨old, hold, rfl⟩ := List.mem_map.mp hrow
    unfold persistRow
    split_ifs <;> exact hrows old hold

/-- Rows are changed to accepted at most once. -/
structure AcceptedOnce (trace : Trace) (rows : List TransferRow) : Prop where
  table : Table trace rows
  notReady : ∀ row ∈ rows, row.acceptedAt.isSome → row.state ≠ .readyForPickup
  once : trace.Pairwise fun e e' => ∀ transferId, Accepts transferId e.event →
    ¬Accepts transferId e'.event

theorem run_acceptedOnce :
    AcceptedOnce (run env labels).trace (run env labels).shared.db.transfers := by
  refine run_invariant env labels (J := fun trace s => AcceptedOnce trace s.db.transfers) ?_ ?_
    fun _ _ _ h => h
  · refine ⟨table_nil, fun row hrow => ?_, .nil⟩
    cases hrow
  intro trace s i r op c hop h
  have hstep := exec_tableStep env s op c
  refine ⟨h.table.step _ s.dbNow hstep ?_, hstep.not_ready h.notReady, ?_⟩
  · rintro t rfl
    obtain ⟨req, -, hadmitted⟩ := hop
    exact hadmitted.state
  · refine pairwise_snoc.mpr ⟨h.once, fun e he transferId hfirst hsecond => ?_⟩
    obtain ⟨row, hrow, rfl, hstate⟩ := hsecond.ready
    exact h.notReady row hrow ((h.table.accepted row hrow).mpr ⟨e, he, hfirst⟩) hstate

theorem reserved_of_records {op : Op} {transferId : String} (h : op.records = some transferId) :
    (duties env).reserved op := by
  obtain ⟨event, rfl, -, -⟩ := Op.records_eq_some h
  change (Op.auditAppend event).records ≠ none
  rw [h]
  exact Option.some_ne_none transferId

/-- A recorded delivery was marked before. -/
theorem delivers_of_records {e : Entry effects State Request} (he : e ∈ (run env labels).trace)
    {transferId : String} (hrecords : e.event.op.records = some transferId) :
    ∃ m ∈ (run env labels).trace, Delivers transferId m.event := by
  obtain ⟨past, rest, htrace⟩ := List.append_of_mem he
  obtain ⟨d, howed, hsettles⟩ := Pool.owed_of_reserved (handler_duties env)
    (Pool.run_conforms (semantics env) {} labels) htrace (reserved_of_records env hrecords)
  obtain ⟨event, hop, hkind, rfl⟩ := Op.records_eq_some hrecords
  rw [hop] at hsettles
  obtain ⟨m, hm, hleaves⟩ := Discipline.exists_leaves_of_owed howed
  obtain ⟨entry, hentry, -, rfl⟩ := Pool.mem_eventsOf.mp hm
  cases d with
  | insert transferId blob =>
    obtain ⟨t, ht, -⟩ := hsettles
    cases ht
  | record transferId =>
    obtain ⟨event', heq, -, hsubject, -⟩ := hsettles
    cases heq
    rw [hsubject]
    exact ⟨entry, htrace ▸ List.mem_append_left _ hentry, leaves_record_iff.mp hleaves⟩
  | discard transferId => cases hsettles

theorem appended_eq_some {x : Library.Event effects} {event : Audit.Event}
    (h : appended x = some event) : x.op = .auditAppend event := by
  unfold appended at h
  split at h
  · cases h
    rfl
  · cases h

theorem reserved_of_announces {op : Op} {transferId : String}
    (h : op.announces = some transferId) : acceptances.reserved op := by
  change op.announces ≠ none
  rw [h]
  exact Option.some_ne_none transferId

/-- No announcement is due or made for a transfer that is delivered. -/
structure InOrder (pending : ℕ → Option Op) (trace : Trace) : Prop where
  due : ∀ transferId j, (pending j).bind Op.announces = some transferId →
    ∀ e ∈ trace, ¬Delivers transferId e.event
  order : trace.Pairwise fun e e' => ∀ event event', appended e.event = some event →
    appended e'.event = some event' → event.kind = .transferDelivered →
      event'.kind = .transferAccepted → event.subject ≠ event'.subject

/-- A step that took effect met its condition. -/
theorem AnnouncesInOrder.of_ok {w : World} {i : ℕ} {c : Choice} {op : Op}
    (h : AnnouncesInOrder w (.step i c)) (hi : w.pending i = some op) (hfailure : c.failure = none) :
    (∀ transferId, op = .markAccepted transferId →
      ∃ row ∈ w.shared.db.transfers, acceptable transferId row = true) ∧
    ∀ transferId, op = .markDelivered transferId →
      ∀ j, (w.pending j).bind Op.announces ≠ some transferId := by
  simp only [AnnouncesInOrder, announcesInOrder, hi, hfailure, Option.isSome_none,
    Bool.false_or] at h
  constructor
  · rintro transferId rfl
    exact List.any_eq_true.mp h
  · rintro transferId rfl j hj
    have hlt : j < w.tasks.length := by
      by_contra hge
      rw [Pool.pending, List.getElem?_eq_none (Nat.le_of_not_lt hge)] at hj
      cases hj
    have hall := List.all_eq_true.mp h j (List.mem_range.mpr hlt)
    exact absurd hj (of_decide_eq_true hall)

/-- Statements answer with an error where the world makes them fail. -/
theorem failure_eq_none {env : Env} {s : State} {op : Op} {c : Choice} {updated : ℕ}
    {transferId : String}
    (h : (⟨op, (exec env s op c).1⟩ : Library.Event effects) =
        ⟨.markAccepted transferId, .ok updated⟩ ∨
      (⟨op, (exec env s op c).1⟩ : Library.Event effects) =
        ⟨.markDelivered transferId, .ok updated⟩) : c.failure = none := by
  have hwrite : ∀ out : Except SqlxError (ℕ × Db), (s.write c out).1 = .ok updated →
      c.failure = none := by
    intro out hok
    unfold State.write at hok
    cases hfailure : c.failure with
    | none => rfl
    | some message =>
      rw [hfailure] at hok
      cases hok
  rcases h with h | h
  · obtain rfl := congrArg Library.Event.op h
    exact hwrite _ (eq_of_heq (Library.Event.mk.inj h).2)
  · obtain rfl := congrArg Library.Event.op h
    exact hwrite _ (eq_of_heq (Library.Event.mk.inj h).2)

/-- A task that is to announce a transfer next has just found its row ready for pickup. -/
theorem ready_of_next {env : Env} {w : World} {i : ℕ} {c : Choice} {op : Op} {next : Option Op}
    (hcond : AnnouncesInOrder w (.step i c)) (hi : w.pending i = some op)
    (hafter : acceptances.After ⟨op, (exec env w.shared op c).1⟩ next) {transferId : String}
    (hnext : next.bind Op.announces = some transferId) :
    op = .markAccepted transferId ∧
      ∃ row ∈ w.shared.db.transfers, row.transferId = transferId ∧ row.state = .readyForPickup := by
  obtain ⟨op', rfl, hop'⟩ := Option.bind_eq_some_iff.mp hnext
  cases hleaves : acceptances.leaves ⟨op, (exec env w.shared op c).1⟩ with
  | none => exact absurd (reserved_of_announces hop') (hafter.free hleaves op' rfl)
  | some d =>
    obtain ⟨op'', heq, event, rfl, hkind, hsubject, -⟩ := hafter.settles d hleaves
    cases heq
    rw [Op.announces, if_pos hkind, hsubject] at hop'
    cases hop'
    obtain ⟨updated, hevent⟩ := Op.accepts_eq_some hleaves
    have hop : op = .markAccepted transferId := congrArg Library.Event.op hevent
    obtain ⟨row, hrow, hacceptable⟩ :=
      (hcond.of_ok hi (failure_eq_none (.inl hevent))).1 transferId hop
    exact ⟨hop, row, hrow, acceptable_iff.mp hacceptable⟩

theorem run_inOrder (h : Pool.Along (semantics env) {} AnnouncesInOrder labels) :
    InOrder (run env labels).pending (run env labels).trace := by
  refine Pool.run_pending_induction (handler_acceptances env)
    (J := fun pending trace _ => InOrder pending trace) ⟨nofun, .nil⟩ ?_ ?_ ?_
    (fun _ _ hJ => hJ) labels h
  · intro w i next hnone hfree hJ
    refine ⟨fun transferId j hj => ?_, hJ.order⟩
    by_cases hji : j = i
    · subst hji
      rw [Function.update_self] at hj
      obtain ⟨op, rfl, hop⟩ := Option.bind_eq_some_iff.mp hj
      exact absurd (reserved_of_announces hop) (hfree op rfl)
    · rw [Function.update_of_ne hji] at hj
      exact hJ.due transferId j hj
  · intro labels i c r op next w hi hcond hafter hJ
    have htable := run_table env labels
    constructor
    · intro transferId j hj e he hdelivers
      by_cases hji : j = i
      · rw [hji, Function.update_self] at hj
        obtain ⟨rfl, row, hrow, rfl, hstate⟩ := ready_of_next hcond hi hafter hj
        rcases List.mem_append.mp he with he | he
        · have hdelivered := (htable.delivered row hrow).mpr ⟨e, he, hdelivers⟩
          rw [hstate] at hdelivered
          cases hdelivered
        · rw [List.mem_singleton.mp he] at hdelivers
          obtain ⟨updated, -, hevent⟩ := hdelivers
          cases congrArg Library.Event.op hevent
      · rw [Function.update_of_ne hji] at hj
        rcases List.mem_append.mp he with he | he
        · exact hJ.due transferId j hj e he hdelivers
        · rw [List.mem_singleton.mp he] at hdelivers
          obtain ⟨updated, -, hevent⟩ := hdelivers
          exact (hcond.of_ok hi (failure_eq_none (.inr hevent))).2 transferId
            (congrArg Library.Event.op hevent) j hj
    · refine pairwise_snoc.mpr ⟨hJ.order, fun e he event event' happ happ' hkind hkind' heq => ?_⟩
      have hop : op = .auditAppend event' := appended_eq_some happ'
      have hrecords : e.event.op.records = some event.subject := by
        rw [appended_eq_some happ, Op.records, if_pos hkind]
      obtain ⟨m, hm, hdelivers⟩ := delivers_of_records env labels he hrecords
      refine hJ.due event.subject i ?_ m hm hdelivers
      rw [hi, hop, Option.bind_some, Op.announces, if_pos hkind', heq]
  · intro w i _ hJ
    refine ⟨fun transferId j hj => ?_, hJ.order⟩
    by_cases hji : j = i
    · subst hji
      rw [Function.update_self] at hj
      cases hj
    · rw [Function.update_of_ne hji] at hj
      exact hJ.due transferId j hj

/-- Every update of a download changed the row. -/
theorem accepts_of_leaves (h : Pool.Along (semantics env) {} AnnouncesInOrder labels)
    {e : Entry effects State Request} (he : e ∈ (run env labels).trace) {transferId : String}
    (hleaves : acceptances.leaves e.event = some transferId) : Accepts transferId e.event := by
  obtain ⟨past, rest, htrace⟩ := List.append_of_mem he
  refine Pool.Along.performed _ h (K := fun _ e => acceptances.leaves e.event = some transferId →
    Accepts transferId e.event) ?_ htrace hleaves
  intro w i c r op k hi hcond hleaves
  obtain ⟨updated, hevent⟩ := Op.accepts_eq_some hleaves
  obtain rfl : op = .markAccepted transferId := congrArg Library.Event.op hevent
  have hok : (exec env w.shared (.markAccepted transferId) c).1 = .ok updated :=
    eq_of_heq (Library.Event.mk.inj hevent).2
  obtain ⟨row, hrow, hacceptable⟩ :=
    (hcond.of_ok (Pool.pending_eq_some hi) (failure_eq_none (.inl hevent))).1 transferId rfl
  refine ⟨updated, ?_, hevent⟩
  have hstep := exec_tableStep env w.shared (.markAccepted transferId) c
  rw [hok] at hstep
  generalize (exec env w.shared (.markAccepted transferId) c).2.db.transfers = rows at hstep
  cases hstep with
  | quiet hop => exact absurd rfl hop
  | failed hfailed => exact hfailed.elim
  | accept => exact (List.countP_pos_iff.mpr ⟨row, hrow, hacceptable⟩).ne'

/-- Two events of the log that a property of their operations keeps apart. -/
theorem countP_audit_le_one {P : Audit.Event → Bool}
    (h : (run env labels).trace.Pairwise fun e e' =>
      ∀ event event', e.event.op = .auditAppend event → e'.event.op = .auditAppend event' →
        P event = true → P event' = false) :
    (run env labels).shared.audit.countP P ≤ 1 := by
  rw [run_audit]
  generalize (run env labels).trace = trace at h
  induction h with
  | nil => exact Nat.zero_le _
  | @cons e rest hhead _ ih =>
    rw [List.filterMap_cons]
    cases happ : appended e.event with
    | none => exact ih
    | some event =>
      rw [List.countP_cons]
      split_ifs with hP
      · refine (Nat.add_le_add_right (Nat.le_of_eq (List.countP_eq_zero.mpr ?_)) 1)
        intro event' hevent'
        obtain ⟨e', he', happ'⟩ := List.mem_filterMap.mp hevent'
        rw [hhead e' he' event event' (appended_eq_some happ) (appended_eq_some happ') hP]
        nofun
      · exact ih

theorem deliveredEvents_le_one (transferId : String) :
    deliveredEvents (run env labels).shared.audit transferId ≤ 1 := by
  have honce := Pool.settled_once (handler_duties env)
    (Pool.run_conforms (semantics env) {} labels) (d := .record transferId)
    (Q := fun op => op.records = some transferId) ?_ (fun op => reserved_of_records env) ?_
  · refine countP_audit_le_one env labels (honce.imp fun h event event' hop hop' hP => ?_)
    rw [hop, hop'] at h
    simp only [decide_eq_true_eq] at hP
    simp only [decide_eq_false_iff_not]
    rintro ⟨hkind', hsubject'⟩
    refine h ?_ ?_
    · rw [Op.records, if_pos hP.1, hP.2]
    · rw [Op.records, if_pos hkind', hsubject']
  · refine (run_table env labels).deliveredOnce.imp fun h hleaves hleaves' => ?_
    exact h transferId (leaves_record_iff.mp hleaves) (leaves_record_iff.mp hleaves')
  · intro op d hrecords hsettles
    obtain ⟨event, rfl, hkind, rfl⟩ := Op.records_eq_some hrecords
    cases d with
    | insert transferId blob =>
      obtain ⟨t, ht, -⟩ := hsettles
      cases ht
    | record transferId =>
      obtain ⟨event', heq, -, hsubject, -⟩ := hsettles
      cases heq
      rw [hsubject]
    | discard transferId => cases hsettles

theorem settles_announces {op : Op} {transferId d : String} (h : op.announces = some transferId)
    (hsettles : acceptances.settles d op) : d = transferId := by
  obtain ⟨event, rfl, hkind, hsubject, -⟩ := hsettles
  rw [Op.announces, if_pos hkind, hsubject] at h
  exact Option.some.inj h

theorem acceptedEvents_le_one (h : Pool.Along (semantics env) {} AnnouncesInOrder labels)
    (transferId : String) : acceptedEvents (run env labels).shared.audit transferId ≤ 1 := by
  have honce := Pool.settled_once (handler_acceptances env)
    (Pool.run_conforms (semantics env) {} labels) (d := transferId)
    (Q := fun op => op.announces = some transferId) ?_ (fun op => reserved_of_announces)
    fun op d => settles_announces
  · refine countP_audit_le_one env labels (honce.imp fun h event event' hop hop' hP => ?_)
    rw [hop, hop'] at h
    simp only [decide_eq_true_eq] at hP
    simp only [decide_eq_false_iff_not]
    rintro ⟨hkind', hsubject'⟩
    refine h ?_ ?_
    · rw [Op.announces, if_pos hP.1, hP.2]
    · rw [Op.announces, if_pos hkind', hsubject']
  · refine ((run_acceptedOnce env labels).once.imp_of_mem fun he he' h hleaves hleaves' => ?_)
    exact h transferId (accepts_of_leaves env labels ‹_› he hleaves)
      (accepts_of_leaves env labels ‹_› he' hleaves')

/-- Appends that the world lets through are answered. -/
theorem appended_of_settles (h : Pool.Along (semantics env) {} AppendsSucceed labels)
    {e : Entry effects State Request} (he : e ∈ (run env labels).trace) {transferId : String}
    (hsettles : acceptances.settles transferId e.event.op) :
    ∃ event, appended e.event = some event ∧ event.kind = .transferAccepted ∧
      event.subject = transferId := by
  obtain ⟨past, rest, htrace⟩ := List.append_of_mem he
  refine Pool.Along.performed _ h (K := fun _ e => acceptances.settles transferId e.event.op →
    ∃ event, appended e.event = some event ∧ event.kind = .transferAccepted ∧
      event.subject = transferId) ?_ htrace hsettles
  rintro w i c r op k hi hcond ⟨event, rfl, hkind, hsubject, hobject⟩
  have hfailure : c.failure = none := by
    simpa [AppendsSucceed, appendsSucceed, Pool.pending_eq_some hi] using hcond
  rcases State.appendAudit_cases w.shared c event with ⟨e, hfailed, -⟩ | ⟨-, hok⟩
  · rw [hfailed hfailure] at hobject
    cases hobject
  · exact ⟨event, by simp [semantics, exec, hok, appended], hkind, hsubject⟩

/-- In every run in which appends succeed, rows are marked as accepted where they are ready for
pickup and as delivered where no announcement is due, the audit events of each transfer follow
its state machine. -/
theorem audit_ordered (happends : Pool.Along (semantics env) {} AppendsSucceed labels)
    (horder : Pool.Along (semantics env) {} AnnouncesInOrder labels) : AuditOrdered env labels := by
  have hconforms := Pool.run_conforms (semantics env) {} labels
  refine ⟨acceptedEvents_le_one env labels horder, deliveredEvents_le_one env labels, ?_, ?_, ?_⟩
  · rw [run_audit, List.pairwise_filterMap]
    exact (run_inOrder env labels horder).order.imp fun h event happ event' happ' =>
      h event event' happ happ'
  · rintro i transferId ⟨e, he, rfl, event, happ, hkind, rfl⟩
    obtain ⟨past, rest, htrace⟩ := List.append_of_mem he
    have hannounces : e.event.op.announces = some event.subject := by
      rw [appended_eq_some happ, Op.announces, if_pos hkind]
    obtain ⟨d, howed, hsettles⟩ := Pool.owed_of_reserved (handler_acceptances env) hconforms htrace
      (reserved_of_announces hannounces)
    obtain rfl := settles_announces hannounces hsettles
    obtain ⟨x, hx, hleaves⟩ := Discipline.exists_leaves_of_owed howed
    obtain ⟨m, hm, htask, rfl⟩ := Pool.mem_eventsOf.mp hx
    have hmem : m ∈ (run env labels).trace := by
      rw [htrace]
      exact List.mem_append_left _ hm
    exact ⟨m, hmem, htask, accepts_of_leaves env labels horder hmem hleaves⟩
  · rintro i out transferId hout ⟨m, hm, rfl, hmark⟩
    obtain ⟨t, ht, -⟩ := hconforms.request m hm
    have hleaves : acceptances.leaves m.event = some transferId := by
      obtain ⟨updated, -, hevent⟩ := hmark
      rw [hevent]
      rfl
    obtain ⟨e, he, htask, hsettles⟩ :=
      Pool.settled_of_outcome (handler_acceptances env) hconforms hm hleaves ht hout
    exact ⟨e, he, htask, appended_of_settles env labels happends he hsettles⟩

end Runs

namespace Sample

/-- An upload to Bob, and the first `n` operations of its download. -/
def downloaded (n : ℕ) : List Label :=
  clockAt 1700000000 :: serve 0 (.register registerAlice) 3 ++ serve 1 (.register registerBob) 3 ++
    serve 2 (.createTransfer blobRequest) 15 1 ++
    serve 3 (.downloadTransfer transferId downloadRequest) n

def pickedUp : List Label :=
  downloaded 7 ++ serve 4 (.ackTransfer transferId ackRequest) 7

/-- The bytes are downloaded once more. -/
def downloadedTwice : List Label :=
  downloaded 7 ++ serve 4 (.downloadTransfer transferId downloadRequest) 7

/-- The acknowledgement overtakes the last operation of the download. -/
def overtaken : List Label :=
  downloaded 6 ++ serve 4 (.ackTransfer transferId ackRequest) 7 ++ [.step 3 {}]

end Sample

/-- The three runs, which have the upload and most of the download in common. -/
theorem Sample.pickedUp_runs :
    Pool.AlongTo (semantics Sample.ackEnv) (fun w l => AppendsSucceed w l ∧ AnnouncesInOrder w l)
      (fun w => (w.shared.audit.map (·.kind)).drop 4 = [.transferAccepted, .transferDelivered])
      ⟨{}, [], []⟩ Sample.pickedUp ∧
    Pool.AlongTo (semantics Sample.ackEnv) AppendsSucceed
      (fun w => acceptedEvents w.shared.audit Sample.transferId = 2) ⟨{}, [], []⟩
      Sample.downloadedTwice ∧
    Pool.AlongTo (semantics Sample.ackEnv) AppendsSucceed
      (fun w => (w.shared.audit.map fun event => (event.kind, event.subject)).drop 4 =
        [(.transferDelivered, Sample.transferId), (.transferAccepted, Sample.transferId)])
      ⟨{}, [], []⟩ Sample.overtaken := by
  rw [Sample.ackEnv_eq]
  decide +kernel

theorem audit_ordered_pickedUp :
    ((run Sample.ackEnv Sample.pickedUp).shared.audit.map (·.kind)).drop 4 =
      [.transferAccepted, .transferDelivered] ∧
    AuditOrdered Sample.ackEnv Sample.pickedUp := by
  obtain ⟨halong, hkinds⟩ := run_checked Sample.pickedUp_runs.1
  exact ⟨hkinds, audit_ordered _ _ (halong.mono _ fun _ _ h => h.1) (halong.mono _ fun _ _ h => h.2)⟩

/-- The last two events are a delivery and then an acceptance of the transfer. -/
theorem not_auditOrdered_of_late {env : Env} {labels : List Label} (n : ℕ) (transferId : String)
    (h : ((run env labels).shared.audit.map fun event => (event.kind, event.subject)).drop n =
      [(.transferDelivered, transferId), (.transferAccepted, transferId)]) :
    ¬AuditOrdered env labels := by
  intro hordered
  have hmap : ((run env labels).shared.audit.map fun event => (event.kind, event.subject)).Pairwise
      fun a b => a.1 = .transferDelivered → b.1 = .transferAccepted → a.2 ≠ b.2 :=
    List.pairwise_map.mpr hordered.order
  have hlast := hmap.sublist (List.drop_sublist n _)
  rw [h] at hlast
  exact List.rel_of_pairwise_cons hlast (List.mem_singleton_self _) rfl rfl rfl

/-- A second download is announced again though it changes no row, and an acknowledgement can be
recorded before the download that it follows. -/
theorem audit_not_ordered :
    (Pool.Along (semantics Sample.ackEnv) {} AppendsSucceed Sample.downloadedTwice ∧
      ¬AuditOrdered Sample.ackEnv Sample.downloadedTwice) ∧
    Pool.Along (semantics Sample.ackEnv) {} AppendsSucceed Sample.overtaken ∧
      ¬AuditOrdered Sample.ackEnv Sample.overtaken := by
  obtain ⟨-, htwice, hlate⟩ := Sample.pickedUp_runs
  obtain ⟨hsucceed, hlast⟩ := run_checked hlate
  obtain ⟨hsucceed', htwo⟩ := run_checked htwice
  refine ⟨⟨hsucceed', fun h => ?_⟩, hsucceed, not_auditOrdered_of_late 4 Sample.transferId hlast⟩
  have hone := h.accepted Sample.transferId
  rw [htwo] at hone
  exact absurd hone (by decide)

end AgentExchange.ControlPlane
