import AgentExchange.ControlPlane.Duties
import AgentExchange.ControlPlane.Lifecycle

/-!
# Deliveries and the audit log

`ack_transfer` marks the row and appends the `TransferDelivered` event in two steps.
The row and the log agree as long as no acknowledgement is dropped between the two
and the append does not fail; an acknowledgement that is then answered with an error
has written neither.
-/
namespace AgentExchange.ControlPlane

open Library Wire
open Program (lift ensure okOr)

def Delivered (db : Db) (transferId : String) : Prop :=
  ∃ row ∈ db.transfers, row.transferId = transferId ∧ row.state = .delivered

/-- How many `TransferDelivered` events the log holds for the transfer. -/
def deliveredEvents (audit : List Audit.Event) (transferId : String) : ℕ :=
  audit.countP fun event => event.kind = .transferDelivered ∧ event.subject = transferId

/-- Task `i` has marked the transfer as delivered and is about to record it. -/
def Recording (pending : ℕ → Option Op) (transferId : String) (i : ℕ) : Prop :=
  (pending i).bind Op.records = some transferId

/-- Deliveries and their events agree wherever no task is between the two steps, and an
acknowledgement that ends in an error has changed neither the table nor the log. -/
structure DeliveryAudited (env : Env) (labels : List Label) : Prop where
  agree : ∀ transferId, (∀ i, ¬Recording (run env labels).pending transferId i) →
    (Delivered (run env labels).shared.db transferId ↔
      deliveredEvents (run env labels).shared.audit transferId = 1)
  kept : ∀ i t transferId req e, (run env labels).tasks[i]? = some t →
    t.request = .ackTransfer transferId req → (run env labels).outcome i = some (.error e) →
    ∀ done c rest, labels = done ++ .step i c :: rest →
      (run env (done ++ [.step i c])).shared.db.transfers = (run env done).shared.db.transfers ∧
      (run env (done ++ [.step i c])).shared.audit = (run env done).shared.audit

/-- The label neither drops a task about to record a delivery nor lets the append fail. -/
def recordsDeliveries (w : World) : Label → Bool
  | .step i c => ((w.pending i).bind Op.records).isNone || c.failure.isNone
  | .cancel i => ((w.pending i).bind Op.records).isNone
  | _ => true

def RecordsDeliveries (w : World) (l : Label) : Prop := recordsDeliveries w l = true

instance (w : World) (l : Label) : Decidable (RecordsDeliveries w l) :=
  inferInstanceAs (Decidable (_ = true))

/-! ## What one step does to the log -/

theorem Op.records_eq_some {op : Op} {transferId : String} (h : op.records = some transferId) :
    ∃ event, op = .auditAppend event ∧ event.kind = .transferDelivered ∧
      event.subject = transferId := by
  unfold Op.records at h
  split at h
  · split_ifs at h with hkind
    cases h
    exact ⟨_, rfl, hkind, rfl⟩
  · cases h

theorem Op.records_of_concerns {op : Op} (h : op.concerns = none) : op.records = none := by
  cases op <;> first | rfl | exact h

/-- Only the append of a `TransferDelivered` event counts. -/
theorem exec_deliveredEvents {env : Env} {s : State} {op : Op} {c : Choice}
    (h : op.records = none) (transferId : String) :
    deliveredEvents (exec env s op c).2.audit transferId = deliveredEvents s.audit transferId := by
  cases op with
  | auditAppend event =>
    have hkind : event.kind ≠ .transferDelivered := by
      intro hkind
      simp [Op.records, hkind] at h
    rcases State.appendAudit_cases s c event with ⟨e, -, he⟩ | ⟨-, he⟩
    · simp only [exec, he]
    · simp [exec, he, deliveredEvents, hkind]
  | _ => rw [exec_audit_frame (by simp [Op.writes])]

section Pending

variable {pending : ℕ → Option Op} {i : ℕ} {next : Option Op}

theorem recording_update_self {transferId : String} :
    Recording (Function.update pending i next) transferId i ↔
      next.bind Op.records = some transferId := by
  simp [Recording]

theorem recording_update_ne {transferId : String} {j : ℕ} (h : j ≠ i) :
    Recording (Function.update pending i next) transferId j ↔ Recording pending transferId j := by
  simp [Recording, Function.update_of_ne h]

/-- Two operations that record nothing are the same here. -/
theorem recording_update {transferId : String} (hold : (pending i).bind Op.records = none)
    (hnew : next.bind Op.records = none) (j : ℕ) :
    Recording (Function.update pending i next) transferId j ↔ Recording pending transferId j := by
  by_cases hj : j = i
  · subst hj
    simp [Recording, hold, hnew]
  · exact recording_update_ne hj

end Pending

/-- A task that owes no record records nothing next. -/
theorem next_records_eq_none {env : Env} {e : Library.Event effects} {next : Option Op}
    (h : (duties env).After e next) (hrecord : ∀ transferId,
      (duties env).leaves e ≠ some (.record transferId)) : next.bind Op.records = none := by
  cases hd : (duties env).leaves e with
  | none =>
    cases next with
    | none => rfl
    | some op => exact Op.records_of_concerns (not_not.mp (h.free hd op rfl))
  | some d =>
    obtain ⟨op, rfl, hop⟩ := h.settles d hd
    cases d with
    | insert transferId blob =>
      obtain ⟨t, rfl, -⟩ := hop
      rfl
    | record transferId => exact absurd hd (hrecord transferId)
    | discard transferId =>
      obtain rfl : op = .blobDelete transferId := hop
      rfl

theorem leaves_record_iff {env : Env} {e : Library.Event effects} {transferId : String} :
    (duties env).leaves e = some (.record transferId) ↔ Delivers transferId e := by
  constructor
  · intro h
    obtain ⟨op, answer⟩ := e
    change op.leaves answer = some (.record transferId) at h
    unfold Op.leaves at h
    split at h
    · cases h
    · rename_i updated
      split_ifs at h with hzero
      cases h
      exact ⟨updated, hzero, rfl⟩
    · split_ifs at h
      cases h
    · cases h
  · rintro ⟨updated, hne, rfl⟩
    exact if_neg hne

/-- What was marked and what was recorded. -/
structure Accounted (pending : ℕ → Option Op) (trace : Trace) (audit : List Audit.Event) : Prop where
  single : ∀ transferId i j, Recording pending transferId i → Recording pending transferId j → i = j
  marked : ∀ transferId i, Recording pending transferId i →
    (∃ e ∈ trace, Delivers transferId e.event) ∧ deliveredEvents audit transferId = 0
  recorded : ∀ transferId, (∀ i, ¬Recording pending transferId i) →
    ∀ e ∈ trace, Delivers transferId e.event → deliveredEvents audit transferId = 1
  unmarked : ∀ transferId, (∀ e ∈ trace, ¬Delivers transferId e.event) →
    deliveredEvents audit transferId = 0
  object : ∀ i event, pending i = some (.auditAppend event) → event.kind = .transferDelivered →
    Audit.isObject event.payload = true

section Accounted

variable {env : Env} {pending : ℕ → Option Op} {trace : Trace} {audit : List Audit.Event} {i : ℕ}
  {next : Option Op}

theorem accounted_nil : Accounted (fun _ => none) [] [] := by
  constructor <;> simp [Recording, deliveredEvents]

/-- A task goes from one operation that records nothing to another. -/
theorem Accounted.update (h : Accounted pending trace audit)
    (hold : (pending i).bind Op.records = none) (hnew : next.bind Op.records = none) :
    Accounted (Function.update pending i next) trace audit := by
  have hsame (transferId : String) (j : ℕ) :
      Recording (Function.update pending i next) transferId j ↔ Recording pending transferId j :=
    recording_update hold hnew j
  constructor
  · simpa only [hsame] using h.single
  · simpa only [hsame] using h.marked
  · simpa only [hsame] using h.recorded
  · exact h.unmarked
  · intro j event hj hkind
    by_cases hji : j = i
    · subst hji
      rw [Function.update_self] at hj
      simp [hj, Op.records, hkind] at hnew
    · rw [Function.update_of_ne hji] at hj
      exact h.object j event hj hkind

/-- An event that neither marks nor records. -/
theorem Accounted.skip (h : Accounted pending trace audit) {x : Entry effects State Request}
    {audit' : List Audit.Event} (hx : ∀ transferId, ¬Delivers transferId x.event)
    (haudit : ∀ transferId, deliveredEvents audit' transferId = deliveredEvents audit transferId) :
    Accounted pending (trace ++ [x]) audit' := by
  constructor
  · exact h.single
  · intro transferId j hj
    obtain ⟨⟨e, he, hdel⟩, hcount⟩ := h.marked transferId j hj
    exact ⟨⟨e, List.mem_append_left _ he, hdel⟩, (haudit transferId).trans hcount⟩
  · intro transferId hnone e he hdel
    rw [haudit]
    rcases List.mem_append.mp he with he | he
    · exact h.recorded transferId hnone e he hdel
    · rw [List.mem_singleton.mp he] at hdel
      exact absurd hdel (hx transferId)
  · intro transferId hnone
    rw [haudit]
    exact h.unmarked transferId fun e he => hnone e (List.mem_append_left _ he)
  · exact h.object

/-- A transfer is marked for the first time; its record is next. -/
theorem Accounted.mark (h : Accounted pending trace audit) {x : Entry effects State Request}
    {event : Audit.Event} (hx : Delivers event.subject x.event)
    (hfirst : ∀ e ∈ trace, ¬Delivers event.subject e.event)
    (hold : (pending i).bind Op.records = none) (hkind : event.kind = .transferDelivered)
    (hobject : Audit.isObject event.payload = true) :
    Accounted (Function.update pending i (some (.auditAppend event))) (trace ++ [x]) audit := by
  have hself (transferId : String) :
      Recording (Function.update pending i (some (.auditAppend event))) transferId i ↔
        event.subject = transferId := by
    simp [Recording, Op.records, hkind]
  have hother (transferId : String) : ¬Recording pending transferId i := by
    simp [Recording, hold]
  have honly (j : ℕ) : ¬Recording pending event.subject j := by
    intro hj
    obtain ⟨⟨e, he, hdel⟩, -⟩ := h.marked _ j hj
    exact hfirst e he hdel
  have hx' (transferId : String) : Delivers transferId x.event ↔ event.subject = transferId := by
    constructor
    · rintro ⟨n, -, hn⟩
      obtain ⟨n', -, hn'⟩ := hx
      rw [hn] at hn'
      cases hn'
      rfl
    · rintro rfl
      exact hx
  constructor
  · intro transferId j k hj hk
    by_cases hji : j = i
    · by_cases hki : k = i
      · rw [hji, hki]
      · rw [hji, hself] at hj
        rw [recording_update_ne hki, ← hj] at hk
        exact absurd hk (honly k)
    · rw [recording_update_ne hji] at hj
      by_cases hki : k = i
      · rw [hki, hself] at hk
        rw [← hk] at hj
        exact absurd hj (honly j)
      · rw [recording_update_ne hki] at hk
        exact h.single transferId j k hj hk
  · intro transferId j hj
    by_cases hji : j = i
    · rw [hji, hself] at hj
      subst hj
      exact ⟨⟨x, by simp, hx⟩, h.unmarked _ hfirst⟩
    · rw [recording_update_ne hji] at hj
      obtain ⟨⟨e, he, hdel⟩, hcount⟩ := h.marked transferId j hj
      exact ⟨⟨e, List.mem_append_left _ he, hdel⟩, hcount⟩
  · intro transferId hnone e he hdel
    have hne : event.subject ≠ transferId := fun heq => hnone i ((hself transferId).mpr heq)
    have hold' (j : ℕ) : ¬Recording pending transferId j := by
      by_cases hji : j = i
      · rw [hji]
        exact hother transferId
      · rw [← recording_update_ne hji]
        exact hnone j
    rcases List.mem_append.mp he with he | he
    · exact h.recorded transferId hold' e he hdel
    · rw [List.mem_singleton.mp he, hx'] at hdel
      exact absurd hdel hne
  · intro transferId hnone
    exact h.unmarked transferId fun e he => hnone e (List.mem_append_left _ he)
  · intro j event' hj hkind'
    by_cases hji : j = i
    · rw [hji, Function.update_self] at hj
      cases hj
      exact hobject
    · rw [Function.update_of_ne hji] at hj
      exact h.object j event' hj hkind'

theorem deliveredEvents_snoc {event : Audit.Event} (hkind : event.kind = .transferDelivered)
    (transferId : String) : deliveredEvents (audit ++ [event]) transferId =
      deliveredEvents audit transferId + if event.subject = transferId then 1 else 0 := by
  simp [deliveredEvents, List.countP_append, List.countP_singleton, hkind]

/-- The record of a marked transfer is appended. -/
theorem Accounted.record (h : Accounted pending trace audit) {x : Entry effects State Request}
    {event : Audit.Event} (hi : pending i = some (.auditAppend event))
    (hkind : event.kind = .transferDelivered) (hx : ∀ transferId, ¬Delivers transferId x.event)
    (hnew : next.bind Op.records = none) :
    Accounted (Function.update pending i next) (trace ++ [x]) (audit ++ [event]) := by
  have hown : Recording pending event.subject i := by
    simp [Recording, hi, Op.records, hkind]
  have hself (transferId : String) : ¬Recording (Function.update pending i next) transferId i := by
    rw [recording_update_self, hnew]
    nofun
  have hother {transferId : String} (hne : event.subject ≠ transferId) :
      deliveredEvents (audit ++ [event]) transferId = deliveredEvents audit transferId := by
    rw [deliveredEvents_snoc hkind, if_neg hne, Nat.add_zero]
  obtain ⟨⟨first, hfirst, hdelivers⟩, hzero⟩ := h.marked _ i hown
  constructor
  · intro transferId j k hj hk
    have hji : j ≠ i := fun hji => hself transferId (hji ▸ hj)
    have hki : k ≠ i := fun hki => hself transferId (hki ▸ hk)
    exact h.single transferId j k ((recording_update_ne hji).mp hj) ((recording_update_ne hki).mp hk)
  · intro transferId j hj
    have hji : j ≠ i := fun hji => hself transferId (hji ▸ hj)
    rw [recording_update_ne hji] at hj
    have hne : event.subject ≠ transferId := by
      rintro rfl
      exact hji (h.single _ j i hj hown)
    obtain ⟨⟨e, he, hdel⟩, hcount⟩ := h.marked transferId j hj
    exact ⟨⟨e, List.mem_append_left _ he, hdel⟩, (hother hne).trans hcount⟩
  · intro transferId hnone e he hdel
    by_cases heq : event.subject = transferId
    · subst heq
      rw [deliveredEvents_snoc hkind, if_pos rfl, hzero]
    · have hold (j : ℕ) : ¬Recording pending transferId j := by
        by_cases hji : j = i
        · simp [hji, Recording, hi, Op.records, hkind, heq]
        · rw [← recording_update_ne hji]
          exact hnone j
      rw [hother heq]
      rcases List.mem_append.mp he with he | he
      · exact h.recorded transferId hold e he hdel
      · rw [List.mem_singleton.mp he] at hdel
        exact absurd hdel (hx transferId)
  · intro transferId hnone
    have hne : event.subject ≠ transferId := by
      rintro rfl
      exact hnone first (List.mem_append_left _ hfirst) hdelivers
    rw [hother hne]
    exact h.unmarked transferId fun e he => hnone e (List.mem_append_left _ he)
  · intro j event' hj hkind'
    by_cases hji : j = i
    · rw [hji, Function.update_self] at hj
      simp [hj, Op.records, hkind'] at hnew
    · rw [Function.update_of_ne hji] at hj
      exact h.object j event' hj hkind'

/-- Every operation keeps the account, if the append of a record does not fail. -/
theorem Accounted.exec (h : Accounted pending trace audit) {s : State} (haudit : s.audit = audit)
    {op : Op} {c : Choice} (hi : pending i = some op)
    (hcond : op.records = none ∨ c.failure = none) (r : Request)
    (hafter : (duties env).After ⟨op, (exec env s op c).1⟩ next)
    (honce : ∀ e ∈ trace, ∀ transferId, Delivers transferId e.event →
      ¬Delivers transferId ⟨op, (exec env s op c).1⟩) :
    Accounted (Function.update pending i next)
      (trace ++ [⟨i, r, s, ⟨op, (exec env s op c).1⟩⟩]) (exec env s op c).2.audit := by
  subst haudit
  by_cases hrecords : op.records = none
  · have hold : (pending i).bind Op.records = none := by rw [hi]; exact hrecords
    by_cases hdelivers : ∃ transferId, Delivers transferId ⟨op, (ControlPlane.exec env s op c).1⟩
    · obtain ⟨transferId, hdel⟩ := hdelivers
      obtain ⟨_, rfl, event, rfl, hkind, rfl, hobject⟩ :=
        hafter.settles _ (leaves_record_iff.mpr hdel)
      have hsame : (ControlPlane.exec env s op c).2.audit = s.audit := by
        obtain ⟨n, -, hn⟩ := hdel
        obtain rfl := congrArg Library.Event.op hn
        exact exec_audit_frame (by simp [Op.writes])
      rw [hsame]
      exact h.mark hdel (fun e he hfirst => honce e he _ hfirst hdel) hold hkind hobject
    · rw [not_exists] at hdelivers
      have hnew := next_records_eq_none hafter fun transferId hleaves =>
        hdelivers transferId (leaves_record_iff.mp hleaves)
      exact (h.update hold hnew).skip hdelivers fun _ => exec_deliveredEvents hrecords _
  · obtain ⟨transferId, hsome⟩ := Option.ne_none_iff_exists'.mp hrecords
    obtain ⟨event, rfl, hkind, -⟩ := Op.records_eq_some hsome
    have hquiet (transferId : String) :
        ¬Delivers transferId ⟨.auditAppend event, (s.appendAudit c event).1⟩ := by
      rintro ⟨n, -, hn⟩
      cases congrArg Library.Event.op hn
    have hnew := next_records_eq_none hafter fun transferId hleaves =>
      hquiet transferId (leaves_record_iff.mp hleaves)
    rcases State.appendAudit_cases s c event with ⟨e, hfailed, -⟩ | ⟨-, hok⟩
    · have hobject := h.object i event hi hkind
      rw [hfailed (hcond.resolve_left hrecords)] at hobject
      cases hobject
    · have hgrown : (ControlPlane.exec env s (.auditAppend event) c).2.audit = s.audit ++ [event] := by
        simp only [ControlPlane.exec, hok]
      rw [hgrown]
      exact h.record hi hkind hquiet hnew

end Accounted

/-- A transfer that was marked before is not marked again. -/
theorem Table.delivers_once {env : Env} {trace : Trace} {s : State}
    (h : Table trace s.db.transfers) (op : Op) (c : Choice) :
    ∀ e ∈ trace, ∀ transferId, Delivers transferId e.event →
      ¬Delivers transferId ⟨op, (exec env s op c).1⟩ := by
  intro e he transferId hdel hnew
  have hop : op = .markDelivered transferId := by
    obtain ⟨n, -, hn⟩ := hnew
    exact congrArg Library.Event.op hn
  have hstep := h.step ⟨0, .tick, s, ⟨op, (exec env s op c).1⟩⟩ s.dbNow (exec_tableStep env s op c)
    (by rintro t rfl; cases hop)
  exact (pairwise_snoc.mp hstep.deliveredOnce).2 e he transferId hdel hnew

theorem run_accounted (env : Env) (labels : List Label)
    (h : Pool.Along (semantics env) {} RecordsDeliveries labels) :
    Accounted (run env labels).pending (run env labels).trace (run env labels).shared.audit := by
  refine Pool.run_pending_induction (handler_duties env)
    (J := fun pending trace s => Accounted pending trace s.audit) accounted_nil ?_ ?_ ?_
    (fun _ _ hJ => hJ) labels h
  · intro w i next hnone hfree hJ
    refine hJ.update (by rw [hnone]; rfl) ?_
    cases next with
    | none => rfl
    | some op => exact Op.records_of_concerns (not_not.mp (hfree op rfl))
  · intro labels i c r op next w hi hcond hafter hJ
    refine hJ.exec rfl hi ?_ r hafter ((run_table env labels).delivers_once op c)
    simpa [RecordsDeliveries, recordsDeliveries, hi] using hcond
  · intro w i hcond hJ
    exact hJ.update (by simpa [RecordsDeliveries, recordsDeliveries] using hcond) rfl

/-- A delivered row and a recorded event stand for the same update. -/
theorem Accounted.agree {pending : ℕ → Option Op} {trace : Trace} {s : State}
    (h : Accounted pending trace s.audit) (htable : Table trace s.db.transfers) {transferId : String}
    (hnone : ∀ i, ¬Recording pending transferId i) :
    Delivered s.db transferId ↔ deliveredEvents s.audit transferId = 1 := by
  constructor
  · rintro ⟨row, hrow, rfl, hstate⟩
    obtain ⟨e, he, hdel⟩ := (htable.delivered row hrow).mp hstate
    exact h.recorded _ hnone e he hdel
  · intro hcount
    by_cases hdelivers : ∃ e ∈ trace, Delivers transferId e.event
    · obtain ⟨e, he, hdel⟩ := hdelivers
      obtain ⟨row, hrow, rfl⟩ := htable.touched e he transferId (Or.inr hdel)
      exact ⟨row, hrow, rfl, (htable.delivered row hrow).mpr ⟨e, he, hdel⟩⟩
    · have hzero := h.unmarked transferId fun e he hdel => hdelivers ⟨e, he, hdel⟩
      omega

/-! ## Failed acknowledgements -/

/-- The event changed neither the table of transfers nor the audit log. -/
def Kept (e : Library.Event effects) : Prop :=
  e.op.Reads ∨ ∃ transferId, (∃ x, e = ⟨.markDelivered transferId, .error x⟩) ∨
    e = ⟨.markDelivered transferId, .ok 0⟩

/-- The append of a record failed. -/
def RecordFailed (e : Library.Event effects) : Prop :=
  ∃ event x, event.kind = .transferDelivered ∧ Audit.isObject event.payload = true ∧
    e = ⟨.auditAppend event, .error x⟩

/-- An error means that nothing was written, or that the record of a delivery failed. -/
def FailsClean {α : Type} (past : History) : Except ApiError α → Prop
  | .ok _ => True
  | .error _ => (∀ e ∈ past, Kept e) ∨ ∃ e ∈ past, RecordFailed e

theorem forall_mem_snoc {α : Type*} {P : α → Prop} {xs : List α} {x : α} :
    (∀ e ∈ xs ++ [x], P e) ↔ (∀ e ∈ xs, P e) ∧ P x := by
  simp [or_imp, forall_and]

theorem ackTransfer_failsClean (env : Env) (transferId : String) (req : RecipientReceiptRequest) :
    (handler env (.ackTransfer transferId req)).Spec (fun _ _ => True) FailsClean [] := by
  refine Program.spec_bind.mpr ?_
  unfold ackTransfer
  refine (verifyRecipientReceipt_reads transferId req "ack").spec_bind (fun _ _ _ => trivial) ?_ ?_
  · intro es hes e
    exact Or.inl fun x hx => Or.inl (hes x hx)
  intro es hes row
  have hread : ∀ e ∈ [] ++ es, Kept e := fun e he => Or.inl (hes e he)
  rw [Program.spec_call_bind]
  refine ⟨trivial, fun marked => ?_⟩
  cases marked with
  | error e => exact Or.inl (forall_mem_snoc.mpr ⟨hread, Or.inr ⟨transferId, Or.inl ⟨e, rfl⟩⟩⟩)
  | ok updated =>
    refine Program.spec_ensure_bind.mpr ⟨fun _ => ?_, fun hzero => ?_⟩
    · rw [Program.spec_call_bind]
      refine ⟨trivial, fun appended => ?_⟩
      cases appended with
      | error e => exact Or.inr ⟨_, List.mem_append_right _ (List.mem_singleton_self _), _, e, rfl, rfl, rfl⟩
      | ok receipt => exact ⟨trivial, fun _ => trivial⟩
    · obtain rfl := not_not.mp hzero
      exact Or.inl (forall_mem_snoc.mpr ⟨hread, Or.inr ⟨transferId, Or.inr rfl⟩⟩)

theorem exec_kept {env : Env} {s : State} {op : Op} {c : Choice}
    (h : Kept ⟨op, (exec env s op c).1⟩) :
    (exec env s op c).2.db.transfers = s.db.transfers ∧ (exec env s op c).2.audit = s.audit := by
  rcases h with hreads | ⟨transferId, hmark⟩
  · have hnone : op.writes = none := hreads
    exact ⟨exec_transfers_frame (by simp [hnone]), exec_audit_frame (by simp [hnone])⟩
  · have hop : op = .markDelivered transferId := by
      rcases hmark with ⟨x, hx⟩ | hx <;> exact congrArg Library.Event.op hx
    subst hop
    refine ⟨?_, exec_audit_frame (by simp [Op.writes])⟩
    rcases State.write_cases s c (.ok (s.db.markDelivered s.dbNow transferId)) with
      ⟨e, he⟩ | ⟨updated, db, hout, hw⟩
    · simp only [exec, he]
    · cases hout
      simp only [exec, hw, Library.Event.mk.injEq, heq_eq_eq, true_and, reduceCtorEq, exists_false,
        false_or, Except.ok.injEq] at hmark ⊢
      -- no row was matched, so no row is rewritten
      refine (List.map_congr_left fun row hrow => if_neg ?_).trans (List.map_id _)
      exact List.countP_eq_zero.mp hmark row hrow

/-- No append of a record failed. -/
theorem not_recordFailed {env : Env} {labels : List Label}
    (h : Pool.Along (semantics env) {} RecordsDeliveries labels) :
    ∀ e ∈ (run env labels).trace, ¬RecordFailed e.event := by
  intro e he
  obtain ⟨past, rest, htrace⟩ := List.append_of_mem he
  refine Pool.Along.performed _ h (K := fun _ e => ¬RecordFailed e.event) ?_ htrace
  rintro w i c r op k hi hcond ⟨event, x, hkind, hobject, heq⟩
  obtain rfl := congrArg Library.Event.op heq
  have hfailure : c.failure = none := by
    simpa [RecordsDeliveries, recordsDeliveries, Pool.pending_eq_some hi, Op.records, hkind]
      using hcond
  rcases State.appendAudit_cases w.shared c event with ⟨e, hfailed, -⟩ | ⟨-, hok⟩
  · rw [hfailed hfailure] at hobject
    cases hobject
  · simp [semantics, exec, hok] at heq

/-- In every run in which no acknowledgement is dropped before it records the delivery and no such
record fails, deliveries and their audit events agree, and failed acknowledgements write nothing. -/
theorem deliveryAudited_of_recordsDeliveries (env : Env) (labels : List Label)
    (h : Pool.Along (semantics env) {} RecordsDeliveries labels) : DeliveryAudited env labels := by
  refine ⟨fun transferId => (run_accounted env labels h).agree (run_table env labels), ?_⟩
  intro i t transferId req e ht hreq hout done c rest hlabels
  have hclean : ∀ e ∈ Pool.eventsOf (run env labels).trace i, Kept e := by
    obtain ⟨q, hq, hend⟩ := (Pool.run_conforms (semantics env) {} labels).outcome_runs ht hout
    rw [hreq] at hq
    rcases hq.outcome_spec (ackTransfer_failsClean env transferId req) hend with hkept | ⟨x, hx, hf⟩
    · exact hkept
    · obtain ⟨entry, hentry, -, rfl⟩ := Pool.mem_eventsOf.mp hx
      exact absurd hf (not_recordFailed h entry hentry)
  have hgrows : (run env (done ++ [.step i c])).trace <+: (run env labels).trace := by
    rw [hlabels, List.append_cons done _ rest]
    exact Pool.run_trace_grows _ _ _ _
  unfold run at hgrows ⊢
  rw [Pool.run_snoc] at hgrows ⊢
  have hstep := Pool.next_step (semantics env) (Pool.run (semantics env) {} done) (.step i c)
  generalize (Pool.run (semantics env) {} done).next (semantics env) (.step i c) = w' at hstep hgrows
  cases hstep with
  | @perform _ _ r op k hi =>
    have hmem := hgrows.subset (List.mem_append_right _ (List.mem_singleton_self _))
    exact exec_kept (hclean _ (Pool.mem_eventsOf.mpr ⟨_, hmem, rfl, rfl⟩))
  | idle => exact ⟨rfl, rfl⟩

namespace Sample

def ackRequest : RecipientReceiptRequest where
  recipientAgentId := bob
  nonce := nonce 0xc2
  issuedAt := time
  signatureHex :=
    "85425efd4a8c5454bc258d308d03a66e8e4ec2b4541925634fd775b8c6b67c0a" ++
    "e7df7cde1a92306edaf16e5f0044337c891b0abc23bb5fdd5f777c3f95142509"

/-- The server that also knows the signature of this acknowledgement. -/
def ackEnv : Env :=
  { env with
    verify := fun key message signature => env.verify key message signature ||
      (hexEncode key = bobKeyHex && hexEncode signature = ackRequest.signatureHex &&
        transferReceiptBytes bob transferId "ack" ackRequest.nonce ackRequest.issuedAt =
          .ok message) }

/-- The acknowledgement as the recipient signed it. -/
def ackSigned : Signed :=
  ⟨bobKeyHex, .transferReceiptBytes bob transferId "ack" ackRequest.nonce ackRequest.issuedAt,
    ackRequest.signatureHex⟩

theorem ackEnv_eq : ackEnv = knowing (signatures ++ [ackSigned]) :=
  eq_knowing_one (by decide +kernel) fun _ _ _ => rfl

/-- An upload, and the first `n` operations of its acknowledgement. -/
def acknowledged (n : ℕ) : List Label :=
  clockAt 1700000000 :: serve 0 (.register registerAlice) 3 ++ serve 1 (.register registerBob) 3 ++
    serve 2 (.createTransfer blobRequest) 15 1 ++ serve 3 (.ackTransfer transferId ackRequest) n

/-- The append to the audit log fails. -/
def unrecorded : List Label := acknowledged 5 ++ [.step 3 { failure := some "disk full" }]

end Sample

/-- The acknowledgement, and the one whose append fails, which differ in their last operations. -/
theorem Sample.acknowledged_runs :
    Pool.AlongTo (semantics Sample.ackEnv) RecordsDeliveries
      (fun w => w.shared.db.transfers.map (·.state) = [.delivered])
      ⟨{}, [], []⟩ (Sample.acknowledged 7) ∧
    (run Sample.ackEnv Sample.unrecorded).quiescent = true ∧
      ((run Sample.ackEnv Sample.unrecorded).shared.db.transfers.map fun row =>
        (row.transferId, row.state)) = [(Sample.transferId, .delivered)] ∧
      deliveredEvents (run Sample.ackEnv Sample.unrecorded).shared.audit Sample.transferId = 0 := by
  rw [Sample.ackEnv_eq]
  decide +kernel

theorem deliveryAudited_of_recordsDeliveries_ack :
    (run Sample.ackEnv (Sample.acknowledged 7)).shared.db.transfers.map (·.state) = [.delivered] ∧
    DeliveryAudited Sample.ackEnv (Sample.acknowledged 7) := by
  obtain ⟨halong, hstates⟩ := run_checked Sample.acknowledged_runs.1
  exact ⟨hstates, deliveryAudited_of_recordsDeliveries _ _ halong⟩

/-- The row is delivered and the request has failed, but the log does not know of it. -/
theorem unrecorded_delivery : ¬DeliveryAudited Sample.ackEnv Sample.unrecorded := by
  intro h
  obtain ⟨-, hquiet, hrows, hzero⟩ := Sample.acknowledged_runs
  have hdelivered : Delivered (run Sample.ackEnv Sample.unrecorded).shared.db Sample.transferId := by
    obtain ⟨row, hrow, heq⟩ := List.mem_map.mp (hrows ▸ List.mem_singleton_self _)
    obtain ⟨hid, hstate⟩ := Prod.mk.inj heq
    exact ⟨row, hrow, hid, hstate⟩
  have hone := (h.agree Sample.transferId fun i => ?_).mp hdelivered
  · omega
  · simp [Recording, Pool.quiescent_iff.mp hquiet i]

end AgentExchange.ControlPlane
