import AgentExchange.ControlPlane.Handlers
import AgentExchange.Library.Execution

/-!
# What the health monitor covers

A tick loads the transfers in flight, the oldest first and no more than the limit, probes their
endpoints and writes the folded health back. Nothing in that moves a transfer in the order, so the
next tick loads the same ones: a backlog is covered if it fits under the limit, and otherwise the
transfers behind the limit are never probed. Among transfers of one age the order is up to the
database, which may hold the table in another order before every tick.
-/
namespace AgentExchange.ControlPlane

open Library Wire
open Program (lift ensure okOr)

/-- What the world answers, whatever the operation. -/
abbrev Answers := Op → Choice

def execAnswers (env : Env) (s : State) (op : Op) (answers : Answers) : op.Answer × State :=
  exec env s op (answers op)

/-- No statement of the monitor fails. -/
def StatementsSucceed (answers : Answers) : Prop :=
  (answers .loadInFlightTransfers).failure = none ∧
    ∀ transferId endpoints, (answers (.persistReachableAt transferId endpoints)).failure = none

/-- What a tick finds: the rows as the database holds them, the clock, and the answers to its
operations. -/
structure MonitorTick where
  rows : List TransferRow
  now : Timestamp
  answers : ℕ → Answers

namespace MonitorTick

variable (t : MonitorTick) (env : Env) (s : State)

def start : State := { s with db := { s.db with transfers := t.rows }, now := t.now }

def execution : Execution effects State ApiError ℕ :=
  tick.execute (execAnswers env) t.answers (t.start s)

def final : State := (t.execution env s).final

end MonitorTick

def inFlight (row : TransferRow) : Bool := row.state = .readyForPickup && !row.reachableAt.isEmpty

def backlog (s : State) : List TransferRow := s.db.transfers.filter inFlight

/-- Ticks one after the other with nothing else going on. -/
def Consecutive (env : Env) : State → List MonitorTick → Prop
  | _, [] => True
  | s, t :: rest =>
    t.rows.Perm s.db.transfers ∧ (∀ n, StatementsSucceed (t.answers n)) ∧
      Consecutive env (t.final env s) rest

/-- The outcome of a probe is folded into the health of the endpoint. -/
def Probed (nowUnix : Int64) (ep ep' : Endpoint) : Prop :=
  ∃ success, ep' = foldHealth ep success nowUnix

/-- The tick probes every endpoint of the transfer and stores the health that follows. -/
def Refreshes (env : Env) (s : State) (t : MonitorTick) (transferId : String) : Prop :=
  ∃ row ∈ s.db.transfers, row.transferId = transferId ∧ ∃ updated,
    List.Forall₂ (Probed (unixTimestamp t.now)) row.reachableAt updated ∧
      ⟨.persistReachableAt transferId updated, .ok 1⟩ ∈ (t.execution env s).events ∧
      ((t.final env s).db.findTransfer transferId).map (·.reachableAt) = some updated

def RefreshedIn (env : Env) : State → List MonitorTick → String → Prop
  | _, [], _ => False
  | s, t :: rest, transferId =>
    Refreshes env s t transferId ∨ RefreshedIn env (t.final env s) rest transferId

/-- The number of ticks that load `n` transfers, a full load at a time. -/
def rounds (n : ℕ) : ℕ := (n + (Db.inFlightLimit - 1)) / Db.inFlightLimit

/-- As many consecutive ticks refresh every transfer in flight. -/
def MonitorCovers (env : Env) (s : State) : Prop :=
  ∀ ticks, Consecutive env s ticks → ticks.length = rounds (backlog s).length →
    ∀ row ∈ backlog s, RefreshedIn env s ticks row.transferId

def UniqueIds (s : State) : Prop := (s.db.transfers.map (·.transferId)).Nodup

/-! ## Writing health back -/

/-- What a tick stores, one statement after the other. -/
def persisted (db : Db) (updates : List (String × List Endpoint)) : Db :=
  updates.foldl (fun db u => (db.persistReachableAt u.1 u.2).2) db

/-- The row after all of the updates. -/
def refreshed (updates : List (String × List Endpoint)) (row : TransferRow) : TransferRow :=
  match updates.lookup row.transferId with
  | some endpoints => { row with reachableAt := endpoints }
  | none => row

section Persisted

variable {db : Db} {updates : List (String × List Endpoint)}

@[simp] theorem refreshed_transferId (row : TransferRow) :
    (refreshed updates row).transferId = row.transferId := by
  unfold refreshed
  split <;> rfl

@[simp] theorem refreshed_state (row : TransferRow) :
    (refreshed updates row).state = row.state := by
  unfold refreshed
  split <;> rfl

@[simp] theorem refreshed_createdAt (row : TransferRow) :
    (refreshed updates row).createdAt = row.createdAt := by
  unfold refreshed
  split <;> rfl

theorem persistReachableAt_transfers (db : Db) (transferId : String) (endpoints : List Endpoint) :
    (db.persistReachableAt transferId endpoints).2.transfers =
      db.transfers.map (refreshed [(transferId, endpoints)]) := by
  unfold Db.persistReachableAt Db.updateTransfers
  apply List.map_congr_left
  intro row _
  by_cases hid : row.transferId = transferId
  · simp [refreshed, hid]
  · simp [refreshed, hid, List.lookup, beq_false_of_ne hid]

theorem refreshed_refreshed {u : String × List Endpoint} (h : u.1 ∉ updates.map Prod.fst)
    (row : TransferRow) :
    refreshed updates (refreshed [u] row) = refreshed (u :: updates) row := by
  obtain ⟨transferId, endpoints⟩ := u
  by_cases hid : row.transferId = transferId
  · have hnone : updates.lookup transferId = none := by
      rw [List.lookup_eq_none_iff]
      intro v hv
      simpa using fun hv' => h (List.mem_map.mpr ⟨v, hv, hv'.symm⟩)
    simp [refreshed, hid, hnone]
  · simp [refreshed, List.lookup, beq_false_of_ne hid]

theorem persisted_transfers (hids : (updates.map Prod.fst).Nodup) :
    (persisted db updates).transfers = db.transfers.map (refreshed updates) := by
  induction updates generalizing db with
  | nil => exact (List.map_id _).symm
  | cons u updates ih =>
    obtain ⟨hu, hids⟩ := List.nodup_cons.mp hids
    change (persisted (db.persistReachableAt u.1 u.2).2 updates).transfers = _
    rw [ih hids, persistReachableAt_transfers, List.map_map]
    exact List.map_congr_left fun row _ => refreshed_refreshed hu row

theorem findTransfer_persisted (hids : (updates.map Prod.fst).Nodup) (transferId : String) :
    (persisted db updates).findTransfer transferId =
      (db.findTransfer transferId).map (refreshed updates) := by
  rw [Db.findTransfer, persisted_transfers hids, List.find?_map]
  congr 2
  funext row
  simp

theorem refreshed_of_mem (hids : (updates.map Prod.fst).Nodup) {row : TransferRow}
    {endpoints : List Endpoint} (h : (row.transferId, endpoints) ∈ updates) :
    (refreshed updates row).reachableAt = endpoints := by
  have hlookup : updates.lookup row.transferId = some endpoints := by
    obtain ⟨before, after, rfl⟩ := List.mem_iff_append.mp h
    refine List.lookup_eq_some_iff.mpr ⟨before, after, rfl, ?_⟩
    intro u hu
    rw [List.map_append, List.map_cons, List.nodup_append] at hids
    have hne := hids.2.2 u.1 (List.mem_map_of_mem hu) row.transferId (by simp)
    simpa using hne.symm
  rw [refreshed, hlookup]

/-- Every statement that was executed matched the rows of its transfer. -/
theorem persistReachableAt_count (db : Db) (transferId : String) (endpoints : List Endpoint) :
    (db.persistReachableAt transferId endpoints).1 =
      (db.transfers.map (·.transferId)).count transferId := by
  rw [List.count, List.countP_map]
  exact List.countP_congr fun row _ => by simp

theorem persistReachableAt_ids (db : Db) (transferId : String) (endpoints : List Endpoint) :
    (db.persistReachableAt transferId endpoints).2.transfers.map (·.transferId) =
      db.transfers.map (·.transferId) := by
  rw [persistReachableAt_transfers, List.map_map]
  exact List.map_congr_left fun row _ => refreshed_transferId row

end Persisted

/-! ## One tick -/

section Tick

variable {env : Env}

theorem exec_probes (s : State) (op : Op) (answers : Answers) (h : op.Probes) :
    (execAnswers env s op answers).2 = s := by
  cases op <;> first | rfl | exact h.elim

theorem validateAll_never_fails (endpoints : List Endpoint) :
    (validateAll endpoints).Fails fun _ => False := by
  induction endpoints with
  | nil => trivial
  | cons ep rest ih =>
    have hprobe : (probeEndpoint ep).Fails fun _ => False := by
      unfold probeEndpoint
      apply Program.Fails.bind (Program.fails_call _)
      intro budgetLeft
      split_ifs
      · trivial
      · exact .bind (Program.fails_call _) fun _ => trivial
      · trivial
      · trivial
    exact hprobe.bind fun _ => ih.bind fun _ => trivial

/-- Probing changes no state, and folds one outcome into every endpoint. -/
theorem probeAll_ends (nowUnix : Int64) (endpoints : List Endpoint) (past : List (Event effects))
    (s : State) :
    (probeAll nowUnix endpoints).Ends (execAnswers env) StatementsSucceed
      (fun past' out s' => s' = s ∧ (∃ es, past' = past ++ es ∧ ∀ e ∈ es, Op.Probes e.op) ∧
        ∃ updated, out = .ok updated ∧ List.Forall₂ (Probed nowUnix) endpoints updated) past s := by
  induction endpoints generalizing past with
  | nil => exact ⟨rfl, ⟨[], by simp, by simp⟩, [], rfl, .nil⟩
  | cons ep rest ih =>
    apply (validateAll_probes [ep]).ends_bind (validateAll_never_fails [ep]) (exec_probes s)
    intro es hes results
    apply Program.ends_bind.mpr
    apply (ih (past ++ es)).mono
    rintro _ _ _ ⟨rfl, ⟨es', rfl, hes'⟩, updated, rfl, hupdated⟩
    refine ⟨rfl, ⟨es ++ es', by simp, ?_⟩, _, rfl, .cons ⟨_, rfl⟩ hupdated⟩
    exact List.forall_mem_append.mpr ⟨hes, hes'⟩

theorem exec_persist {s : State} {answers : Answers} (h : StatementsSucceed answers)
    (transferId : String) (endpoints : List Endpoint) :
    execAnswers env s (.persistReachableAt transferId endpoints) answers =
      (.ok ((s.db.transfers.map (·.transferId)).count transferId),
        { s with db := (s.db.persistReachableAt transferId endpoints).2 }) := by
  rw [← persistReachableAt_count s.db transferId endpoints]
  simp only [execAnswers, exec, State.write, h.2 transferId endpoints]

/-- What a tick does with the rows it has loaded. -/
structure RowsDone (nowUnix : Int64) (rows : List (String × List Endpoint)) (s : State)
    (past past' : List (Event effects)) (s' : State) (updates : List (String × List Endpoint)) :
    Prop where
  probed : List.Forall₂ (fun row u => u.1 = row.1 ∧ List.Forall₂ (Probed nowUnix) row.2 u.2)
    (rows.filter fun row => !row.2.isEmpty) updates
  stored : s'.db = persisted s.db updates
  stores : ∀ u ∈ updates, ⟨.persistReachableAt u.1 u.2,
    .ok ((s.db.transfers.map (·.transferId)).count u.1)⟩ ∈ past'
  only : ∀ transferId endpoints answer,
    ⟨.persistReachableAt transferId endpoints, answer⟩ ∈ past' →
      ⟨.persistReachableAt transferId endpoints, answer⟩ ∈ past ∨ (transferId, endpoints) ∈ updates

theorem tickRows_ends (nowUnix : Int64) (rows : List (String × List Endpoint)) (touched : ℕ)
    (past : List (Event effects)) (s : State) :
    (tickRows nowUnix rows touched).Ends (execAnswers env) StatementsSucceed
      (fun past' _ s' => past <+: past' ∧ ∃ updates, RowsDone nowUnix rows s past past' s' updates)
      past s := by
  induction rows generalizing touched past s with
  | nil =>
    refine ⟨List.prefix_rfl, [], ⟨.nil, rfl, by simp, ?_⟩⟩
    intro _ _ _ h
    exact Or.inl h
  | cons row rest ih =>
    obtain ⟨transferId, endpoints⟩ := row
    unfold tickRows
    split_ifs with hempty
    · apply (ih touched past s).mono
      rintro past' _ s' ⟨hgrows, updates, hdone⟩
      refine ⟨hgrows, updates, ⟨?_, hdone.stored, hdone.stores, hdone.only⟩⟩
      simpa [hempty] using hdone.probed
    · apply Program.ends_bind.mpr
      apply (probeAll_ends nowUnix endpoints past s).mono
      rintro _ _ _ ⟨rfl, ⟨es, rfl, hes⟩, updated, rfl, hupdated⟩
      apply Program.ends_call_bind.mpr
      intro answers hanswers
      rw [exec_persist hanswers]
      apply (ih (touched + 1) _ _).mono
      rintro past' _ s' ⟨hgrows, updates, hdone⟩
      refine ⟨?_, (transferId, updated) :: updates, ?_, hdone.stored, ?_, ?_⟩
      · rw [List.append_assoc] at hgrows
        exact (List.prefix_append _ _).trans hgrows
      · simpa [hempty] using ⟨hupdated, hdone.probed⟩
      · intro u hu
        rcases List.mem_cons.mp hu with rfl | hu
        · exact hgrows.subset (by simp)
        · have hstores := hdone.stores u hu
          rwa [persistReachableAt_ids] at hstores
      · intro id eps answer h
        rcases hdone.only id eps answer h with hpast | hupdates
        · simp only [List.mem_append, List.mem_singleton] at hpast
          rcases hpast with (hpast | hprobe) | hpersist
          · exact Or.inl hpast
          · exact (hes _ hprobe).elim
          · right
            cases hpersist
            exact List.mem_cons_self
        · exact Or.inr (List.mem_cons_of_mem _ hupdates)

/-- What a whole tick does to the tables, by the updates it stores. -/
abbrev TickDone (s : State) := RowsDone (unixTimestamp s.now) s.db.loadInFlightTransfers s []

theorem tick_ends (s : State) :
    (tick).Ends (execAnswers env) StatementsSucceed
      (fun past' _ s' => ∃ updates, TickDone s past' s' updates) [] s := by
  unfold tick
  apply Program.ends_call_bind.mpr
  intro answers hanswers
  have hload : execAnswers env s .loadInFlightTransfers answers =
      (.ok s.db.loadInFlightTransfers, s) := by
    simp only [execAnswers, exec, State.read, hanswers.1]
  rw [hload]
  apply Program.ends_call_bind.mpr
  intro _ _
  apply (tickRows_ends _ _ 0 _ _).mono
  rintro past' _ s' ⟨hgrows, updates, hdone⟩
  refine ⟨updates, hdone.probed, hdone.stored, hdone.stores, ?_⟩
  intro id eps answer h
  rcases hdone.only id eps answer h with hpast | hupdates
  · simp only [List.nil_append, List.cons_append, List.mem_cons, List.not_mem_nil, or_false] at hpast
    rcases hpast with hpast | hpast <;> cases hpast
  · exact Or.inr hupdates

variable (env) in
theorem execution_done (t : MonitorTick) (s : State) (ht : ∀ n, StatementsSucceed (t.answers n)) :
    ∃ updates, TickDone (t.start s) (t.execution env s).events (t.final env s) updates := by
  have hends := @tick_ends env (t.start s)
  have h := hends.execute ht
  rwa [List.nil_append] at h

end Tick

/-! ## The order of the backlog -/

/-- The backlog as a tick takes it: the oldest first. -/
def queue (s : State) : List TransferRow :=
  (backlog s).insertionSort fun a b => a.createdAt ≤ b.createdAt

theorem loadInFlightTransfers_eq (s : State) :
    s.db.loadInFlightTransfers =
      ((queue s).take Db.inFlightLimit).map fun row => (row.transferId, row.reachableAt) := rfl

theorem mem_queue {s : State} {row : TransferRow} : row ∈ queue s ↔ row ∈ backlog s :=
  List.mem_insertionSort _

theorem length_queue (s : State) : (queue s).length = (backlog s).length :=
  List.length_insertionSort _ _

section Order

variable {s s' : State} {events : List (Event effects)} {updates : List (String × List Endpoint)}

theorem UniqueIds.queue (h : UniqueIds s) : ((queue s).map (·.transferId)).Nodup := by
  have hbacklog : ((backlog s).map (·.transferId)).Nodup :=
    h.sublist (List.filter_sublist.map _)
  exact ((List.perm_insertionSort _ (backlog s)).map _).nodup_iff.mpr hbacklog

theorem exists_of_forall₂_right {α β : Type} {R : α → β → Prop} {xs : List α} {ys : List β}
    (h : List.Forall₂ R xs ys) {y : β} (hy : y ∈ ys) : ∃ x ∈ xs, R x y := by
  induction h with
  | nil => cases hy
  | cons hxy _ ih =>
    rcases List.mem_cons.mp hy with rfl | hy
    · exact ⟨_, List.mem_cons_self, hxy⟩
    · obtain ⟨x, hx, hxy⟩ := ih hy
      exact ⟨x, List.mem_cons_of_mem _ hx, hxy⟩

theorem exists_of_forall₂_left {α β : Type} {R : α → β → Prop} {xs : List α} {ys : List β}
    (h : List.Forall₂ R xs ys) {x : α} (hx : x ∈ xs) : ∃ y ∈ ys, R x y :=
  exists_of_forall₂_right h.flip hx

theorem loaded_nonempty (s : State) :
    (s.db.loadInFlightTransfers.filter fun row => !row.2.isEmpty) = s.db.loadInFlightTransfers := by
  apply List.filter_eq_self.mpr
  intro row hrow
  rw [loadInFlightTransfers_eq] at hrow
  obtain ⟨t, ht, rfl⟩ := List.mem_map.mp hrow
  have hflight := (List.mem_filter.mp (mem_queue.mp (List.mem_of_mem_take ht))).2
  exact (Bool.and_eq_true_iff.mp hflight).2

theorem RowsDone.probed_queue (h : TickDone s events s' updates) :
    List.Forall₂ (fun row u => u.1 = row.transferId ∧
      List.Forall₂ (Probed (unixTimestamp s.now)) row.reachableAt u.2)
      ((queue s).take Db.inFlightLimit) updates := by
  have hprobed := h.probed
  rw [loaded_nonempty, loadInFlightTransfers_eq] at hprobed
  exact List.forall₂_map_left_iff.mp hprobed

theorem RowsDone.ids_nodup (hids : UniqueIds s) (h : TickDone s events s' updates) :
    (updates.map Prod.fst).Nodup := by
  have hsame : List.Forall₂ (· = ·) (((queue s).take Db.inFlightLimit).map (·.transferId))
      (updates.map Prod.fst) := by
    rw [List.forall₂_map_left_iff, List.forall₂_map_right_iff]
    exact h.probed_queue.imp fun row u hu => hu.1.symm
  rw [List.forall₂_eq_eq_eq] at hsame
  rw [← hsame]
  exact hids.queue.sublist ((List.take_sublist _ _).map _)

/-- An updated transfer is in flight before the tick, and stays in flight. -/
theorem RowsDone.inFlight (hids : UniqueIds s) (h : TickDone s events s' updates)
    {row : TransferRow} (hrow : row ∈ s.db.transfers) :
    inFlight (refreshed updates row) = inFlight row := by
  unfold refreshed
  split
  · rename_i endpoints hlookup
    obtain ⟨before, after, rfl, -⟩ := List.lookup_eq_some_iff.mp hlookup
    obtain ⟨loaded, hloaded, hid, hprobed⟩ := exists_of_forall₂_right h.probed_queue
      (List.mem_append_right before List.mem_cons_self)
    obtain ⟨hmem, hflight⟩ := List.mem_filter.mp (mem_queue.mp (List.mem_of_mem_take hloaded))
    obtain rfl := List.inj_on_of_nodup_map hids hmem hrow hid.symm
    rw [hflight]
    obtain ⟨hstate, hnonempty⟩ := Bool.and_eq_true_iff.mp hflight
    have hendpoints : endpoints ≠ [] := by
      rintro rfl
      rw [List.forall₂_nil_right_iff.mp hprobed] at hnonempty
      cases hnonempty
    simpa [ControlPlane.inFlight, hendpoints] using hstate
  · rfl

/-- A tick leaves the transfers in flight in their order. -/
theorem RowsDone.queue_ids (hids : UniqueIds s) (h : TickDone s events s' updates) :
    (queue s').map (·.transferId) = (queue s).map (·.transferId) := by
  have hbacklog : backlog s' = (backlog s).map (refreshed updates) := by
    rw [backlog, h.stored, persisted_transfers (h.ids_nodup hids), List.filter_map, backlog]
    congr 1
    exact List.filter_congr fun row hrow => h.inFlight hids hrow
  have hqueue : queue s' = (queue s).map (refreshed updates) := by
    rw [queue, queue, hbacklog]
    exact (List.map_insertionSort _ _ _ _ fun a _ b _ => by simp).symm
  rw [hqueue, List.map_map]
  exact List.map_congr_left fun row _ => refreshed_transferId row

theorem RowsDone.uniqueIds (hids : UniqueIds s) (h : TickDone s events s' updates) :
    UniqueIds s' := by
  rw [UniqueIds, h.stored, persisted_transfers (h.ids_nodup hids), List.map_map]
  have hsame : ((·.transferId) ∘ refreshed updates : TransferRow → String) = (·.transferId) :=
    funext fun row => refreshed_transferId row
  rwa [hsame]

end Order

/-! ## Coverage -/

section Coverage

variable {env : Env} {s : State}

theorem start_uniqueIds {t : MonitorTick} (hids : UniqueIds s) (ht : t.rows.Perm s.db.transfers) :
    UniqueIds (t.start s) := (ht.map _).nodup_iff.mpr hids

/-- A tick refreshes what it has loaded. -/
theorem refreshes_of_loaded (hids : UniqueIds s) {t : MonitorTick}
    (ht : t.rows.Perm s.db.transfers) (hanswers : ∀ n, StatementsSucceed (t.answers n))
    {row : TransferRow} (hrow : row ∈ (queue (t.start s)).take Db.inFlightLimit) :
    Refreshes env s t row.transferId := by
  obtain ⟨updates, hdone⟩ := execution_done env t s hanswers
  have hstart := start_uniqueIds hids ht
  obtain ⟨⟨id, updated⟩, hu, rfl, hprobed⟩ := exists_of_forall₂_left hdone.probed_queue hrow
  have hmem : row ∈ t.rows :=
    (List.mem_filter.mp (mem_queue.mp (List.mem_of_mem_take hrow))).1
  refine ⟨row, ht.mem_iff.mp hmem, rfl, updated, hprobed, ?_, ?_⟩
  · have hcount : ((t.start s).db.transfers.map (·.transferId)).count row.transferId = 1 :=
      List.count_eq_one_of_mem hstart (List.mem_map_of_mem hmem)
    have hstores := hdone.stores _ hu
    rwa [hcount] at hstores
  · have hids' := hdone.ids_nodup hstart
    have hsome : ((t.start s).db.findTransfer row.transferId).isSome = true := by
      rw [Db.findTransfer, List.find?_isSome]
      exact ⟨row, hmem, by simp⟩
    obtain ⟨row', hfind⟩ := Option.isSome_iff_exists.mp hsome
    have hid : row'.transferId = row.transferId := by simpa using List.find?_some hfind
    rw [hdone.stored, findTransfer_persisted hids', hfind, Option.map_some, Option.map_some,
      refreshed_of_mem hids' (by rwa [hid])]

/-- A tick refreshes nothing else. -/
theorem loaded_of_refreshes {t : MonitorTick} (hanswers : ∀ n, StatementsSucceed (t.answers n))
    {transferId : String} (h : Refreshes env s t transferId) :
    transferId ∈ ((queue (t.start s)).take Db.inFlightLimit).map (·.transferId) := by
  obtain ⟨updates, hdone⟩ := execution_done env t s hanswers
  obtain ⟨-, -, -, updated, -, hevent, -⟩ := h
  rcases hdone.only _ _ _ hevent with hpast | hu
  · cases hpast
  · obtain ⟨row, hrow, hid, -⟩ := exists_of_forall₂_right hdone.probed_queue hu
    exact List.mem_map.mpr ⟨row, hrow, hid.symm⟩

theorem monitorCovers_of_le (hids : UniqueIds s) (hn : (backlog s).length ≤ Db.inFlightLimit) :
    MonitorCovers env s := by
  intro ticks hticks hlength row hrow
  have hpos : 0 < (backlog s).length := List.length_pos_of_mem hrow
  have hrounds : rounds (backlog s).length = 1 := by
    simp only [rounds, Db.inFlightLimit] at hn ⊢
    omega
  cases ticks with
  | nil => simp [hrounds] at hlength
  | cons t rest =>
    obtain ⟨ht, hanswers, -⟩ := hticks
    have hbacklog : (backlog (t.start s)).Perm (backlog s) := ht.filter _
    apply Or.inl
    apply refreshes_of_loaded hids ht hanswers
    rw [List.take_of_length_le (by rwa [length_queue, hbacklog.length_eq]), mem_queue]
    exact hbacklog.mem_iff.mpr hrow

/-- A tick in which the table is held as it is, the clock stands still and every probe succeeds. -/
def steadyTick (s : State) : MonitorTick := ⟨s.db.transfers, s.now, fun _ _ => {}⟩

def steadyTicks (env : Env) : ℕ → State → List MonitorTick
  | 0, _ => []
  | n + 1, s => steadyTick s :: steadyTicks env n ((steadyTick s).final env s)

theorem length_steadyTicks (n : ℕ) : (steadyTicks env n s).length = n := by
  induction n generalizing s with
  | zero => rfl
  | succ n ih => simp [steadyTicks, ih]

theorem steadyTicks_consecutive (n : ℕ) : Consecutive env s (steadyTicks env n s) := by
  induction n generalizing s with
  | zero => trivial
  | succ n ih => exact ⟨List.Perm.refl _, fun _ => ⟨rfl, fun _ _ => rfl⟩, ih⟩

/-- What a steady tick does not load, none of the following ones does. -/
theorem not_refreshedIn_steadyTicks (hids : UniqueIds s) {transferId : String}
    (h : transferId ∉ ((queue s).take Db.inFlightLimit).map (·.transferId)) (n : ℕ) :
    ¬RefreshedIn env s (steadyTicks env n s) transferId := by
  induction n generalizing s with
  | zero => exact id
  | succ n ih =>
    have hanswers : ∀ k, StatementsSucceed ((steadyTick s).answers k) := fun _ => ⟨rfl, fun _ _ => rfl⟩
    obtain ⟨updates, hdone⟩ := execution_done env (steadyTick s) s hanswers
    change TickDone s _ _ updates at hdone
    rintro (hnow | hlater)
    · exact h (loaded_of_refreshes hanswers hnow)
    · apply ih (hdone.uniqueIds hids) _ hlater
      rwa [List.map_take, hdone.queue_ids hids, ← List.map_take]

/-- Behind the limit stands a transfer that no tick reaches. -/
theorem not_monitorCovers_of_lt (hids : UniqueIds s) (hn : Db.inFlightLimit < (backlog s).length) :
    ¬MonitorCovers env s := by
  intro h
  rw [← length_queue] at hn
  have hrow : (queue s)[Db.inFlightLimit] ∈ backlog s := mem_queue.mp (List.getElem_mem hn)
  refine not_refreshedIn_steadyTicks hids ?_ _
    (h _ (steadyTicks_consecutive (rounds (backlog s).length)) (length_steadyTicks _) _ hrow)
  intro hmem
  rw [List.map_take] at hmem
  have hlast : (queue s)[Db.inFlightLimit].transferId ∈
      ((queue s).map (·.transferId)).drop Db.inFlightLimit := by
    rw [← List.map_drop, List.drop_eq_getElem_cons hn, List.map_cons]
    exact List.mem_cons_self
  exact List.disjoint_take_drop hids.queue le_rfl hmem hlast

end Coverage

namespace Sample

/-- The `i`-th of a run of transfers in flight. -/
def pending (i : ℕ) : TransferRow where
  transferId := "tx_" ++ hexEncode (List.replicate 14 0 ++ [.ofNat (i / 256), .ofNat (i % 256)])
  senderAgentId := alice
  recipient := bob
  recipientKind := "spize_native"
  state := .readyForPickup
  sizeBytes := 5
  declaredMime := none
  filename := none
  reachableAt := [{ kind := Endpoint.kindCloudflareQuick, url := "https://x.trycloudflare.com" }]
  createdAt := 1700000000000000 + i

def backlogged (n : ℕ) : State where
  db := { transfers := (List.range n).map pending }

theorem length_backlog (n : ℕ) : (backlog (backlogged n)).length = n := by
  have hall : backlog (backlogged n) = (List.range n).map pending := by
    apply List.filter_eq_self.mpr
    intro row hrow
    obtain ⟨i, -, rfl⟩ := List.mem_map.mp hrow
    rfl
  simp [hall]

theorem backlogged_uniqueIds {n : ℕ} (hn : n ≤ 65536) : UniqueIds (backlogged n) := by
  rw [UniqueIds, backlogged, List.map_map]
  apply List.nodup_range.map_on
  intro i hi j hj h
  have hbytes := hexEncode_inj (String.append_right_inj _ |>.mp h)
  have hpair := List.append_cancel_left hbytes
  simp only [List.cons.injEq, and_true] at hpair
  have hhigh := congrArg UInt8.toNat hpair.1
  have hlow := congrArg UInt8.toNat hpair.2
  simp only [UInt8.toNat_ofNat', List.mem_range] at hhigh hlow hi hj
  omega

end Sample

end AgentExchange.ControlPlane
