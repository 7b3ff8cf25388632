import AgentExchange.ControlPlane.HealthDebouncer
import AgentExchange.ControlPlane.MonitorCoverage
import AgentExchange.ControlPlane.MonitorWrites

/-!
# The health of a stored endpoint

The health of an endpoint is what the debouncer makes of the monitor's probes of it, if two
things hold along the run: the list that is inserted carries no health, and no tick begins
before the last one has ended. The monitor's own loop sees to the second. Nothing sees to the
first: a sender may put a health block into the request.
-/
namespace AgentExchange

/-- The health after the probes of an endpoint that was admitted without one. -/
def EndpointHealth.earned : List (Bool × Int64) → Option EndpointHealth
  | [] => none
  | probe :: probes => some ((freshHealthy probe.2).folded (probe :: probes))

theorem EndpointHealth.earned_snoc (probes : List (Bool × Int64)) (probe : Bool × Int64) :
    earned (probes ++ [probe]) =
      some (((earned probes).getD (freshHealthy probe.2)).onProbe probe.1 probe.2) := by
  cases probes with
  | nil => rfl
  | cons first probes =>
    rw [List.cons_append, earned, earned, Option.getD_some, ← List.cons_append, folded_snoc]

namespace ControlPlane

open Library Wire

/-- The list of the transfer was replaced. -/
def Replaces (id : String) (e : Event effects) : Prop :=
  ∃ updated n, e = ⟨.persistReachableAt id updated, .ok n⟩

/-- The ticks that replaced the list of the transfer, in their order. -/
inductive Rounds (id : String) : Trace → List TickWrite → Prop
  | start : Rounds id [] []
  | other {trace : Trace} {rounds : List TickWrite} {e : Entry effects State Request}
      (h : Rounds id trace rounds) (hother : ¬Replaces id e.event) : Rounds id (trace ++ [e]) rounds
  | round {trace : Trace} {rounds : List TickWrite} {e : Entry effects State Request}
      {t : TickWrite} {n : ℕ} (h : Rounds id trace rounds) (hid : t.transferId = id)
      (hpast : t.past = Pool.eventsOf trace e.task)
      (hevent : e.event = ⟨.persistReachableAt id t.updated, .ok n⟩) :
    Rounds id (trace ++ [e]) (rounds ++ [t])

/-- What the tick found out about the endpoint at place `j`, and when. -/
def TickWrite.probeAt (t : TickWrite) (j : ℕ) : Bool × Int64 := (t.outcomes.getD j false, t.nowUnix)

/-- The health of every endpoint of the row is that of the probes that were made of it. A probe
counts once its tick has written it back. -/
def Earned (trace : Trace) (row : TransferRow) : Prop :=
  ∃ rounds, Rounds row.transferId trace rounds ∧
    (∀ t ∈ rounds, SameTargets t.endpoints row.reachableAt) ∧
    ∀ j ep, row.reachableAt[j]? = some ep →
      ep.health = EndpointHealth.earned (rounds.map (·.probeAt j))

/-! ## One operation -/

/-- Where a row of the table stood before an operation. -/
inductive RowCame (rows : List TransferRow) (e : Event effects) (row' : TransferRow) : Prop
  | same {row : TransferRow} (hrow : row ∈ rows) (hid : row'.transferId = row.transferId)
      (hlist : row'.reachableAt = row.reachableAt) (hnot : ¬Replaces row.transferId e)
  | inserted {t : InsertTransfer} (hop : e.op = .insertTransfer t)
      (hlist : row'.reachableAt = t.reachableAt)
      (hfresh : ∀ row ∈ rows, row.transferId ≠ row'.transferId)
  | replaced {row : TransferRow} {n : ℕ} (hrow : row ∈ rows) (hid : row'.transferId = row.transferId)
      (hevent : e = ⟨.persistReachableAt row.transferId row'.reachableAt, .ok n⟩)

theorem TableStep.came {now : Timestamp} {rows rows' : List TransferRow} {op : Op}
    {answer : op.Answer} (h : TableStep now rows op answer rows') {row' : TransferRow}
    (hrow' : row' ∈ rows') : RowCame rows ⟨op, answer⟩ row' := by
  cases h with
  | quiet hquiet =>
    refine .same hrow' rfl rfl ?_
    rintro ⟨updated, n, ⟨⟩⟩
    exact hquiet rfl
  | failed hfailed =>
    refine .same hrow' rfl rfl ?_
    rintro ⟨updated, n, ⟨⟩⟩
    exact hfailed
  | insert t hfresh =>
    rcases List.mem_append.mp hrow' with hold | hnew
    · refine .same hold rfl rfl ?_
      rintro ⟨updated, n, ⟨⟩⟩
    · obtain rfl := List.mem_singleton.mp hnew
      exact .inserted rfl rfl hfresh
  | accept transferId =>
    obtain ⟨row, hrow, rfl⟩ := List.mem_map.mp hrow'
    refine .same hrow ?_ ?_ ?_
    · unfold acceptRow
      split_ifs <;> rfl
    · unfold acceptRow
      split_ifs <;> rfl
    · rintro ⟨updated, n, ⟨⟩⟩
  | deliver transferId =>
    obtain ⟨row, hrow, rfl⟩ := List.mem_map.mp hrow'
    refine .same hrow ?_ ?_ ?_
    · unfold deliverRow
      split_ifs <;> rfl
    · unfold deliverRow
      split_ifs <;> rfl
    · rintro ⟨updated, n, ⟨⟩⟩
  | persist transferId updated n =>
    obtain ⟨row, hrow, rfl⟩ := List.mem_map.mp hrow'
    unfold persistRow
    split_ifs with hid
    · obtain rfl : row.transferId = transferId := by simpa [persistable] using hid
      exact .replaced hrow rfl rfl
    · refine .same hrow rfl rfl ?_
      rintro ⟨updated', n', ⟨⟩⟩
      simp [persistable] at hid

/-! ## The condition -/

/-- The program of the task has ended or was dropped. -/
def settled (t : Task effects Request ApiError Response) : Bool :=
  t.program.all (·.outcome.isSome)

/-- No tick begins before the others have ended, and no endpoint is inserted with a health. -/
def earnsHealth (w : World) : Label → Bool
  | .spawn .tick => w.tasks.all fun t => t.request ≠ .tick || settled t
  | .step i _ => (w.pending i).all fun op =>
      match op with
      | .insertTransfer t => t.reachableAt.all (·.health.isNone)
      | _ => true
  | _ => true

/-! ## The invariant -/

/-- What is known of a run so far, whatever the labels. -/
structure Sound (env : Env) (w : World) : Prop where
  conforms : w.Conforms (semantics env)
  table : Table w.trace w.shared.db.transfers
  kept : TargetsKept w
  unique : ∀ e ∈ w.trace, UniqueIds e.before

theorem run_sound (env : Env) (labels : List Label) : Sound env (run env labels) where
  conforms := Pool.run_conforms (semantics env) {} labels
  table := run_table env labels
  kept := run_kept env labels
  unique e he := by
    obtain ⟨past, rest, htrace⟩ := List.append_of_mem he
    obtain ⟨done, more, rfl, -, hshared⟩ := Pool.run_entry (semantics env) htrace
    rw [← hshared]
    exact (run_table env done).nodup

/-- Task `i` is a tick that has not ended. -/
def Open (tasks : List (Task effects Request ApiError Response)) (i : ℕ) : Prop :=
  ∃ t, tasks[i]? = some t ∧ t.request = .tick ∧ settled t = false

structure Earning (w : World) : Prop where
  earned : ∀ row ∈ w.shared.db.transfers, Earned w.trace row
  absent : ∀ id, (∀ row ∈ w.shared.db.transfers, row.transferId ≠ id) → Rounds id w.trace []
  sole : ∀ i j, Open w.tasks i → Open w.tasks j → i = j
  /-- A list that a tick has loaded and not yet replaced is still the one of the table. -/
  current : ∀ i, Open w.tasks i → ∀ rows, Loads rows ∈ Pool.eventsOf w.trace i →
    ∀ id endpoints, (id, endpoints) ∈ rows →
      (∀ e ∈ Pool.eventsOf w.trace i, ∀ updated, e.op ≠ .persistReachableAt id updated) →
      ∀ row ∈ w.shared.db.transfers, row.transferId = id → row.reachableAt = endpoints

section Step

variable {env : Env} {w : World}

theorem Sound.loaded (hs : Sound env w) {i : ℕ} {rows : List (String × List Endpoint)}
    (hload : Loads rows ∈ Pool.eventsOf w.trace i) {id : String} {endpoints : List Endpoint}
    (hmem : (id, endpoints) ∈ rows) : ∃ row ∈ w.shared.db.transfers, row.transferId = id := by
  obtain ⟨e, he, -, hevent⟩ := Pool.mem_eventsOf.mp hload
  obtain ⟨old, hold, heq⟩ := loaded_row hs.conforms he hevent hmem
  obtain ⟨row, hrow, hid, -⟩ := hs.kept.found e he old hold
  exact ⟨row, hrow, hid.trans (Prod.mk.inj heq).1.symm⟩

theorem Sound.nodup_loaded (hs : Sound env w) {i : ℕ} {rows : List (String × List Endpoint)}
    (hload : Loads rows ∈ Pool.eventsOf w.trace i) : (rows.map Prod.fst).Nodup := by
  obtain ⟨e, he, -, hevent⟩ := Pool.mem_eventsOf.mp hload
  rw [loads_eq hs.conforms he hevent, loadInFlightTransfers_eq, List.map_map]
  exact (hs.unique e he).queue.sublist ((List.take_sublist _ _).map _)

theorem TickWrite.loads_mem (t : TickWrite) : Loads t.rows ∈ t.past := List.mem_cons_self

theorem TickWrite.mem_rows (t : TickWrite) : (t.transferId, t.endpoints) ∈ t.rows := by
  simp [rows]

/-- Ids occur once in what is loaded, so the tick has not stored a list for this one before. -/
theorem TickWrite.unstored (t : TickWrite) (hids : (t.rows.map Prod.fst).Nodup) :
    ∀ e ∈ t.past, ∀ updated, e.op ≠ .persistReachableAt t.transferId updated := by
  intro e he updated hop
  rcases List.mem_cons.mp he with rfl | he
  · cases hop
  rcases List.mem_cons.mp he with rfl | he
  · cases hop
  have hdone := t.stored e he _ _ hop
  rw [rows, List.map_append, List.map_cons, List.nodup_append] at hids
  exact hids.2.2 _ hdone _ List.mem_cons_self rfl

theorem Earned.other {trace : Trace} {row row' : TransferRow} (h : Earned trace row)
    {e : Entry effects State Request} (hid : row'.transferId = row.transferId)
    (hlist : row'.reachableAt = row.reachableAt) (hnot : ¬Replaces row.transferId e.event) :
    Earned (trace ++ [e]) row' := by
  obtain ⟨rounds, hrounds, htargets, hhealth⟩ := h
  refine ⟨rounds, ?_, ?_, ?_⟩
  · rw [hid]
    exact hrounds.other hnot
  · rwa [hlist]
  · rwa [hlist]

/-- The endpoint at place `j` of an updated list. -/
theorem TickWrite.updated_at (t : TickWrite) {j : ℕ} {ep' : Endpoint}
    (h : t.updated[j]? = some ep') : ∃ ep, t.endpoints[j]? = some ep ∧
      ep' = foldHealth ep (t.probeAt j).1 (t.probeAt j).2 := by
  rw [updated, List.getElem?_zipWith] at h
  cases hep : t.endpoints[j]? with
  | none => simp [hep] at h
  | some ep =>
    cases hout : t.outcomes[j]? with
    | none => simp [hep, hout] at h
    | some success =>
      refine ⟨ep, rfl, ?_⟩
      simp only [hep, hout, Option.some.injEq] at h
      rw [← h, probeAt, List.getD_eq_getElem?_getD, hout, Option.getD_some]

theorem Earned.round {trace : Trace} {row row' : TransferRow} (h : Earned trace row)
    {e : Entry effects State Request} {t : TickWrite} {n : ℕ}
    (hid : row'.transferId = row.transferId) (htid : t.transferId = row.transferId)
    (hloaded : row.reachableAt = t.endpoints) (hlist : row'.reachableAt = t.updated)
    (hpast : t.past = Pool.eventsOf trace e.task)
    (hevent : e.event = ⟨.persistReachableAt row.transferId t.updated, .ok n⟩) :
    Earned (trace ++ [e]) row' := by
  obtain ⟨rounds, hrounds, htargets, hhealth⟩ := h
  refine ⟨rounds ++ [t], ?_, ?_, ?_⟩
  · rw [hid]
    exact hrounds.round htid hpast hevent
  · rw [hlist]
    refine List.forall_mem_append.mpr ⟨fun u hu => ?_, List.forall_mem_singleton.mpr t.sameTargets⟩
    exact (htargets u hu).trans (hloaded ▸ t.sameTargets)
  · intro j ep' hep'
    obtain ⟨ep, hep, rfl⟩ := t.updated_at (hlist ▸ hep')
    rw [foldHealth_eq, List.map_append, List.map_singleton, EndpointHealth.earned_snoc,
      hhealth j ep (hloaded ▸ hep)]

/-- A tick replaces the list that it has loaded. -/
theorem Earning.loaded (h : Earning w) (hs : Sound env w) {i : ℕ} (hopen : Open w.tasks i)
    {t : TickWrite} (hpast : t.past = Pool.eventsOf w.trace i) {row : TransferRow}
    (hrow : row ∈ w.shared.db.transfers) (hid : row.transferId = t.transferId) :
    row.reachableAt = t.endpoints := by
  have hload : Loads t.rows ∈ Pool.eventsOf w.trace i := hpast ▸ t.loads_mem
  refine h.current i hopen t.rows hload t.transferId t.endpoints t.mem_rows ?_ row hrow hid
  rw [← hpast]
  exact t.unstored (hs.nodup_loaded hload)

/-! One operation of task `i`. -/

variable {i : ℕ} {c : Choice} {r : Request} {op : Op}
  {k : effects.Answer op → Program effects ApiError Response}

/-- The entry that the operation adds to the trace. -/
abbrev performed (env : Env) (w : World) (i : ℕ) (r : Request) (op : Op) (c : Choice) :
    Entry effects State Request := ⟨i, r, w.shared, ⟨op, (exec env w.shared op c).1⟩⟩

theorem Sound.persists (hs : Sound env w) (hi : w.tasks[i]? = some ⟨r, some (.perform op k)⟩)
    {id : String} {updated : List Endpoint} (hop : op = .persistReachableAt id updated) :
    Open w.tasks i ∧ ∃ t : TickWrite, t.past = Pool.eventsOf w.trace i ∧ t.transferId = id ∧
      t.updated = updated := by
  obtain ⟨hr, hwrite⟩ := hs.conforms.pending_spec (handler_rewrites env) hi id updated hop
  exact ⟨⟨_, hi, hr, rfl⟩, hwrite⟩

theorem Earning.performed_earned (h : Earning w) (hs : Sound env w)
    (hi : w.tasks[i]? = some ⟨r, some (.perform op k)⟩)
    (hfresh : ∀ t, op = .insertTransfer t → ∀ ep ∈ t.reachableAt, ep.health = none) :
    ∀ row ∈ (exec env w.shared op c).2.db.transfers,
      Earned (w.trace ++ [performed env w i r op c]) row := by
  intro row' hrow'
  cases (exec_tableStep env w.shared op c).came hrow' with
  | same hrow hid hlist hnot => exact (h.earned _ hrow).other hid hlist hnot
  | @inserted t hop hlist hnew =>
    refine ⟨[], (h.absent _ hnew).other ?_, by simp, fun j ep hep => ?_⟩
    · rintro ⟨updated, n, he⟩
      obtain rfl : op = .persistReachableAt _ updated := congrArg Event.op he
      cases hop
    · exact hfresh t hop ep (hlist ▸ List.mem_of_getElem? hep)
  | @replaced row n hrow hid hevent =>
    obtain ⟨hopen, t, hpast, htid, hupdated⟩ := hs.persists hi (congrArg Event.op hevent)
    have hloaded := h.loaded hs hopen hpast hrow htid.symm
    exact (h.earned row hrow).round hid htid hloaded hupdated.symm hpast (hupdated ▸ hevent)

theorem Earning.performed_absent (h : Earning w) (hs : Sound env w)
    (hi : w.tasks[i]? = some ⟨r, some (.perform op k)⟩) {id : String}
    (hnone : ∀ row ∈ (exec env w.shared op c).2.db.transfers, row.transferId ≠ id) :
    Rounds id (w.trace ++ [performed env w i r op c]) [] := by
  have hbefore : ∀ row ∈ w.shared.db.transfers, row.transferId ≠ id := by
    intro row hrow hid
    obtain ⟨row', hrow', hsteps⟩ := (exec_tableStep env w.shared op c).steps row hrow
    exact hnone row' hrow' ((TransferRow.transferId_of_fixed hsteps.fixed).trans hid)
  refine (h.absent id hbefore).other ?_
  rintro ⟨updated, n, he⟩
  obtain ⟨-, t, hpast, rfl, -⟩ := hs.persists hi (congrArg Event.op he)
  obtain ⟨row, hrow, hid⟩ := hs.loaded (hpast ▸ t.loads_mem) t.mem_rows
  exact hbefore row hrow hid

/-- What a tick has loaded stays as it is until the tick itself replaces it. -/
theorem Earning.performed_current (h : Earning w) (hs : Sound env w)
    (hi : w.tasks[i]? = some ⟨r, some (.perform op k)⟩) {a : ℕ} (ha : Open w.tasks a)
    {rows : List (String × List Endpoint)}
    (hload : Loads rows ∈ Pool.eventsOf (w.trace ++ [performed env w i r op c]) a) {id : String}
    {endpoints : List Endpoint} (hmem : (id, endpoints) ∈ rows)
    (hnot : ∀ e ∈ Pool.eventsOf (w.trace ++ [performed env w i r op c]) a, ∀ updated,
      e.op ≠ .persistReachableAt id updated) :
    ∀ row ∈ (exec env w.shared op c).2.db.transfers, row.transferId = id →
      row.reachableAt = endpoints := by
  intro row' hrow' hid'
  rw [Pool.eventsOf_append] at hload hnot
  have hcame := (exec_tableStep env w.shared op c).came hrow'
  rcases List.mem_append.mp hload with hold | hnew
  · cases hcame with
    | @same row hrow hid hlist _ =>
      rw [hlist]
      exact h.current a ha rows hold id endpoints hmem
        (fun e he => hnot e (List.mem_append_left _ he)) row hrow (hid.symm.trans hid')
    | inserted _ _ hfresh =>
      obtain ⟨row, hrow, hid⟩ := hs.loaded hold hmem
      exact absurd (hid.trans hid'.symm) (hfresh row hrow)
    | @replaced row n hrow hid hevent =>
      obtain ⟨hopen, -⟩ := hs.persists hi (congrArg Event.op hevent)
      obtain rfl := h.sole a i ha hopen
      have hlast := hnot ⟨op, (exec env w.shared op c).1⟩
        (List.mem_append_right _ (by simp [Pool.eventsOf])) row'.reachableAt
      exact absurd (by rw [hevent, ← hid, hid']) hlast
  · obtain ⟨e, he, -, hevent⟩ := Pool.mem_eventsOf.mp hnew
    obtain rfl := List.mem_singleton.mp he
    obtain ⟨old, hold, heq⟩ : ∃ old ∈ w.shared.db.transfers,
        (id, endpoints) = (old.transferId, old.reachableAt) := by
      obtain rfl : op = .loadInFlightTransfers := congrArg Event.op hevent
      have hread : State.read c w.shared.db.loadInFlightTransfers = .ok rows := by
        injection hevent
      exact mem_loadInFlightTransfers (State.read_eq_ok hread ▸ hmem)
    obtain ⟨rfl, rfl⟩ := Prod.mk.inj heq
    cases hcame with
    | @same row hrow hid hlist _ =>
      rw [hlist, hs.table.unique hrow hold (hid.symm.trans hid')]
    | inserted hop =>
      cases (congrArg Event.op hevent).symm.trans hop
    | replaced _ _ hpersist =>
      cases (congrArg Event.op hevent).symm.trans (congrArg Event.op hpersist)

end Step

/-- A tick that is open after its task was replaced was open before. -/
theorem Open.of_set {tasks : List (Task effects Request ApiError Response)} {i a : ℕ}
    {t : Task effects Request ApiError Response} (t' : Task effects Request ApiError Response)
    (hi : tasks[i]? = some t) (hreq : t'.request = t.request)
    (hsettled : settled t' = false → settled t = false) (ha : Open (tasks.set i t') a) : Open tasks a := by
  obtain ⟨u, hu, htick, hopen⟩ := ha
  by_cases hia : i = a
  · subst hia
    rw [List.getElem?_set_self (List.getElem?_eq_some_iff.mp hi).1] at hu
    obtain rfl := Option.some_inj.mp hu
    exact ⟨t, hi, hreq.symm.trans htick, hsettled hopen⟩
  · rw [List.getElem?_set_ne hia] at hu
    exact ⟨u, hu, htick, hopen⟩

/-- A spawned tick is the only one that is open. -/
theorem Open.of_spawn {w : World} {r : Request} {q : Prog Response} {a : ℕ}
    (ha : Open (w.tasks ++ [⟨r, some q⟩]) a) :
    Open w.tasks a ∨ (a = w.tasks.length ∧ r = .tick) := by
  obtain ⟨u, hu, htick, hopen⟩ := ha
  by_cases hlt : a < w.tasks.length
  · rw [List.getElem?_append_left hlt] at hu
    exact Or.inl ⟨u, hu, htick, hopen⟩
  · obtain rfl : a = w.tasks.length := by
      have := (List.getElem?_eq_some_iff.mp hu).1
      rw [List.length_append, List.length_singleton] at this
      omega
    obtain rfl : ⟨r, some q⟩ = u := by simpa using hu
    exact Or.inr ⟨rfl, htick⟩

theorem not_open_of_earnsHealth {w : World} (h : earnsHealth w (.spawn .tick) = true) (a : ℕ) :
    ¬Open w.tasks a := by
  rintro ⟨t, ht, htick, hopen⟩
  have hsettled := List.all_eq_true.mp h t (List.mem_of_getElem? ht)
  simp [htick, hopen] at hsettled

theorem Earning.spawn {env : Env} {w : World} (h : Earning w) (hs : Sound env w) {r : Request}
    (hl : earnsHealth w (.spawn r) = true) {q : Prog Response} :
    Earning { w with tasks := w.tasks ++ [⟨r, some q⟩] } := by
  refine ⟨h.earned, h.absent, fun a b ha hb => ?_, fun a ha rows hload => ?_⟩
  · rcases ha.of_spawn with ha' | ⟨rfl, rfl⟩ <;> rcases hb.of_spawn with hb' | ⟨rfl, hr⟩
    · exact h.sole a b ha' hb'
    · subst hr
      exact absurd ha' (not_open_of_earnsHealth hl a)
    · exact absurd hb' (not_open_of_earnsHealth hl b)
    · rfl
  · rcases ha.of_spawn with ha | ⟨rfl, -⟩
    · exact h.current a ha rows hload
    · rw [Pool.eventsOf_eq_nil hs.conforms.task_lt le_rfl] at hload
      cases hload

theorem Earning.step {env : Env} {w w' : World} {l : Label} (h : Earning w) (hs : Sound env w)
    (hl : earnsHealth w l = true) (hstep : Pool.Step (semantics env) w l w') : Earning w' := by
  cases hstep with
  | spawn r => exact h.spawn hs hl
  | @perform i c r op k hi =>
    have hbefore {a : ℕ} {q : Prog Response} (ha : Open (w.tasks.set i ⟨r, some q⟩) a) :
        Open w.tasks a := Open.of_set ⟨r, some q⟩ hi rfl (fun _ => rfl) ha
    refine ⟨h.performed_earned hs hi ?_, fun id => h.performed_absent hs hi,
      fun a b ha hb => h.sole a b (hbefore ha) (hbefore hb),
      fun a ha rows hload id endpoints hmem hnot =>
        h.performed_current hs hi (hbefore ha) hload hmem hnot⟩
    rintro t rfl ep hep
    rw [earnsHealth, Pool.pending_eq_some hi] at hl
    simpa using List.all_eq_true.mp hl ep hep
  | @cancel i t hi =>
    have hbefore {a : ℕ} (ha : Open (w.tasks.set i { t with program := none }) a) :
        Open w.tasks a :=
      Open.of_set { t with program := none } hi rfl (fun hopen => by cases hopen) ha
    exact ⟨h.earned, h.absent, fun a b ha hb => h.sole a b (hbefore ha) (hbefore hb),
      fun a ha => h.current a (hbefore ha)⟩
  | environment t => exact ⟨h.earned, h.absent, h.sole, h.current⟩
  | idle => exact h

/-- Along a run in which no health is inserted and ticks do not overlap, the health of every
stored endpoint is what the debouncer makes of the probes of it. -/
theorem health_earned (env : Env) (labels : List Label)
    (h : Pool.Along (semantics env) {} (fun w l => earnsHealth w l = true) labels) :
    ∀ row ∈ (run env labels).shared.db.transfers, Earned (run env labels).trace row := by
  suffices hearning : Earning (run env labels) from hearning.earned
  induction labels using List.reverseRecOn with
  | nil =>
    refine ⟨by rintro row ⟨⟩, fun _ _ => .start, ?_, ?_⟩
    · rintro i j ⟨t, ht, -⟩
      cases ht
    · rintro i ⟨t, ht, -⟩
      cases ht
  | append_singleton labels l ih =>
    obtain ⟨hlabels, hl⟩ := h.snoc
    have hstep := Pool.next_step (semantics env) (run env labels) l
    rw [run, Pool.run_snoc]
    exact (ih hlabels).step (run_sound env labels) hl hstep

namespace Sample

/-- Two ticks one after the other, both of which find the endpoint down. -/
def monitoredTwice : List Label :=
  announcesEndpoints [frpEndpoint "https://backup" 1] 9 ++ failingTick 2 5 ++ failingTick 3 5

/-- An endpoint that its sender calls unhealthy. -/
def selfReported : Endpoint :=
  { frpEndpoint "https://backup" 1 with health := some ⟨.unhealthy, 3, 0, some 1⟩ }

def healthSent : List Label := announcesEndpoints [selfReported] 9

end Sample

theorem health_earned_twice :
    (run Sample.env Sample.monitoredTwice).shared.db.transfers.map
        (·.reachableAt.map (·.health)) = [[some ⟨.healthy, 2, 0, some 1700000000⟩]] ∧
      ∀ row ∈ (run Sample.env Sample.monitoredTwice).shared.db.transfers,
        Earned (run Sample.env Sample.monitoredTwice).trace row := by
  have hrun : Pool.AlongTo (semantics Sample.env) (fun w l => earnsHealth w l = true)
      (fun w => w.shared.db.transfers.map (·.reachableAt.map (·.health)) =
        [[some ⟨.healthy, 2, 0, some 1700000000⟩]])
      ⟨{}, [], []⟩ Sample.monitoredTwice := by
    rw [Sample.env_eq]
    decide +kernel
  obtain ⟨halong, hhealth⟩ := run_checked hrun
  exact ⟨hhealth, health_earned _ _ halong⟩

theorem Rounds.eq_nil {id : String} {trace : Trace} {rounds : List TickWrite}
    (h : Rounds id trace rounds) (hnone : ∀ e ∈ trace, ¬Replaces id e.event) : rounds = [] := by
  induction h with
  | start => rfl
  | other _ _ ih => exact ih fun e he => hnone e (List.mem_append_left _ he)
  | @round trace rounds e t n _ _ _ hevent =>
    exact absurd ⟨t.updated, n, hevent⟩ (hnone e (by simp))

def Op.isPersist : Op → Bool
  | .persistReachableAt _ _ => true
  | _ => false

/-- Without a single tick the endpoint is stored as unhealthy. -/
theorem sent_health_stored : ¬∀ row ∈ (run Sample.env Sample.healthSent).shared.db.transfers,
    Earned (run Sample.env Sample.healthSent).trace row := by
  intro h
  have hrun : (run Sample.env Sample.healthSent).shared.db.transfers.map (·.reachableAt) =
        [[Sample.selfReported]] ∧
      (run Sample.env Sample.healthSent).trace.all (fun e => !e.event.op.isPersist) = true := by
    rw [Sample.env_eq]
    decide +kernel
  obtain ⟨row, hrows, hlist⟩ := List.map_eq_singleton_iff.mp hrun.1
  obtain ⟨rounds, hrounds, -, hhealth⟩ := h row (by simp [hrows])
  have hnil : rounds = [] := hrounds.eq_nil fun e he => by
    rintro ⟨updated, n, hevent⟩
    have hquiet := List.all_eq_true.mp hrun.2 e he
    rw [hevent] at hquiet
    cases hquiet
  have hnone := hhealth 0 Sample.selfReported (by rw [hlist]; rfl)
  rw [hnil] at hnone
  cases hnone

end ControlPlane

end AgentExchange
