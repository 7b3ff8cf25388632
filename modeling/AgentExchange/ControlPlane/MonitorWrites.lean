import AgentExchange.ControlPlane.Insertions
import AgentExchange.ControlPlane.Interference
import AgentExchange.ControlPlane.ProbeSafety
import AgentExchange.ControlPlane.StoredEndpoints

/-!
# What a tick writes back

A tick stores a list for a transfer after it has loaded the old one, read the clock and
probed every endpoint. Between loading and storing other requests are served, so the list
that is replaced need not be the one that was loaded; it names the same targets in the same
order, since nothing but a tick replaces a list.
-/
namespace AgentExchange.ControlPlane

open Library Wire

/-- `ValidatorProber::probe`. -/
def probeOutcome (ep : Endpoint) : Prog Bool := do
  let results ← validateAll [ep]
  pure (atLeastOneHealthy results)

/-- Everything of an endpoint but its health. -/
structure SameTarget (ep ep' : Endpoint) : Prop where
  kind : ep.kind = ep'.kind
  url : ep.url = ep'.url
  priority : ep.priority = ep'.priority
  healthHintUnix : ep.healthHintUnix = ep'.healthHintUnix

theorem SameTarget.refl (ep : Endpoint) : SameTarget ep ep := ⟨rfl, rfl, rfl, rfl⟩

theorem SameTarget.symm {ep ep' : Endpoint} (h : SameTarget ep ep') : SameTarget ep' ep :=
  ⟨h.kind.symm, h.url.symm, h.priority.symm, h.healthHintUnix.symm⟩

theorem SameTarget.trans {ep₁ ep₂ ep₃ : Endpoint} (h : SameTarget ep₁ ep₂)
    (h' : SameTarget ep₂ ep₃) : SameTarget ep₁ ep₃ :=
  ⟨h.kind.trans h'.kind, h.url.trans h'.url, h.priority.trans h'.priority,
    h.healthHintUnix.trans h'.healthHintUnix⟩

/-- The same targets in the same order. -/
abbrev SameTargets : List Endpoint → List Endpoint → Prop := List.Forall₂ SameTarget

theorem SameTargets.refl (endpoints : List Endpoint) : SameTargets endpoints endpoints :=
  List.forall₂_same.mpr fun ep _ => .refl ep

theorem SameTargets.symm {endpoints endpoints' : List Endpoint}
    (h : SameTargets endpoints endpoints') : SameTargets endpoints' endpoints := by
  induction h with
  | nil => exact .nil
  | cons hep _ ih => exact .cons hep.symm ih

theorem SameTargets.trans {eps₁ eps₂ eps₃ : List Endpoint} (h : SameTargets eps₁ eps₂)
    (h' : SameTargets eps₂ eps₃) : SameTargets eps₁ eps₃ := by
  induction h generalizing eps₃ with
  | nil => exact h'
  | cons hep _ ih =>
    cases h' with
    | cons hep' h' => exact .cons (hep.trans hep') (ih h')

/-- A tick that is about to store a list: the transfers it has loaded, those before this one
already dealt with, and the probes of this one, each on events of its own. -/
structure TickWrite where
  transferId : String
  endpoints : List Endpoint
  done : List (String × List Endpoint)
  todo : List (String × List Endpoint)
  now : Timestamp
  earlier : History
  runs : List (History × Bool)
  probed : List.Forall₂ Program.Returns (endpoints.map probeOutcome) runs
  stored : ∀ e ∈ earlier ++ (runs.map Prod.fst).flatten, ∀ id eps,
    e.op = .persistReachableAt id eps → id ∈ done.map Prod.fst

namespace TickWrite

variable (w : TickWrite)

def rows : List (String × List Endpoint) := w.done ++ (w.transferId, w.endpoints) :: w.todo

def past : History :=
  Loads w.rows :: ⟨.clockNow, w.now⟩ :: (w.earlier ++ (w.runs.map Prod.fst).flatten)

def nowUnix : Int64 := unixTimestamp w.now

def outcomes : List Bool := w.runs.map Prod.snd

def updated : List Endpoint :=
  List.zipWith (fun ep success => foldHealth ep success w.nowUnix) w.endpoints w.outcomes

theorem length_outcomes : w.outcomes.length = w.endpoints.length := by
  simpa [outcomes] using w.probed.length_eq.symm

theorem sameTargets : SameTargets w.endpoints w.updated := by
  have hlen := w.length_outcomes
  unfold updated
  generalize w.outcomes = outcomes at hlen
  generalize w.endpoints = endpoints at hlen
  induction endpoints generalizing outcomes with
  | nil => exact .nil
  | cons ep endpoints ih =>
    cases outcomes with
    | nil => cases hlen
    | cons success outcomes =>
      exact .cons ⟨rfl, rfl, rfl, rfl⟩ (ih outcomes (by simpa using hlen))

end TickWrite

/-- What the request's program stores for a transfer, and when. -/
def rewrites (r : Request) (past : History) (op : Op) : Prop :=
  ∀ id updated, op = .persistReachableAt id updated →
    r = .tick ∧ ∃ w : TickWrite, w.past = past ∧ w.transferId = id ∧ w.updated = updated

/-! ## One tick -/

/-- The list that comes out of the probes of all endpoints, one after the other. -/
theorem runs_probeAll {nowUnix : Int64} {endpoints updated : List Endpoint} {es : History}
    (h : Program.Runs (probeAll nowUnix endpoints) es (.pure updated)) :
    ∃ runs, List.Forall₂ Program.Returns (endpoints.map probeOutcome) runs ∧
      es = (runs.map Prod.fst).flatten ∧
      updated = List.zipWith (fun ep success => foldHealth ep success nowUnix) endpoints
        (runs.map Prod.snd) := by
  induction endpoints generalizing es updated with
  | nil =>
    obtain ⟨rfl, rfl⟩ := Program.runs_pure_iff.mp h
    exact ⟨[], .nil, rfl, rfl⟩
  | cons ep endpoints ih =>
    obtain ⟨own, rest, results, rfl, hown, hrest⟩ := Program.runs_bind_pure.mp h
    obtain ⟨later, last, tail, rfl, hlater, hlast⟩ := Program.runs_bind_pure.mp hrest
    obtain ⟨rfl, rfl⟩ := Program.runs_pure_iff.mp hlast
    obtain ⟨runs, hruns, rfl, rfl⟩ := ih hlater
    have hprobe : Program.Returns (probeOutcome ep) (own, atLeastOneHealthy results) :=
      Program.runs_bind_pure.mpr ⟨own, [], results, (List.append_nil own).symm, hown, .start⟩
    exact ⟨(own, atLeastOneHealthy results) :: runs, .cons hprobe hruns, by simp, rfl⟩

theorem probeAll_probes (nowUnix : Int64) (endpoints : List Endpoint) :
    (probeAll nowUnix endpoints).Only Op.Probes := by
  induction endpoints with
  | nil => trivial
  | cons ep rest ih =>
    exact (validateAll_probes [ep]).bind fun _ => ih.bind fun _ => trivial

theorem Op.Probes.ne_persist {op : Op} (h : op.Probes) (id : String) (updated : List Endpoint) :
    op ≠ .persistReachableAt id updated := by
  rintro rfl
  exact h

theorem Op.Probes.rewrites {r : Request} (past : History) (op : Op) (h : op.Probes) :
    rewrites r past op :=
  fun id updated hop => absurd hop (h.ne_persist id updated)

theorem tickRows_rewrites {now : Timestamp} (done rows : List (String × List Endpoint))
    (earlier : History)
    (hstored : ∀ e ∈ earlier, ∀ id eps, e.op = .persistReachableAt id eps → id ∈ done.map Prod.fst)
    (touched : ℕ) :
    (tickRows (unixTimestamp now) rows touched).Spec (rewrites .tick) (fun _ _ => True)
      (Loads (done ++ rows) :: ⟨.clockNow, now⟩ :: earlier) := by
  induction rows generalizing done earlier touched with
  | nil => trivial
  | cons row rest ih =>
    obtain ⟨transferId, endpoints⟩ := row
    have hrest (earlier' : History) (touched : ℕ)
        (h : ∀ e ∈ earlier', ∀ id eps, e.op = .persistReachableAt id eps →
          id ∈ done.map Prod.fst ∨ id = transferId) := by
      have := ih (done ++ [(transferId, endpoints)]) earlier'
        (fun e he id eps hop => by simpa using h e he id eps hop) touched
      rwa [List.append_assoc] at this
    unfold tickRows
    split_ifs
    · exact hrest earlier touched fun e he id eps hop => Or.inl (hstored e he id eps hop)
    · refine (probeAll_probes _ endpoints).runs_bind Op.Probes.rewrites (fun _ _ => trivial)
        fun es updated hruns hes => ?_
      obtain ⟨runs, hprobed, rfl, rfl⟩ := runs_probeAll hruns
      have hquiet : ∀ e ∈ earlier ++ (runs.map Prod.fst).flatten, ∀ id eps,
          e.op = .persistReachableAt id eps → id ∈ done.map Prod.fst := by
        intro e he id eps hop
        rcases List.mem_append.mp he with he | he
        · exact hstored e he id eps hop
        · exact absurd hop ((hes e he).ne_persist id eps)
      refine Program.spec_call_bind.mpr ⟨?_, fun answer => ?_⟩
      · rintro _ _ ⟨⟩
        exact ⟨rfl, ⟨transferId, endpoints, done, rest, now, earlier, runs, hprobed, hquiet⟩, rfl,
          rfl, rfl⟩
      · refine Program.spec_lift_bind.mpr ⟨fun _ _ => ?_, fun _ _ => trivial⟩
        refine hrest (earlier ++ _ ++ [_]) (touched + 1) fun e he id eps hop => ?_
        rcases List.mem_append.mp he with he | he
        · exact Or.inl (hquiet e he id eps hop)
        · obtain rfl := List.mem_singleton.mp he
          cases hop
          exact Or.inr rfl

theorem tick_rewrites : tick.Spec (rewrites .tick) (fun _ _ => True) [] := by
  unfold tick
  refine Program.spec_call_bind.mpr ⟨by rintro _ _ ⟨⟩, fun answer => ?_⟩
  refine Program.spec_lift_bind.mpr ⟨fun rows hrows => ?_, fun _ _ => trivial⟩
  obtain rfl : answer = .ok rows := except_mapError_eq_ok.mp hrows
  refine Program.spec_call_bind.mpr ⟨by rintro _ _ ⟨⟩, fun now => ?_⟩
  exact tickRows_rewrites [] rows [] (by simp) 0

/-- Nothing but a tick replaces a list. -/
theorem handler_rewrites (env : Env) (r : Request) :
    (handler env r).Spec (rewrites r) (fun _ _ => True) [] := by
  have hnone {Q : Op → Prop} (hQ : ∀ op, Q op → ∀ id updated, op ≠ .persistReachableAt id updated)
      (h : (handler env r).Only Q) : (handler env r).Spec (rewrites r) (fun _ _ => True) [] :=
    h.spec (fun _ op hop id updated heq => absurd heq (hQ op hop id updated)) fun _ _ => trivial
  cases r with
  | tick =>
    refine Program.spec_bind.mpr (tick_rewrites.mono (fun _ _ h => h) ?_)
    rintro _ (_ | _) _ <;> trivial
  | createTransfer req =>
    refine hnone (Q := Op.CreatesFor req.senderAgentId) ?_
      ((createTransfer_createsFor env req).bind fun _ => trivial)
    rintro _ hop id updated rfl
    exact hop
  | _ =>
    refine hnone (Q := Op.Local) ?_ (handler_local (by simp) (by simp))
    rintro _ hop id updated rfl
    exact hop

/-! ## Every run -/

/-- What a tick is about to store, in any run. -/
theorem rewritten {env : Env} {labels : List Label} {past rest : Trace}
    {e : Entry effects State Request} {id : String} {updated : List Endpoint}
    (he : (run env labels).trace = past ++ e :: rest)
    (hop : e.event.op = .persistReachableAt id updated) :
    e.request = .tick ∧ ∃ w : TickWrite, w.past = Pool.eventsOf past e.task ∧ w.transferId = id ∧
      w.updated = updated :=
  (Pool.run_conforms (semantics env) {} labels).operation_spec (handler_rewrites env) he id updated
    hop

variable {env : Env}

/-- Loading gives the lists of the table. -/
theorem loads_eq {w : World} (hconf : w.Conforms (semantics env))
    {e : Entry effects State Request} (he : e ∈ w.trace) {rows : List (String × List Endpoint)}
    (hload : e.event = Loads rows) : rows = e.before.db.loadInFlightTransfers := by
  obtain ⟨c, hanswer⟩ := hconf.answered e he
  rw [hload] at hanswer
  exact (State.read_eq_ok hanswer.symm).symm

theorem loaded_row {w : World} (hconf : w.Conforms (semantics env))
    {e : Entry effects State Request} (he : e ∈ w.trace) {rows : List (String × List Endpoint)}
    (hload : e.event = Loads rows) {row : String × List Endpoint} (hrow : row ∈ rows) :
    ∃ t ∈ e.before.db.transfers, row = (t.transferId, t.reachableAt) :=
  mem_loadInFlightTransfers (loads_eq hconf he hload ▸ hrow)

/-- A row of the table with the id and the targets of an earlier one. -/
def Holds (rows : List TransferRow) (row : TransferRow) : Prop :=
  ∃ row' ∈ rows, row'.transferId = row.transferId ∧ SameTargets row.reachableAt row'.reachableAt

/-- The rows that were inserted, or found in the table, are still there with the same targets. -/
structure TargetsKept (w : World) : Prop where
  created : ∀ e ∈ w.trace, ∀ row, Creates row e.event → Holds w.shared.db.transfers row
  found : ∀ e ∈ w.trace, ∀ row ∈ e.before.db.transfers, Holds w.shared.db.transfers row

theorem TableStep.created {now : Timestamp} {rows rows' : List TransferRow} {op : Op}
    {answer : op.Answer} (h : TableStep now rows op answer rows') {row : TransferRow}
    (hcreates : Creates row ⟨op, answer⟩) : row ∈ rows' := by
  obtain ⟨t, ⟨⟩⟩ := hcreates
  cases h with
  | quiet h => exact absurd rfl h
  | failed h => exact h.elim
  | insert => simp

theorem TableStep.targets {now : Timestamp} {rows rows' : List TransferRow} {op : Op}
    {answer : op.Answer} (h : TableStep now rows op answer rows')
    (hpersist : ∀ id updated, op = .persistReachableAt id updated → ∀ row ∈ rows,
      row.transferId = id → SameTargets row.reachableAt updated) :
    ∀ row ∈ rows, Holds rows' row := by
  intro row hrow
  cases h with
  | quiet _ => exact ⟨row, hrow, rfl, .refl _⟩
  | failed _ => exact ⟨row, hrow, rfl, .refl _⟩
  | insert t _ => exact ⟨row, List.mem_append_left _ hrow, rfl, .refl _⟩
  | accept transferId =>
    refine ⟨_, List.mem_map_of_mem hrow, ?_⟩
    unfold acceptRow
    split_ifs <;> exact ⟨rfl, .refl _⟩
  | deliver transferId =>
    refine ⟨_, List.mem_map_of_mem hrow, ?_⟩
    unfold deliverRow
    split_ifs <;> exact ⟨rfl, .refl _⟩
  | persist transferId updated _ =>
    refine ⟨_, List.mem_map_of_mem hrow, ?_⟩
    unfold persistRow
    split_ifs with hid
    · exact ⟨rfl, hpersist transferId updated rfl row hrow (by simpa [persistable] using hid)⟩
    · exact ⟨rfl, .refl _⟩

/-- A tick replaces the list of a row by one with the same targets, although others were served
since it has loaded it. -/
theorem TargetsKept.replaced {w : World} (h : TargetsKept w) (hconf : w.Conforms (semantics env))
    (htable : Table w.trace w.shared.db.transfers) {i : ℕ} {t : TickWrite}
    (hpast : t.past = Pool.eventsOf w.trace i) {row : TransferRow}
    (hrow : row ∈ w.shared.db.transfers) (hid : row.transferId = t.transferId) :
    SameTargets row.reachableAt t.updated := by
  have hload : Loads t.rows ∈ Pool.eventsOf w.trace i := hpast ▸ List.mem_cons_self
  obtain ⟨e, he, -, hevent⟩ := Pool.mem_eventsOf.mp hload
  have hmem : (t.transferId, t.endpoints) ∈ t.rows := by simp [TickWrite.rows]
  obtain ⟨old, hold, heq⟩ := loaded_row hconf he hevent hmem
  obtain ⟨hid', hendpoints⟩ := Prod.mk.inj heq
  obtain ⟨row', hrow', hrowid, htargets⟩ := h.found e he old hold
  obtain rfl : row = row' := htable.unique hrow hrow' (by rw [hid, hid', hrowid])
  exact htargets.symm.trans (hendpoints ▸ t.sameTargets)

theorem TargetsKept.step {w w' : World} {l : Label} (h : TargetsKept w) (hconf : w.Conforms (semantics env))
    (htable : Table w.trace w.shared.db.transfers) (hstep : Pool.Step (semantics env) w l w') :
    TargetsKept w' := by
  cases hstep with
  | @perform i c r op k hi =>
    have hafter := (exec_tableStep env w.shared op c).targets <| by
      rintro id updated rfl row hrow hid
      obtain ⟨-, t, hpast, htid, rfl⟩ :=
        hconf.pending_spec (handler_rewrites env) hi id updated rfl
      exact h.replaced hconf htable hpast hrow (hid.trans htid.symm)
    have hholds (row : TransferRow) (hrow : Holds w.shared.db.transfers row) :
        Holds (exec env w.shared op c).2.db.transfers row := by
      obtain ⟨mid, hmid, hid, htargets⟩ := hrow
      obtain ⟨row', hrow', hid', htargets'⟩ := hafter mid hmid
      exact ⟨row', hrow', hid'.trans hid, htargets.trans htargets'⟩
    constructor
    · intro e he row hcreates
      rcases List.mem_append.mp he with he | he
      · exact hholds row (h.created e he row hcreates)
      · obtain rfl := List.mem_singleton.mp he
        exact ⟨row, (exec_tableStep env w.shared op c).created hcreates, rfl, .refl _⟩
    · intro e he row hrow
      rcases List.mem_append.mp he with he | he
      · exact hholds row (h.found e he row hrow)
      · obtain rfl := List.mem_singleton.mp he
        exact hafter row hrow
  | _ => exact ⟨h.created, h.found⟩

theorem run_kept (env : Env) (labels : List Label) : TargetsKept (run env labels) := by
  induction labels using List.reverseRecOn with
  | nil => constructor <;> rintro e ⟨⟩
  | append_singleton labels l ih =>
    have hstep := Pool.next_step (semantics env) (run env labels) l
    rw [run, Pool.run_snoc]
    exact ih.step (Pool.run_conforms (semantics env) {} labels) (run_table env labels) hstep

/-- Whatever a tick is about to store names the targets of the row it replaces. -/
theorem persisted_sameTargets {labels : List Label} {past rest : Trace}
    {e : Entry effects State Request} {id : String} {updated : List Endpoint}
    (he : (run env labels).trace = past ++ e :: rest)
    (hop : e.event.op = .persistReachableAt id updated) :
    ∀ row ∈ e.before.db.transfers, row.transferId = id → SameTargets row.reachableAt updated := by
  obtain ⟨-, t, hpast, rfl, rfl⟩ := rewritten he hop
  obtain ⟨done, more, rfl, rfl, hshared⟩ := Pool.run_entry (semantics env) he
  rw [← hshared]
  intro row hrow hid
  exact (run_kept env done).replaced (Pool.run_conforms (semantics env) {} done)
    (run_table env done) hpast hrow hid

/-! ## No list is lost or reordered -/

theorem healthyEndpoints_eq (results : List EndpointProbeResult) (input : List Endpoint) :
    healthyEndpoints results input =
      ((input.zip results).filter fun p => p.2.healthy).map Prod.fst := by
  suffices hfrom : ∀ k, ((input.zipIdx k).filter fun p =>
      (results[p.2]?.map (·.healthy)).getD false).map Prod.fst =
        ((input.zip (results.drop k)).filter fun p => p.2.healthy).map Prod.fst from hfrom 0
  induction input with
  | nil => simp
  | cons ep input ih =>
    intro k
    rw [List.zipIdx_cons]
    by_cases hk : k < results.length
    · rw [List.drop_eq_getElem_cons hk, List.zip_cons_cons]
      cases hhealthy : results[k].healthy <;> simp [hk, hhealthy, ih]
    · have hdrop {n : ℕ} (hn : k ≤ n) : results.drop n = [] := List.drop_eq_nil_of_le (by omega)
      have htail := ih (k + 1)
      rw [hdrop (Nat.le_succ k)] at htail
      rw [hdrop le_rfl, List.filter_cons_of_neg (by simp [hk]), htail, List.zip_nil_right,
        List.zip_nil_right]

/-- The lists of a run: each is admitted with the endpoints whose own probe was healthy, in the
order of the request; a tick replaces it by one with the same targets, so the table holds the
targets that were admitted. -/
structure EndpointListsKept (w : World) : Prop where
  admitted : ∀ past e rest, w.trace = past ++ e :: rest → ∀ req row, insertion e = some (req, row) →
    ∀ endpoints, req.reachableAt = some endpoints → ∃ results,
      Validated (Pool.eventsOf past e.task) endpoints results ∧
        row.reachableAt = ((endpoints.zip results).filter fun p => p.2.healthy).map Prod.fst
  replaced : ∀ e ∈ w.trace, ∀ id updated, e.event.op = .persistReachableAt id updated →
    ∀ row ∈ e.before.db.transfers, row.transferId = id → SameTargets row.reachableAt updated
  stored : ∀ e ∈ w.trace, ∀ req row, insertion e = some (req, row) →
    Holds w.shared.db.transfers row

/-- Probes that run at once: every result is at the place of its own endpoint, and the results are
those of some sequence of probes. -/
structure ProbesAligned (endpoints : List Endpoint) (es : List (ℕ × Event effects))
    (results : List EndpointProbeResult) : Prop where
  own : List.Forall₂ Program.Returns (endpoints.map probeEndpoint)
    (results.mapIdx fun i result => (Program.ownEvents es i, result))
  sequential : ∃ es', Program.Runs (validateAll endpoints) es' (.pure results)

theorem run_endpointListsKept (env : Env) (labels : List Label) :
    EndpointListsKept (run env labels) where
  admitted past e rest he req row hrow endpoints hreq := by
    obtain ⟨t, rfl, -, hinserts⟩ := inserted he hrow
    cases hinserts with
    | @reachable endpoints' results declaredSize transferId hreq' hsize hresults =>
      obtain rfl : endpoints = endpoints' := Option.some_inj.mp (hreq.symm.trans hreq')
      exact ⟨results, hresults, healthyEndpoints_eq results endpoints⟩
    | tunnel _ hreq' => rw [hreq] at hreq'; cases hreq'
    | blob hblob => rw [hblob.1] at hreq; cases hreq
  replaced e he id updated hop := by
    obtain ⟨past, rest, htrace⟩ := List.append_of_mem he
    exact persisted_sameTargets htrace hop
  stored e he req row hrow := (run_kept env labels).created e he row (insertion_eq_some hrow).2

theorem probesAligned_of_joinRuns {endpoints : List Endpoint} {es : List (ℕ × Event effects)}
    {results : List EndpointProbeResult}
    (h : Program.JoinRuns (ε := ApiError) (endpoints.map probeEndpoint) es (results.map .pure)) :
    ProbesAligned endpoints es results where
  own := h.returns
  sequential := by
    rw [validateAll_eq_sequence]
    exact Program.exists_joinRuns_iff.mp ⟨es, h⟩

/-- Endpoint lists are neither lost nor reordered: not by the probes that run at once, not in the
database, and in no run. -/
theorem endpoint_lists_kept (env : Env) (labels : List Label) :
    EndpointListsKept (run env labels) ∧
      (∀ endpoints es results,
        Program.JoinRuns (ε := ApiError) (endpoints.map probeEndpoint) es (results.map .pure) →
          ProbesAligned endpoints es results) ∧
      ∀ (endpoints : List Endpoint) json,
        Document.Reordered (.array (endpoints.map endpointDocument)) json →
          storedEndpoints json = endpoints :=
  ⟨run_endpointListsKept env labels, fun _ _ _ h => probesAligned_of_joinRuns h,
    fun _ _ h => storedEndpoints_of_reordered h⟩

namespace Sample

/-- The second endpoint has a kind nobody knows. -/
def threeEndpoints : List Endpoint :=
  [frpEndpoint "https://backup" 5, { kind := "carrier_pigeon", url := "coop:7" },
    { kind := Endpoint.kindIroh, url := "iroh:node", priority := -1 }]

/-- A tick of which every request is answered with an error, as task `i`. -/
def failingTick (i n : ℕ) : List Label :=
  .spawn .tick :: List.replicate n (.step i { http := .response "503" false })

def monitored : List Label := announcesEndpoints threeEndpoints 11 ++ failingTick 2 6

end Sample

theorem endpoint_lists_kept_monitored :
    (run Sample.env Sample.monitored).shared.db.transfers.map (·.reachableAt.map (·.url)) =
        [["https://backup", "iroh:node"]] ∧
      EndpointListsKept (run Sample.env Sample.monitored) := by
  refine ⟨?_, (endpoint_lists_kept Sample.env Sample.monitored).1⟩
  rw [Sample.env_eq]
  decide +kernel

end AgentExchange.ControlPlane
