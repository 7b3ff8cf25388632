import AgentExchange.ControlPlane.Replay

/-!
# Transfers and the policy engine

Only the branch that uploads the bytes asks the policy engine, before and after
the scan, and it stops on a denial alone: a pending decision passes like an
allowed one. A row that is ready for pickup was therefore allowed exactly where
the bytes were uploaded and no decision was left pending.
-/
namespace AgentExchange.ControlPlane

open Library

/-- The policy engine allowed a transfer with the row's sender, recipient, size and type. -/
def Allows (past : History) (row : TransferRow) (verdict : Option PipelineVerdict) : Prop :=
  ∃ q : PolicyRequest, Saw past (.evaluate q) .allow ∧ q.sender.asStr = row.senderAgentId ∧
    q.recipient = row.recipient ∧ q.sizeBytes = row.sizeBytes.toUInt64 ∧
    q.declaredMime = row.declaredMime ∧ q.scannerVerdict = verdict

/-- The row's bytes were allowed before and after the scan of just these bytes. -/
def BlobAllowed (env : Env) (past : History) (row : TransferRow) : Prop :=
  ∃ blob verdict, Saw past (.blobPut row.transferId blob) (.ok ()) ∧
    row.blobSha256 = some (hexEncode (env.sha256 blob)) ∧
    Allows past row none ∧ Saw past (.scan ⟨blob, row.declaredMime, row.filename⟩) verdict ∧
    Allows past row (some verdict)

/-- The task that inserted the row had the policy engine's consent. -/
def PolicyAllowed (env : Env) (w : World) (row : TransferRow) : Prop :=
  ∃ e ∈ w.trace, ∃ req row₀, insertion e = some (req, row₀) ∧ row.fixed = row₀.fixed ∧
    (∃ verdict, Allows (Pool.eventsOf w.trace e.task) row verdict) ∧
    (req.IsBlob → BlobAllowed env (Pool.eventsOf w.trace e.task) row)

/-- Every row ready for pickup was allowed by the policy engine. -/
def PolicyAdmission (env : Env) (w : World) : Prop :=
  ∀ row ∈ w.shared.db.transfers, row.state = .readyForPickup → PolicyAllowed env w row

/-- If the step makes a row ready for pickup, its request uploads the bytes and the policy engine
left no decision on it pending. -/
def AdmitsDecided (w : World) : Label → Prop
  | .step i _ => ∀ req t k,
      w.tasks[i]? = some ⟨.createTransfer req, some (.perform (.insertTransfer t) k)⟩ →
      t.state = .readyForPickup →
        req.IsBlob ∧ ∀ q decisionId eta,
          ¬Saw (Pool.eventsOf w.trace i) (.evaluate q) (.pending decisionId eta)
  | _ => True

/-- The same, of a row that was inserted. -/
def Decided (past : Trace) (i : ℕ) (r : Request) (op : Op) : Prop :=
  ∀ req t, r = .createTransfer req → op = .insertTransfer t → t.state = .readyForPickup →
    req.IsBlob ∧ ∀ q decisionId eta,
      ¬Saw (Pool.eventsOf past i) (.evaluate q) (.pending decisionId eta)

theorem inserted_decided {env : Env} {labels : List Label}
    (h : Pool.Along (semantics env) {} AdmitsDecided labels) {past rest : Trace}
    {e : Entry effects State Request} (he : (run env labels).trace = past ++ e :: rest) :
    Decided past e.task e.request e.event.op := by
  refine Pool.Along.performed (semantics env)
    (K := fun past e => Decided past e.task e.request e.event.op) h ?_ he
  rintro w i c r op k hi hC req t rfl rfl hstate
  exact hC req t k hi hstate

theorem allow_of_decided {past : History} {q : PolicyRequest} {decision : PolicyDecision}
    (hsaw : Saw past (.evaluate q) decision) (hdeny : ∀ code reason, decision ≠ .deny code reason)
    (hpending : ∀ q decisionId eta, ¬Saw past (.evaluate q) (.pending decisionId eta)) :
    Saw past (.evaluate q) .allow := by
  cases decision with
  | allow => exact hsaw
  | deny code reason => exact absurd rfl (hdeny code reason)
  | pending decisionId eta => exact absurd hsaw (hpending q decisionId eta)

/-- What the checks of an uploaded blob say of the row it became. -/
theorem BlobChecked.allowed {env : Env} {req : CreateTransferRequest} {past : History}
    {t : InsertTransfer} {org : String} {blob : Bytes} {verdict : PipelineVerdict}
    {pre post : PolicyDecision} {row : TransferRow}
    (h : BlobChecked env req past t org blob verdict pre post) {now : Timestamp}
    (hfixed : row.fixed = TransferRow.fixed { t with createdAt := now })
    (hpending : ∀ q decisionId eta, ¬Saw past (.evaluate q) (.pending decisionId eta)) :
    BlobAllowed env past row := by
  obtain ⟨hsender, hrecipient, hsize, hmime, hfilename, hsha⟩ :=
    TransferRow.columns_of_fixed hfixed
  have hid : row.transferId = t.transferId := TransferRow.transferId_of_fixed hfixed
  have hrow := h.row
  rw [hrow] at hsender hrecipient hsize hmime hfilename hsha
  dsimp only [storedInsert] at hsender hrecipient hsize hmime hfilename hsha
  have hsize' : row.sizeBytes.toUInt64 = UInt64.ofNat blob.length := by simp [hsize]
  refine ⟨blob, verdict, ?_, hsha, ?_, ?_, ?_⟩
  · rw [hid]
    exact h.stored
  · exact ⟨_, allow_of_decided h.preScan h.preScan_passed hpending, hsender.symm,
      hrecipient.symm, hsize'.symm, hmime.symm, rfl⟩
  · rw [hmime, hfilename]
    exact h.scanned
  · exact ⟨_, allow_of_decided h.postScan h.postScan_passed hpending, hsender.symm,
      hrecipient.symm, hsize'.symm, hmime.symm, rfl⟩

theorem Allows.mono {past past' : History} {row : TransferRow} {verdict : Option PipelineVerdict}
    (h : Allows past row verdict) (hs : past ⊆ past') : Allows past' row verdict := by
  obtain ⟨q, hq, hrest⟩ := h
  exact ⟨q, hq.mono hs, hrest⟩

theorem BlobAllowed.mono {env : Env} {past past' : History} {row : TransferRow}
    (h : BlobAllowed env past row) (hs : past ⊆ past') : BlobAllowed env past' row := by
  obtain ⟨blob, verdict, hput, hsha, hpre, hscan, hpost⟩ := h
  exact ⟨blob, verdict, hput.mono hs, hsha, hpre.mono hs, hscan.mono hs, hpost.mono hs⟩

/-- In a run whose rows become ready only from uploads with both decisions made, every row that is
ready for pickup was allowed by the policy engine. -/
theorem policyAdmission_of_admitsDecided (env : Env) (labels : List Label)
    (h : Pool.Along (semantics env) {} AdmitsDecided labels) :
    PolicyAdmission env (run env labels) := by
  intro row hrow hready
  obtain ⟨e, he, row₀, hcreates, hfixed, hrejected⟩ := (run_table env labels).origin row hrow
  obtain ⟨past, rest, htrace⟩ := List.append_of_mem he
  obtain ⟨req, t, hreq, hop, hrow₀, hadmitted⟩ := created_admitted htrace hcreates
  have hstate : t.state = .readyForPickup := by
    rcases hadmitted.state with hstate | hstate
    · exact hstate
    · have := hrejected (by rw [hrow₀]; exact hstate)
      rw [hready] at this
      cases this
  obtain ⟨hblob, hpending⟩ := inserted_decided h htrace req t hreq hop hstate
  obtain ⟨org, blob, verdict, pre, post, hchecked⟩ := hadmitted.blob hblob hstate
  rw [hrow₀] at hfixed
  have hsub : Pool.eventsOf past e.task ⊆ Pool.eventsOf (run env labels).trace e.task := by
    rw [htrace, Pool.eventsOf_append]
    exact List.subset_append_left _ _
  have hallowed := (hchecked.allowed hfixed hpending).mono hsub
  obtain ⟨-, -, -, -, hpre, -, -⟩ := id hallowed
  exact ⟨e, he, req, row₀, insertion_of_creates hreq hcreates, by rw [hfixed, hrow₀],
    ⟨none, hpre⟩, fun _ => hallowed⟩

/-- Where every request uploads its bytes and the policy engine decides at once, every row that
becomes ready is decided. -/
theorem admitsDecided_of_isBlob (env : Env) (labels : List Label)
    (h : ∀ req, .spawn (.createTransfer req) ∈ labels → req.IsBlob)
    (hpolicy : ∀ q decisionId eta, env.policy q ≠ .pending decisionId eta) :
    Pool.Along (semantics env) {} AdmitsDecided labels := by
  rintro done (r | ⟨i, c⟩ | i | t) rest hlabels
  case step =>
    intro req t k hi _
    have hspawned := Pool.run_spawned (semantics env) {} done _ (List.mem_of_getElem? hi)
    refine ⟨h req (by simp [hlabels, hspawned]), ?_⟩
    intro q decisionId eta hsaw
    obtain ⟨e, he, -, hevent⟩ := Pool.mem_eventsOf.mp hsaw
    obtain ⟨c', hanswer⟩ := (Pool.run_conforms (semantics env) {} done).answered e he
    obtain ⟨task, request, before, event⟩ := e
    dsimp only at hevent hanswer
    subst hevent
    exact hpolicy q decisionId eta hanswer.symm
  all_goals trivial

/-- One upload. -/
def Sample.upload : List Label :=
  clockAt 1700000000 :: serve 0 (.register registerAlice) 3 ++
    serve 1 (.createTransfer blobRequest) 15 1

theorem policyAdmission_of_admitsDecided_upload :
    (run Sample.env Sample.upload).shared.db.transfers.map (·.state) = [.readyForPickup] ∧
      PolicyAdmission Sample.env (run Sample.env Sample.upload) := by
  refine ⟨?_, policyAdmission_of_admitsDecided _ _ (admitsDecided_of_isBlob _ _ ?_
    (TierPolicy.evaluate_ne_pending _))⟩
  · rw [Sample.env_eq]
    decide +kernel
  intro req hreq
  have hreq : req = Sample.blobRequest := by
    simpa [Sample.upload, Sample.serve, Sample.clockAt] using hreq
  rw [hreq]
  exact ⟨rfl, rfl⟩

/-- One request without a blob. -/
def Sample.tunnel : List Label :=
  clockAt 1700000000 :: serve 0 (.register registerAlice) 3 ++
    serve 1 (.createTransfer tunnelRequest) 9 1

/-- The operation asks the policy engine. -/
def Op.isEvaluate : Op → Bool
  | .evaluate _ => true
  | _ => false

/-- The row of a request without a blob is ready, and the policy engine was never asked. -/
theorem tunnel_unevaluated : ¬PolicyAdmission Sample.env (run Sample.env Sample.tunnel) := by
  intro h
  have hrun : (run Sample.env Sample.tunnel).shared.db.transfers = [Sample.tunnelRow 1] ∧
      (run Sample.env Sample.tunnel).trace.all (fun e => !e.event.op.isEvaluate) = true := by
    rw [Sample.env_eq]
    decide +kernel
  have hrow : Sample.tunnelRow 1 ∈ (run Sample.env Sample.tunnel).shared.db.transfers := by
    rw [hrun.1]
    exact List.mem_singleton.mpr rfl
  obtain ⟨e, -, req, row₀, -, -, ⟨verdict, q, hsaw, -⟩, -⟩ := h _ hrow rfl
  obtain ⟨e', he', -, hevent⟩ := Pool.mem_eventsOf.mp hsaw
  have hnot := List.all_eq_true.mp hrun.2 e' he'
  rw [hevent] at hnot
  cases hnot

end AgentExchange.ControlPlane
