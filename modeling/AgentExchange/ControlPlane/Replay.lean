import AgentExchange.ControlPlane.Lifecycle

/-!
# Intent nonces and replayed intents

The nonce table answers `true` at most once for a nonce. The branch that uploads
the bytes asks it for the intent's nonce and stops on `false`; the two branches
without a blob ask it for the sender's identifier and go on with either answer.
So an intent replayed through one of these two branches makes a second row.
-/
namespace AgentExchange.ControlPlane

open Library

/-- The nonce table accepted the nonce as new. -/
def Consumes (nonce : String) (e : Library.Event effects) : Prop :=
  ∃ agentId, e = ⟨.consumeIntentNonce nonce agentId, .ok true⟩

/-- Nonces accepted as new are in the table, and no nonce is accepted twice. -/
structure NonceTable (trace : Trace) (nonces : List (String × String)) : Prop where
  stored : ∀ e ∈ trace, ∀ nonce, Consumes nonce e.event → nonce ∈ nonces.map Prod.fst
  once : trace.Pairwise fun e e' => ∀ nonce, Consumes nonce e.event → ¬Consumes nonce e'.event

theorem NonceTable.skip {trace : Trace} {nonces : List (String × String)}
    (h : NonceTable trace nonces) {x : Entry effects State Request}
    (hx : ∀ nonce, ¬Consumes nonce x.event) : NonceTable (trace ++ [x]) nonces := by
  constructor
  · intro e he nonce hc
    rcases List.mem_append.mp he with he | he
    · exact h.stored e he nonce hc
    · rw [List.mem_singleton.mp he] at hc
      exact absurd hc (hx nonce)
  · exact pairwise_snoc.mpr ⟨h.once, fun _ _ nonce _ => hx nonce⟩

theorem NonceTable.add {trace : Trace} {nonces : List (String × String)}
    (h : NonceTable trace nonces) {x : Entry effects State Request} {nonce agentId : String}
    (hx : x.event = ⟨.consumeIntentNonce nonce agentId, .ok true⟩)
    (hnew : nonce ∉ nonces.map Prod.fst) :
    NonceTable (trace ++ [x]) (nonces ++ [(nonce, agentId)]) := by
  have honly (n : String) (hc : Consumes n x.event) : n = nonce := by
    obtain ⟨a, ha⟩ := hc
    rw [hx] at ha
    cases ha
    rfl
  constructor
  · intro e he n hc
    rw [List.map_append, List.mem_append]
    rcases List.mem_append.mp he with he | he
    · exact Or.inl (h.stored e he n hc)
    · rw [List.mem_singleton.mp he] at hc
      exact Or.inr (by simp [honly n hc])
  · refine pairwise_snoc.mpr ⟨h.once, ?_⟩
    intro e he n hold hc
    rw [honly n hc] at hold
    exact hnew (h.stored e he nonce hold)

theorem NonceTable.step {trace : Trace} {env : Env} {s : State} {op : Op} {c : Choice} {i : ℕ}
    {r : Request} (h : NonceTable trace s.db.transferIntentNonces) :
    NonceTable (trace ++ [⟨i, r, s, ⟨op, (exec env s op c).1⟩⟩])
      (exec env s op c).2.db.transferIntentNonces := by
  by_cases hop : op.writes = some .intentNonces
  · cases op with
    | consumeIntentNonce nonce agentId =>
      rcases State.write_cases s c (.ok ((consume s.db.transferIntentNonces nonce agentId).1,
        { s.db with transferIntentNonces := (consume s.db.transferIntentNonces nonce agentId).2 }))
        with ⟨e, he⟩ | ⟨fresh, db, hout, hw⟩
      · simp only [exec, he]
        refine h.skip ?_
        rintro n ⟨a, ha⟩
        cases ha
      · cases hout
        simp only [exec, hw]
        unfold consume
        split_ifs with hin
        · refine h.skip ?_
          rintro n ⟨a, ha⟩
          cases ha
        · exact h.add rfl hin
    | _ => cases hop
  · rw [exec_intentNonces_frame hop]
    refine h.skip ?_
    rintro n ⟨a, ha⟩
    have hconsume : op = .consumeIntentNonce n a := congrArg Library.Event.op ha
    exact hop (by rw [hconsume]; rfl)

theorem run_nonceTable (env : Env) (labels : List Label) :
    NonceTable (run env labels).trace (run env labels).shared.db.transferIntentNonces :=
  run_invariant env labels (J := fun trace s => NonceTable trace s.db.transferIntentNonces)
    ⟨by simp, by simp⟩ (fun _ _ _ _ _ _ _ h => h.step) fun _ _ _ h => h

/-! ## Where a row comes from -/

/-- The request behind an inserted row. -/
def insertion : Entry effects State Request → Option (CreateTransferRequest × TransferRow)
  | ⟨_, .createTransfer req, _, ⟨.insertTransfer _, .ok row⟩⟩ => some (req, row)
  | _ => none

/-- The row was inserted for the request, and at most its lifecycle has moved since. -/
def CameFrom (w : World) (row : TransferRow) (req : CreateTransferRequest) : Prop :=
  ∃ row₀, (req, row₀) ∈ w.trace.filterMap insertion ∧ row.fixed = row₀.fixed

/-- No two rows come from requests with the same sender and the same nonce. -/
def NoReplay (w : World) : Prop :=
  w.shared.db.transfers.Pairwise fun row row' => ∀ req req', CameFrom w row req →
    CameFrom w row' req' → ¬(req.senderAgentId = req'.senderAgentId ∧ req.nonce = req'.nonce)

theorem insertion_eq_some {e : Entry effects State Request} {req : CreateTransferRequest}
    {row : TransferRow} (h : insertion e = some (req, row)) :
    e.request = .createTransfer req ∧ Creates row e.event := by
  unfold insertion at h
  split at h
  · cases h
    exact ⟨rfl, _, rfl⟩
  · cases h

theorem insertion_of_creates {e : Entry effects State Request} {req : CreateTransferRequest}
    {row : TransferRow} (hreq : e.request = .createTransfer req) (h : Creates row e.event) :
    insertion e = some (req, row) := by
  obtain ⟨task, request, before, event⟩ := e
  obtain ⟨t, ht⟩ := h
  dsimp only at hreq ht
  subst hreq ht
  rfl

/-- A row is inserted for a `create_transfer` request that was admitted. -/
theorem created_admitted {env : Env} {labels : List Label} {past rest : Trace}
    {e : Entry effects State Request} {row : TransferRow}
    (he : (run env labels).trace = past ++ e :: rest) (hcreates : Creates row e.event) :
    ∃ req t, e.request = .createTransfer req ∧ e.event.op = .insertTransfer t ∧
      row = { t with createdAt := e.before.dbNow } ∧
      Admitted env req (Pool.eventsOf past e.task) t := by
  have hconf := Pool.run_conforms (semantics env) {} labels
  have hpermits := hconf.operation_spec (handler_spec env) he
  obtain ⟨c, hanswer⟩ := hconf.answered e (by rw [run] at he; simp [he])
  obtain ⟨task, request, before, event⟩ := e
  obtain ⟨t, rfl⟩ := hcreates
  obtain ⟨req, hreq, hadmitted⟩ := hpermits
  refine ⟨req, t, hreq, rfl, ?_, hadmitted⟩
  obtain ⟨db, hout, -⟩ := State.write_eq_ok hanswer.symm
  exact (Db.insertTransfer_eq_ok hout).1

/-- Every row came from a request. -/
theorem exists_cameFrom {env : Env} {labels : List Label} {row : TransferRow}
    (hrow : row ∈ (run env labels).shared.db.transfers) :
    ∃ req, CameFrom (run env labels) row req := by
  obtain ⟨e, he, row₀, hcreates, hfixed, -⟩ := (run_table env labels).origin row hrow
  obtain ⟨past, rest, htrace⟩ := List.append_of_mem he
  obtain ⟨req, t, hreq, -, -, -⟩ := created_admitted htrace hcreates
  exact ⟨req, row₀, List.mem_filterMap.mpr ⟨e, he, insertion_of_creates hreq hcreates⟩, hfixed⟩

/-! ## When intents are not replayed -/

/-- The operation asks the nonce table, for the given request. -/
def Presents (e : Entry effects State Request) (req : CreateTransferRequest) : Prop :=
  e.request = .createTransfer req ∧ ∃ nonce agentId, e.event.op = .consumeIntentNonce nonce agentId

/-- If the step asks the nonce table for a sender and a nonce that it was asked for before, both
requests upload their bytes. -/
def UploadsReplays (w : World) : Label → Prop
  | .step i _ => ∀ req nonce agentId k,
      w.tasks[i]? = some ⟨.createTransfer req, some (.perform (.consumeIntentNonce nonce agentId) k)⟩ →
      ∀ e ∈ w.trace, ∀ req', Presents e req' → req'.senderAgentId = req.senderAgentId →
        req'.nonce = req.nonce → req'.IsBlob ∧ req.IsBlob
  | _ => True

/-- Two operations that ask for the same sender and nonce are both for uploads. -/
def BothUpload (e e' : Entry effects State Request) : Prop :=
  ∀ req req', Presents e req → Presents e' req' → req.senderAgentId = req'.senderAgentId →
    req.nonce = req'.nonce → req.IsBlob ∧ req'.IsBlob

theorem presented_bothUpload {env : Env} {labels : List Label}
    (h : Pool.Along (semantics env) {} UploadsReplays labels) :
    (run env labels).trace.Pairwise BothUpload := by
  refine Pool.Along.pairwise (semantics env) h ?_
  rintro w i c r op k hi hC e he req req' hpresents ⟨hreq, nonce, agentId, hop⟩ hsender hnonce
  dsimp only at hreq hop
  subst hreq hop
  exact hC req' nonce agentId k hi e he req hpresents hsender hnonce

/-- What the table was asked before a row was inserted. -/
theorem exists_presents {req : CreateTransferRequest} {past : Trace} {i : ℕ}
    (hpast : ∀ e ∈ past, e.task = i → e.request = .createTransfer req)
    (h : NoncePresented (Pool.eventsOf past i) req) :
    ∃ e ∈ past, e.task = i ∧ Presents e req ∧ (req.IsBlob → Consumes req.nonce e.event) := by
  rcases h with ⟨hblob, hsaw⟩ | ⟨hblob, fresh, hsaw⟩
  · obtain ⟨e, he, htask, hevent⟩ := Pool.mem_eventsOf.mp hsaw
    exact ⟨e, he, htask, ⟨hpast e he htask, _, _, by rw [hevent]⟩, fun _ => ⟨_, hevent⟩⟩
  · obtain ⟨e, he, htask, hevent⟩ := Pool.mem_eventsOf.mp hsaw
    exact ⟨e, he, htask, ⟨hpast e he htask, _, _, by rw [hevent]⟩, fun hb => absurd hb hblob⟩

/-- A task that inserted a row inserts no other. -/
theorem created_task_ne {env : Env} {labels : List Label} {past rest : Trace}
    {e e' : Entry effects State Request} {row row' : TransferRow}
    (htrace : (run env labels).trace = past ++ e' :: rest) (he : e ∈ past)
    (hcreates : Creates row e.event) (hcreates' : Creates row' e'.event) : e.task ≠ e'.task := by
  intro htask
  obtain ⟨req, t, -, -, -, hadmitted⟩ := created_admitted htrace hcreates'
  obtain ⟨t₀, ht₀⟩ := hcreates
  refine hadmitted.first e.event (Pool.mem_eventsOf.mpr ⟨e, he, htask, rfl⟩) t₀ ?_
  rw [ht₀]

/-- Two rows inserted one after the other come from different intents. -/
theorem created_intents_ne {env : Env} {labels : List Label} {past rest : Trace}
    {e e' : Entry effects State Request} {row row' : TransferRow}
    {req req' : CreateTransferRequest} (hboth : (run env labels).trace.Pairwise BothUpload)
    (htrace : (run env labels).trace = past ++ e' :: rest) (he : e ∈ past)
    (hcreates : Creates row e.event) (hcreates' : Creates row' e'.event)
    (hreq : e.request = .createTransfer req) (hreq' : e'.request = .createTransfer req') :
    ¬(req.senderAgentId = req'.senderAgentId ∧ req.nonce = req'.nonce) := by
  rintro ⟨hsender, hnonce⟩
  have hconf := Pool.run_conforms (semantics env) {} labels
  have hne := created_task_ne htrace he hcreates hcreates'
  have hmem : ∀ x ∈ past, x ∈ (run env labels).trace := fun x hx => by
    rw [htrace]
    exact List.mem_append_left _ hx
  have hmem' : e' ∈ (run env labels).trace := by simp [htrace]
  obtain ⟨past₀, rest₀, hpast⟩ := List.append_of_mem he
  have htrace₀ : (run env labels).trace = past₀ ++ e :: (rest₀ ++ e' :: rest) := by
    simp [htrace, hpast]
  obtain ⟨q, t, hq, -, -, hadmitted⟩ := created_admitted htrace₀ hcreates
  obtain ⟨q', t', hq', -, -, hadmitted'⟩ := created_admitted htrace hcreates'
  rw [hreq] at hq
  rw [hreq'] at hq'
  cases hq
  cases hq'
  -- the two questions to the nonce table, one of each task
  obtain ⟨c, hc, hctask, hpresents, hconsumes⟩ := exists_presents (fun x hx htask => by
    rw [← hreq, hconf.request_eq _ (hmem x (by simp [hpast, hx])) (hmem e he) htask])
    hadmitted.nonce
  obtain ⟨c', hc', hctask', hpresents', hconsumes'⟩ := exists_presents (fun x hx htask => by
    rw [← hreq', hconf.request_eq _ (hmem x hx) hmem' htask]) hadmitted'.nonce
  have hcmem : c ∈ (run env labels).trace := hmem c (by simp [hpast, hc])
  have hcne : c ≠ c' := by
    rintro rfl
    exact hne (hctask.symm.trans hctask')
  have hblob : req.IsBlob ∧ req'.IsBlob := by
    rcases pairwise_mem hboth hcmem (hmem c' hc') hcne with h | h
    · exact h req req' hpresents hpresents' hsender hnonce
    · exact (h req' req hpresents' hpresents hsender.symm hnonce.symm).symm
  have hconsumed := hconsumes hblob.1
  have hconsumed' := hconsumes' hblob.2
  rw [← hnonce] at hconsumed'
  rcases pairwise_mem (run_nonceTable env labels).once hcmem (hmem c' hc') hcne with h | h
  · exact h _ hconsumed hconsumed'
  · exact h _ hconsumed' hconsumed

/-- In a run whose replayed intents are all uploads, no intent makes two rows. -/
theorem noReplay_of_uploadsReplays (env : Env) (labels : List Label)
    (h : Pool.Along (semantics env) {} UploadsReplays labels) : NoReplay (run env labels) := by
  have hboth := presented_bothUpload h
  have hids := List.pairwise_map.mp (run_table env labels).nodup
  refine hids.imp ?_
  rintro row row' hid req req' ⟨row₀, hmem, hfixed⟩ ⟨row₀', hmem', hfixed'⟩ hsame
  obtain ⟨e, he, hins⟩ := List.mem_filterMap.mp hmem
  obtain ⟨e', he', hins'⟩ := List.mem_filterMap.mp hmem'
  obtain ⟨hreq, hcreates⟩ := insertion_eq_some hins
  obtain ⟨hreq', hcreates'⟩ := insertion_eq_some hins'
  have hne : e ≠ e' := by
    rintro rfl
    rw [hins] at hins'
    cases hins'
    exact hid (TransferRow.transferId_of_fixed (hfixed.trans hfixed'.symm))
  obtain ⟨past, rest, htrace⟩ := List.append_of_mem he'
  rw [htrace] at he
  rcases List.mem_append.mp he with he | he
  · exact created_intents_ne hboth htrace he hcreates hcreates' hreq hreq' hsame
  · have he : e ∈ rest := (List.mem_cons.mp he).resolve_left hne
    obtain ⟨mid, rest', rfl⟩ := List.append_of_mem he
    have htrace' : (run env labels).trace = (past ++ e' :: mid) ++ e :: rest' := by
      simp [htrace]
    exact created_intents_ne hboth htrace' (by simp) hcreates' hcreates hreq' hreq
      ⟨hsame.1.symm, hsame.2.symm⟩

/-- Where every request uploads its bytes, replays are uploads. -/
theorem uploadsReplays_of_isBlob (env : Env) (labels : List Label)
    (h : ∀ req, .spawn (.createTransfer req) ∈ labels → req.IsBlob) :
    Pool.Along (semantics env) {} UploadsReplays labels := by
  rintro done (r | ⟨i, c⟩ | i | t) rest hlabels
  case step =>
    intro req nonce agentId k hi e he req' hpresents _ _
    have hspawned := Pool.run_spawned (semantics env) {} done
    obtain ⟨t, ht, hreq⟩ := (Pool.run_conforms (semantics env) {} done).request e he
    have hreq' := hspawned t (List.mem_of_getElem? ht)
    rw [hreq, hpresents.1] at hreq'
    have hsub : done ⊆ labels := by simp [hlabels]
    exact ⟨h req' (hsub hreq'), h req (hsub (hspawned _ (List.mem_of_getElem? hi)))⟩
  all_goals trivial

/-- An upload, and the same request again. -/
def Sample.uploadTwice : List Label :=
  clockAt 1700000000 :: serve 0 (.register registerAlice) 3 ++
    serve 1 (.createTransfer blobRequest) 15 1 ++ serve 2 (.createTransfer blobRequest) 15 2

theorem noReplay_of_uploadsReplays_upload :
    (run Sample.env Sample.uploadTwice).shared.db.transfers.length = 1 ∧
      NoReplay (run Sample.env Sample.uploadTwice) := by
  refine ⟨?_, noReplay_of_uploadsReplays _ _ (uploadsReplays_of_isBlob _ _ ?_)⟩
  · rw [Sample.env_eq]
    decide +kernel
  intro req hreq
  have hreq : req = Sample.blobRequest := by
    simpa [Sample.uploadTwice, Sample.serve, Sample.clockAt] using hreq
  rw [hreq]
  exact ⟨rfl, rfl⟩

/-- A request without a blob, and the same request again. -/
def Sample.tunnelTwice : List Label :=
  clockAt 1700000000 :: serve 0 (.register registerAlice) 3 ++
    serve 1 (.createTransfer tunnelRequest) 9 1 ++ serve 2 (.createTransfer tunnelRequest) 9 2

def Sample.tunnelRow (b : UInt8) : TransferRow :=
  { declaredInsert tunnelRequest ⟨alice⟩ 5 ("tx_" ++ nonce b) tunnelRequest.tunnelUrl
      [{ kind := Endpoint.kindCloudflareQuick, url := "https://x.trycloudflare.com" }] with
    createdAt := 1700000000000000 }

/-- One signed intent, sent twice, makes two rows. -/
theorem tunnelTwice_replayed : ¬NoReplay (run Sample.env Sample.tunnelTwice) := by
  intro h
  have hrun : (run Sample.env Sample.tunnelTwice).shared.db.transfers =
        [Sample.tunnelRow 1, Sample.tunnelRow 2] ∧
      (run Sample.env Sample.tunnelTwice).trace.filterMap insertion =
        [(Sample.tunnelRequest, Sample.tunnelRow 1), (Sample.tunnelRequest, Sample.tunnelRow 2)] := by
    rw [Sample.env_eq]
    decide +kernel
  unfold NoReplay at h
  rw [hrun.1] at h
  have hrows := (List.pairwise_cons.mp h).1 (Sample.tunnelRow 2) (by simp)
  refine hrows Sample.tunnelRequest Sample.tunnelRequest ⟨Sample.tunnelRow 1, ?_, rfl⟩
    ⟨Sample.tunnelRow 2, ?_, rfl⟩ ⟨rfl, rfl⟩
  · rw [hrun.2]
    exact List.mem_cons_self
  · rw [hrun.2]
    exact List.mem_cons_of_mem _ List.mem_cons_self

end AgentExchange.ControlPlane
