import AgentExchange.ControlPlane.Insertions
import AgentExchange.Service.Downloads

/-!
# What agents see of a transfer

Requests overlap, and each is answered from what its own operations have found. When a response
was sent before another request came in, the second one finds every transfer as the first one left
it or further on; and an inbox is a listing of the open transfers at one moment in between.
-/
namespace AgentExchange.ControlPlane

open Library Wire
open Program (lift ensure okOr)

/-! ## Moments of a run -/

/-- The state is the other one or is reached from it. -/
def TransferState.Reaches (s s' : TransferState) : Prop := s' = s ∨ s.Moves s'

theorem TransferState.Reaches.trans {s s' s'' : TransferState} (h : s.Reaches s')
    (h' : s'.Reaches s'') : s.Reaches s'' := by
  rcases h with rfl | hmove
  · exact h'
  · rcases h' with rfl | hmove'
    · exact Or.inr hmove
    · cases hmove <;> cases hmove'
      exact Or.inr .deliver

theorem TransferState.Moves.ne_ready {s s' : TransferState} (h : s.Moves s') :
    s' ≠ .readyForPickup := by
  cases h <;> exact nofun

theorem TransferRow.Steps.trans {row row' row'' : TransferRow} (h : row.Steps row')
    (h' : row'.Steps row'') : row.Steps row'' :=
  ⟨h'.fixed.trans h.fixed, TransferState.Reaches.trans h.state h'.state⟩

theorem TransferRow.Steps.transferId {row row' : TransferRow} (h : row.Steps row') :
    row'.transferId = row.transferId := transferId_of_fixed h.fixed

/-- The row stood in the table at some moment after the labels `done`. -/
def SeenSince (env : Env) (done more : List Label) (row : TransferRow) : Prop :=
  ∃ mid rest, more = mid ++ rest ∧ row ∈ (run env (done ++ mid)).shared.db.transfers

section Moments

variable {env : Env} {done more : List Label}

theorem run_steps_append (env : Env) (labels rest : List Label) :
    ∀ row ∈ (run env labels).shared.db.transfers,
      ∃ row' ∈ (run env (labels ++ rest)).shared.db.transfers, row.Steps row' := by
  intro row hrow
  induction rest using List.reverseRecOn with
  | nil => exact ⟨row, by simpa using hrow, .refl row⟩
  | append_singleton rest l ih =>
    obtain ⟨mid, hmid, hsteps⟩ := ih
    rw [← List.append_assoc]
    obtain ⟨row', hrow', hstep⟩ := run_steps env (labels ++ rest) l mid hmid
    exact ⟨row', hrow', hsteps.trans hstep⟩

theorem SeenSince.later {row : TransferRow} (h : SeenSince env done more row) :
    ∃ row' ∈ (run env (done ++ more)).shared.db.transfers, row.Steps row' := by
  obtain ⟨mid, rest, rfl, hrow⟩ := h
  rw [← List.append_assoc]
  exact run_steps_append env (done ++ mid) rest row hrow

theorem SeenSince.earlier {row row₀ : TransferRow} (h : SeenSince env done more row)
    (hrow₀ : row₀ ∈ (run env done).shared.db.transfers)
    (hid : row₀.transferId = row.transferId) : row₀.Steps row := by
  obtain ⟨mid, rest, -, hrow⟩ := h
  obtain ⟨row', hrow', hsteps⟩ := run_steps_append env done mid row₀ hrow₀
  obtain rfl := (run_table env (done ++ mid)).unique hrow' hrow (hsteps.transferId.trans hid)
  exact hsteps

/-- An operation of a task that came in after the labels `done` was performed after them. -/
theorem exists_moment {i : ℕ} (hi : (run env done).tasks.length ≤ i) {op : Op} {answer : op.Answer}
    (h : Saw (Pool.eventsOf (run env (done ++ more)).trace i) op answer) :
    ∃ mid c rest, more = mid ++ .step i c :: rest ∧
      answer = (exec env (run env (done ++ mid)).shared op c).1 ∧
      (run env (done ++ (mid ++ [.step i c]))).shared =
        (exec env (run env (done ++ mid)).shared op c).2 := by
  obtain ⟨e, he, rfl, hevent⟩ := Pool.mem_eventsOf.mp h
  obtain ⟨past, rest, htrace⟩ := List.append_of_mem he
  obtain ⟨mid, c, rest', rfl, hshared, hanswer, hafter⟩ :=
    Pool.run_performed_since (semantics env) htrace hi
  obtain ⟨j, r, before, event⟩ := e
  dsimp only at hevent hshared hanswer hafter
  subst hevent hshared
  exact ⟨mid, c, rest', rfl, hanswer, hafter⟩

variable {i : ℕ} (hi : (run env done).tasks.length ≤ i)
include hi

theorem seen_of_found {transferId : String} {row : TransferRow}
    (h : Saw (Pool.eventsOf (run env (done ++ more)).trace i) (.findTransfer transferId)
      (.ok (some row))) : SeenSince env done more row ∧ row.transferId = transferId := by
  obtain ⟨mid, c, rest, rfl, hanswer, -⟩ := exists_moment hi h
  have hfound : (run env (done ++ mid)).shared.db.findTransfer transferId = some row :=
    State.read_eq_ok hanswer.symm
  refine ⟨⟨mid, _, rfl, List.mem_of_find?_eq_some hfound⟩, ?_⟩
  simpa using List.find?_some hfound

theorem seen_of_inserted {t : InsertTransfer} {row : TransferRow}
    (h : Saw (Pool.eventsOf (run env (done ++ more)).trace i) (.insertTransfer t) (.ok row)) :
    SeenSince env done more row := by
  obtain ⟨mid, c, rest, rfl, hanswer, hafter⟩ := exists_moment hi h
  refine ⟨mid ++ [.step i c], rest, by simp, ?_⟩
  have hstep := exec_tableStep env (run env (done ++ mid)).shared (.insertTransfer t) c
  rw [← hanswer, ← hafter] at hstep
  generalize (run env (done ++ (mid ++ [.step i c]))).shared.db.transfers = rows at hstep ⊢
  cases hstep with
  | quiet h => exact absurd rfl h
  | failed h => cases h
  | insert t h => exact List.mem_append_right _ (List.mem_singleton_self _)

/-- A transfer that was marked as delivered was open before and is delivered after. -/
theorem seen_of_delivered {transferId : String} {updated : ℕ} (hne : updated ≠ 0)
    (h : Saw (Pool.eventsOf (run env (done ++ more)).trace i) (.markDelivered transferId)
      (.ok updated)) :
    (∃ row, SeenSince env done more row ∧ row.transferId = transferId ∧
      row.state.Reaches .accepted) ∧
    ∃ row, SeenSince env done more row ∧ row.transferId = transferId ∧ row.state = .delivered := by
  obtain ⟨mid, c, rest, rfl, hanswer, hafter⟩ := exists_moment hi h
  have hstep := exec_tableStep env (run env (done ++ mid)).shared (.markDelivered transferId) c
  rw [← hanswer, ← hafter] at hstep
  generalize hrows : (run env (done ++ (mid ++ [.step i c]))).shared.db.transfers = rows at hstep
  cases hstep with
  | quiet h => exact absurd rfl h
  | failed h => cases h
  | deliver transferId =>
    obtain ⟨row, hrow, hguard⟩ := List.countP_pos_iff.mp (Nat.pos_of_ne_zero hne)
    obtain ⟨hid, hopen⟩ := deliverable_iff.mp hguard
    refine ⟨⟨row, ⟨mid, _, rfl, hrow⟩, hid, ?_⟩, ?_⟩
    · rcases hopen with haccepted | hready
      · exact Or.inl haccepted.symm
      · rw [hready]
        exact Or.inr .accept
    · refine ⟨deliverRow (run env (done ++ mid)).shared.dbNow transferId row,
        ⟨mid ++ [.step i c], rest, by simp, ?_⟩, ?_, ?_⟩
      · rw [hrows]
        exact List.mem_map_of_mem hrow
      · rw [(deliverRow_steps _ _ _).transferId, hid]
      · rw [deliverRow, if_pos hguard]

end Moments

/-- A transfer that was marked as accepted is there, and has left its first state. -/
theorem left_ready_of_marked {env : Env} {labels : List Label} {i : ℕ} {transferId : String}
    {updated : ℕ}
    (h : Saw (Pool.eventsOf (run env labels).trace i) (.markAccepted transferId) (.ok updated)) :
    ∃ row ∈ (run env labels).shared.db.transfers, row.transferId = transferId ∧
      row.state ≠ .readyForPickup := by
  obtain ⟨e, he, rfl, hevent⟩ := Pool.mem_eventsOf.mp h
  obtain ⟨past, rest, htrace⟩ := List.append_of_mem he
  have hpermits := (Pool.run_conforms (semantics env) {} labels).operation_spec (handler_spec env)
    htrace
  obtain ⟨done, c, more, rfl, hpast, hshared, -, hanswer, hafter⟩ :=
    Pool.run_performed (semantics env) htrace
  obtain ⟨j, r, before, event⟩ := e
  dsimp only at hevent hpermits hpast hshared hanswer hafter
  subst hevent hshared
  obtain ⟨req, -, -, haddressed⟩ := hpermits
  have hsubset : past ⊆ (run env done).trace := by
    rw [run, hpast]
    exact List.Subset.refl _
  obtain ⟨row, hrow, hid, -⟩ := exists_row_of_addressed hsubset haddressed
  have hstep := exec_tableStep env (run env done).shared (.markAccepted transferId) c
  change .ok updated = (exec env (run env done).shared (.markAccepted transferId) c).1 at hanswer
  change (run env (done ++ [.step j c])).shared = (exec env (run env done).shared _ c).2 at hafter
  rw [← hanswer, ← hafter] at hstep
  obtain ⟨row', hrow', hsteps, hleft⟩ : ∃ row' ∈
      (run env (done ++ [.step j c])).shared.db.transfers, row.Steps row' ∧
        row'.state ≠ .readyForPickup := by
    generalize (run env (done ++ [.step j c])).shared.db.transfers = rows at hstep ⊢
    cases hstep with
    | quiet h => exact absurd rfl h
    | failed h => cases h
    | accept transferId =>
      refine ⟨acceptRow _ transferId row, List.mem_map_of_mem hrow, acceptRow_steps _ _ _, ?_⟩
      unfold acceptRow
      split_ifs with hguard
      · simp
      · intro hready
        exact hguard (acceptable_iff.mpr ⟨hid, hready⟩)
  obtain ⟨last, hlast, hsteps'⟩ := run_steps_append env (done ++ [.step j c]) more row' hrow'
  rw [List.append_assoc] at hlast
  refine ⟨last, hlast, ?_, ?_⟩
  · exact (hsteps'.transferId.trans hsteps.transferId).trans hid
  · intro hready
    rcases hsteps'.state with hsame | hmove
    · exact hleft (hsame.symm.trans hready)
    · rw [hready] at hmove
      exact hmove.ne_ready rfl

/-! ## What the tasks found -/

/-- What the operations behind a response were. -/
def tells (past : History) : Except ApiError Response → Prop
  | .ok (.download body) => ∃ transferId row marked, body.transferId = row.transferId ∧
      Saw past (.findTransfer transferId) (.ok (some row)) ∧
      (row.state = .readyForPickup ∨ row.state = .accepted) ∧
      Saw past (.markAccepted transferId) (.ok marked)
  | .ok (.ack body) => ∃ updated, updated ≠ 0 ∧
      Saw past (.markDelivered body.transferId) (.ok updated)
  | .ok (.ticket body) => ∃ row, Saw past (.findTransfer body.transferId) (.ok (some row)) ∧
      row.state = .readyForPickup
  | .ok (.inbox body) => ∃ rows, Saw past (.listInbox body.agentId inboxLimit) (.ok rows) ∧
      body.entries = rows.map inboxEntry
  | _ => True

section Handlers

theorem only_any {α : Type} (p : Prog α) : p.Only fun _ => True := by
  induction p with
  | perform op k ih => exact ⟨trivial, ih⟩
  | _ => trivial

/-- Whatever stands in front of the rest of a handler. -/
theorem spec_any_bind {α β : Type} {past : History} {p : Prog α} {f : α → Prog β}
    {post : History → Except ApiError β → Prop} (herr : ∀ past e, post past (.error e))
    (hok : ∀ a es, (f a).Spec (fun _ _ => True) post (past ++ es)) :
    (p >>= f).Spec (fun _ _ => True) post past :=
  (only_any p).spec_bind (fun _ _ h => h) (fun _ _ _ => herr _ _) fun es _ a => hok a es

theorem downloadTransfer_tells (env : Env) (transferId : String) (req : RecipientReceiptRequest) :
    (downloadTransfer env transferId req).Spec (fun _ _ => True)
      (fun past out => tells past (out.map .download)) [] := by
  unfold downloadTransfer
  refine verifyRecipientReceipt_row (fun _ _ _ => trivial) (fun _ _ => trivial) fun row past hfound
    _ => ?_
  apply spec_any_bind fun _ _ => trivial
  intro _ es₁
  refine Program.spec_ensure_bind.mpr ⟨?_, fun _ => trivial⟩
  intro hopen
  apply spec_any_bind fun _ _ => trivial
  intro loaded es₂
  apply spec_any_bind fun _ _ => trivial
  intro bytes es₃
  refine ⟨trivial, fun answer => ?_⟩
  apply spec_mapError_bind fun _ => trivial
  intro marked hmarked
  subst hmarked
  apply spec_any_bind fun _ _ => trivial
  intro _ es₄
  refine ⟨transferId, row, marked, rfl, ?_, hopen, ?_⟩
  · apply hfound.mono
    intro e he
    simp [he]
  · simp [Saw]

theorem ackTransfer_tells (env : Env) (transferId : String) (req : RecipientReceiptRequest) :
    (ackTransfer env transferId req).Spec (fun _ _ => True)
      (fun past out => tells past (out.map .ack)) [] := by
  unfold ackTransfer
  apply spec_any_bind fun _ _ => trivial
  intro row es₁
  refine ⟨trivial, fun answer => ?_⟩
  apply spec_mapError_bind fun _ => trivial
  intro updated hupdated
  subst hupdated
  refine Program.spec_ensure_bind.mpr ⟨?_, fun _ => trivial⟩
  intro hne
  apply spec_any_bind fun _ _ => trivial
  intro appended es₂
  apply spec_any_bind fun _ _ => trivial
  intro receipt es₃
  apply spec_any_bind fun _ _ => trivial
  intro deleted es₄
  refine ⟨updated, hne, ?_⟩
  simp [Saw]

theorem issueTicket_tells (env : Env) (transferId : String) (req : RecipientReceiptRequest) :
    (issueTicket env transferId req).Spec (fun _ _ => True)
      (fun past out => tells past (out.map .ticket)) [] := by
  unfold issueTicket
  apply spec_any_bind fun _ _ => trivial
  intro sign es₁
  apply spec_any_bind fun _ _ => trivial
  intro recipient es₂
  apply spec_any_bind fun _ _ => trivial
  intro _ es₃
  apply spec_any_bind fun _ _ => trivial
  intro nowUnix es₄
  refine ⟨trivial, fun found => ?_⟩
  apply spec_mapError_bind fun _ => trivial
  intro found' hfound
  subst hfound
  refine Program.spec_okOr_bind.mpr ⟨?_, fun _ => trivial⟩
  intro row hrow
  subst hrow
  apply spec_any_bind fun _ _ => trivial
  intro _ es₅
  refine Program.spec_ensure_bind.mpr ⟨?_, fun _ => trivial⟩
  intro hready
  apply spec_any_bind fun _ _ => trivial
  intro tunnelUrl es₆
  apply spec_any_bind fun _ _ => trivial
  intro canonical es₇
  apply spec_any_bind fun _ _ => trivial
  intro signature es₈
  apply spec_any_bind fun _ _ => trivial
  intro now es₉
  apply spec_any_bind fun _ _ => trivial
  intro _ es₁₀
  apply spec_any_bind fun _ _ => trivial
  intro ticketNonce es₁₁
  apply spec_any_bind fun _ _ => trivial
  intro canon es₁₂
  apply spec_any_bind fun _ _ => trivial
  intro inserted es₁₃
  apply spec_any_bind fun _ _ => trivial
  intro _ es₁₄
  refine ⟨row, ?_, hready⟩
  simp [Saw]

theorem listInbox_tells (env : Env) (req : RecipientReceiptRequest) :
    (listInbox env req).Spec (fun _ _ => True) (fun past out => tells past (out.map .inbox)) [] := by
  unfold listInbox
  apply spec_any_bind fun _ _ => trivial
  intro _ es₁
  apply spec_any_bind fun _ _ => trivial
  intro _ es₂
  apply spec_any_bind fun _ _ => trivial
  intro recipient es₃
  apply spec_any_bind fun _ _ => trivial
  intro canonical es₄
  apply spec_any_bind fun _ _ => trivial
  intro signature es₅
  apply spec_any_bind fun _ _ => trivial
  intro now es₆
  apply spec_any_bind fun _ _ => trivial
  intro _ es₇
  refine ⟨trivial, fun answer => ?_⟩
  apply spec_mapError_bind fun _ => trivial
  intro rows hrows
  subst hrows
  exact ⟨rows, saw_snoc _ _ _, rfl⟩

/-- A handler whose responses tell nothing of a transfer. -/
theorem spec_tells_nothing {α : Type} {p : Prog α} {f : α → Response}
    (hf : ∀ past a, tells past (.ok (f a))) :
    (p >>= fun a => pure (f a) : Prog Response).Spec (fun _ _ => True) tells [] :=
  spec_any_bind (fun _ _ => trivial) fun a _ => hf _ a

theorem handler_tells (env : Env) (r : Request) :
    (handler env r).Spec (fun _ _ => True) tells [] := by
  cases r with
  | downloadTransfer transferId req =>
    apply Program.spec_bind.mpr
    apply (downloadTransfer_tells env transferId req).mono fun _ _ h => h
    rintro past (e | body) h <;> exact h
  | ackTransfer transferId req =>
    apply Program.spec_bind.mpr
    apply (ackTransfer_tells env transferId req).mono fun _ _ h => h
    rintro past (e | body) h <;> exact h
  | issueTicket transferId req =>
    apply Program.spec_bind.mpr
    apply (issueTicket_tells env transferId req).mono fun _ _ h => h
    rintro past (e | body) h <;> exact h
  | listInbox req =>
    apply Program.spec_bind.mpr
    apply (listInbox_tells env req).mono fun _ _ h => h
    rintro past (e | body) h <;> exact h
  | _ => exact spec_tells_nothing fun _ _ => trivial

end Handlers

/-! ## Responses in order -/

/-- The states a response leaves transfers in, or further on. -/
def Response.leaves : Response → List (String × TransferState)
  | .transfer _ body => [(body.transferId, body.state)]
  | .download body => [(body.transferId, .accepted)]
  | .ack body => [(body.transferId, .delivered)]
  | .ticket body => [(body.transferId, .readyForPickup)]
  | .inbox body => body.entries.map fun entry => (entry.transferId, entry.state)
  | _ => []

/-- The states a request that was granted has found transfers in, or further back. -/
def Response.finds : Response → List (String × TransferState)
  | .ack body => [(body.transferId, .accepted)]
  | response => response.leaves

theorem exists_response_of_map {β : Type} {w : World} {i : ℕ} {f : Response → β} {b : β}
    (h : (w.outcome i).map (fun out => out.toOption.map f) = some (some b)) :
    ∃ response, w.outcome i = some (.ok response) ∧ f response = b := by
  obtain ⟨out, hout, hmap⟩ := Option.map_eq_some_iff.mp h
  cases out with
  | error e => cases hmap
  | ok response => exact ⟨response, hout, Option.some.inj hmap⟩

section Ordered

variable {env : Env} {done more : List Label} {i : ℕ} {response : Response}

/-- A listing shows the rows of one moment. -/
theorem seen_of_listed (hi : (run env done).tasks.length ≤ i) {recipient : String} {limit : ℕ}
    {rows : List TransferRow}
    (h : Saw (Pool.eventsOf (run env (done ++ more)).trace i) (.listInbox recipient limit)
      (.ok rows)) :
    ∃ mid rest, more = mid ++ rest ∧
      rows = (run env (done ++ mid)).shared.db.listInbox recipient limit := by
  obtain ⟨mid, c, rest, rfl, hanswer, -⟩ := exists_moment hi h
  exact ⟨mid, _, rfl, (State.read_eq_ok hanswer.symm).symm⟩

theorem mem_of_listed {db : Db} {recipient : String} {limit : ℕ} {row : TransferRow}
    (h : row ∈ db.listInbox recipient limit) : row ∈ db.transfers ∧ row.recipient = recipient ∧
      (row.state = .readyForPickup ∨ row.state = .accepted) := by
  have hrow := (List.mem_insertionSort _).mp (List.mem_of_mem_take h)
  simpa using List.mem_filter.mp hrow

/-- The state a response leaves a transfer in is one the transfer has had during its service; a
download has only left the first one. -/
theorem exists_seen_of_leaves (hi : (run env done).tasks.length ≤ i)
    (hout : (run env (done ++ more)).outcome i = some (.ok response)) {transferId : String}
    {s : TransferState} (hs : (transferId, s) ∈ response.leaves)
    (hdownload : ∀ body, response ≠ .download body) :
    ∃ row, SeenSince env done more row ∧ row.transferId = transferId ∧ row.state = s := by
  have hconf := Pool.run_conforms (semantics env) {} (done ++ more)
  obtain ⟨t, ht, -⟩ := Option.bind_eq_some_iff.mp hout
  have htells := hconf.outcome_spec (handler_tells env) ht hout
  have hshows := hconf.outcome_spec (handler_inserts env) ht hout
  cases response with
  | transfer status body =>
    obtain ⟨rfl, rfl⟩ := Prod.mk.inj (List.mem_singleton.mp hs)
    obtain ⟨row, rfl, ⟨t, hsaw⟩ | ⟨transferId, hsaw⟩⟩ := hshows
    · exact ⟨row, seen_of_inserted hi hsaw, rfl, rfl⟩
    · exact ⟨row, (seen_of_found hi hsaw).1, rfl, rfl⟩
  | download body => exact absurd rfl (hdownload body)
  | ack body =>
    obtain ⟨rfl, rfl⟩ := Prod.mk.inj (List.mem_singleton.mp hs)
    obtain ⟨updated, hne, hsaw⟩ := htells
    exact (seen_of_delivered hi hne hsaw).2
  | ticket body =>
    obtain ⟨rfl, rfl⟩ := Prod.mk.inj (List.mem_singleton.mp hs)
    obtain ⟨row, hsaw, hready⟩ := htells
    obtain ⟨hseen, hid⟩ := seen_of_found hi hsaw
    exact ⟨row, hseen, hid, hready⟩
  | inbox body =>
    obtain ⟨rows, hsaw, hentries⟩ := htells
    obtain ⟨mid, rest, rfl, hrows⟩ := seen_of_listed hi hsaw
    obtain ⟨entry, hentry, hpair⟩ := List.mem_map.mp hs
    rw [hentries] at hentry
    obtain ⟨row, hrow, rfl⟩ := List.mem_map.mp hentry
    obtain ⟨rfl, rfl⟩ := Prod.mk.inj hpair
    rw [hrows] at hrow
    exact ⟨row, ⟨mid, rest, rfl, (mem_of_listed hrow).1⟩, rfl, rfl⟩
  | _ => cases hs

/-- What a download has found, and what it has left. -/
theorem seen_of_downloaded (hi : (run env done).tasks.length ≤ i) {body : DownloadResponse}
    (hout : (run env (done ++ more)).outcome i = some (.ok (.download body))) :
    (∃ row, SeenSince env done more row ∧ row.transferId = body.transferId ∧
      row.state.Reaches .accepted) ∧
    ∃ row ∈ (run env (done ++ more)).shared.db.transfers, row.transferId = body.transferId ∧
      TransferState.accepted.Reaches row.state := by
  have hconf := Pool.run_conforms (semantics env) {} (done ++ more)
  obtain ⟨t, ht, -⟩ := Option.bind_eq_some_iff.mp hout
  obtain ⟨transferId, row, marked, hid, hsaw, hopen, hmarked⟩ :=
    hconf.outcome_spec (handler_tells env) ht hout
  obtain ⟨hseen, rfl⟩ := seen_of_found hi hsaw
  have hfound : row.state.Reaches .accepted := by
    rcases hopen with hready | haccepted
    · rw [hready]
      exact Or.inr .accept
    · exact Or.inl haccepted.symm
  refine ⟨⟨row, hseen, hid.symm, hfound⟩, ?_⟩
  obtain ⟨row', hrow', hsteps⟩ := hseen.later
  obtain ⟨marked, hrow, hsame, hleft⟩ := left_ready_of_marked hmarked
  obtain rfl := (run_table env (done ++ more)).unique hrow' hrow (hsteps.transferId.trans hsame.symm)
  refine ⟨row', hrow', hsteps.transferId.trans hid.symm, ?_⟩
  have hstate := hsteps.state
  generalize row.state = s at hopen hstate
  generalize row'.state = s' at hleft hstate
  rcases hopen with rfl | rfl
  · rcases hstate with rfl | hmove
    · exact absurd rfl hleft
    · cases hmove with
      | accept => exact Or.inl rfl
      | deliver => exact Or.inr .deliverAccepted
  · exact hstate

/-- A request finds a transfer as it is at some moment of its service, or further on. -/
theorem exists_seen_of_finds (hi : (run env done).tasks.length ≤ i)
    (hout : (run env (done ++ more)).outcome i = some (.ok response)) {transferId : String}
    {s : TransferState} (hs : (transferId, s) ∈ response.finds) :
    ∃ row, SeenSince env done more row ∧ row.transferId = transferId ∧ row.state.Reaches s := by
  have hexact (hleaves : (transferId, s) ∈ response.leaves)
      (hdownload : ∀ body, response ≠ .download body) :
      ∃ row, SeenSince env done more row ∧ row.transferId = transferId ∧ row.state.Reaches s := by
    obtain ⟨row, hseen, hid, hstate⟩ := exists_seen_of_leaves hi hout hleaves hdownload
    exact ⟨row, hseen, hid, Or.inl hstate.symm⟩
  cases response with
  | download body =>
    obtain ⟨rfl, rfl⟩ := Prod.mk.inj (List.mem_singleton.mp hs)
    exact (seen_of_downloaded hi hout).1
  | ack body =>
    obtain ⟨rfl, rfl⟩ := Prod.mk.inj (List.mem_singleton.mp hs)
    obtain ⟨t, ht, -⟩ := Option.bind_eq_some_iff.mp hout
    obtain ⟨updated, hne, hsaw⟩ := (Pool.run_conforms (semantics env) {} (done ++ more)).outcome_spec
      (handler_tells env) ht hout
    exact (seen_of_delivered hi hne hsaw).1
  | _ => exact hexact hs nofun

/-- When a response is sent, the transfer is as the response leaves it, or further on. -/
theorem exists_row_of_leaves (hout : (run env done).outcome i = some (.ok response))
    {transferId : String} {s : TransferState} (hs : (transferId, s) ∈ response.leaves) :
    ∃ row ∈ (run env done).shared.db.transfers, row.transferId = transferId ∧
      s.Reaches row.state := by
  by_cases hdownload : ∀ body, response ≠ .download body
  · obtain ⟨row, hseen, hid, rfl⟩ :=
      @exists_seen_of_leaves env [] done i response (Nat.zero_le i) hout _ _ hs hdownload
    obtain ⟨row', hrow', hsteps⟩ := hseen.later
    exact ⟨row', hrow', hsteps.transferId.trans hid, hsteps.state⟩
  · push Not at hdownload
    obtain ⟨body, rfl⟩ := hdownload
    obtain ⟨rfl, rfl⟩ := Prod.mk.inj (List.mem_singleton.mp hs)
    exact (@seen_of_downloaded env [] done i (Nat.zero_le i) _ hout).2

/-- In every run: when a request comes in after a response was sent, it finds each transfer in the
state the response has left it in, or in one further on. So after an acknowledgement no download,
no ticket and no acknowledgement of the transfer is granted any more, and no inbox lists it; after
a download no ticket is issued. -/
theorem responses_ordered {j : ℕ} {later : Response}
    (hearlier : (run env done).outcome i = some (.ok response))
    (hj : (run env done).tasks.length ≤ j)
    (hlater : (run env (done ++ more)).outcome j = some (.ok later)) {transferId : String}
    {s s' : TransferState} (hs : (transferId, s) ∈ response.leaves)
    (hs' : (transferId, s') ∈ later.finds) : s' = s ∨ s.Moves s' := by
  obtain ⟨row, hrow, hid, hleft⟩ := exists_row_of_leaves hearlier hs
  obtain ⟨row', hseen, hid', hfound⟩ := exists_seen_of_finds hj hlater hs'
  exact (hleft.trans (hseen.earlier hrow (hid.trans hid'.symm)).state).trans hfound

theorem responses_ordered_solo :
    ∃ earlier later, (run Sample.lenientEnv Sample.soloUpload).outcome 1 = some (.ok earlier) ∧
      (run Sample.lenientEnv Sample.soloFetch).outcome 2 = some (.ok later) ∧
      ∃ s s', ("tx_" ++ Sample.zeros 16, s) ∈ earlier.leaves ∧
        ("tx_" ++ Sample.zeros 16, s') ∈ later.finds ∧ (s' = s ∨ s.Moves s') := by
  have hruns : ((run Sample.lenientEnv Sample.soloUpload).outcome 1).map
        (fun out => out.toOption.map Response.leaves) =
          some (some [("tx_" ++ Sample.zeros 16, .readyForPickup)]) ∧
      ((run Sample.lenientEnv Sample.soloFetch).outcome 2).map
        (fun out => out.toOption.map Response.finds) =
          some (some [("tx_" ++ Sample.zeros 16, .accepted)]) ∧
      (run Sample.lenientEnv Sample.soloUpload).tasks.length ≤ 2 := by
    decide +kernel
  obtain ⟨hupload, hfetch, htasks⟩ := hruns
  obtain ⟨earlier, hearlier, hleaves⟩ := exists_response_of_map hupload
  obtain ⟨later, hlater, hfinds⟩ := exists_response_of_map hfetch
  have hs := hleaves ▸ List.mem_singleton_self _
  have hs' := hfinds ▸ List.mem_singleton_self _
  exact ⟨earlier, later, hearlier, hlater, _, _, hs, hs',
    responses_ordered hearlier htasks hlater hs hs'⟩

end Ordered

/-! ## What an inbox leaves out -/

section Inbox

variable {env : Env} {done more : List Label} {i : ℕ} {body : InboxResponse}

theorem TransferRow.Steps.open_of_open {row row' : TransferRow} (h : row.Steps row')
    (hopen : row'.Open) : row.Open := by
  rcases h.state with hsame | hmove
  · rw [TransferRow.Open, ← hsame]
    exact hopen
  · rw [TransferRow.Open] at hopen ⊢
    generalize row.state = s at hmove ⊢
    generalize row'.state = s' at hmove hopen
    cases hmove <;> simp at hopen ⊢

theorem newest_first (rows : List TransferRow) :
    (rows.insertionSort fun a b => b.createdAt ≤ a.createdAt).Pairwise
      fun a b => b.createdAt ≤ a.createdAt :=
  haveI : Std.Total fun a b : TransferRow => b.createdAt ≤ a.createdAt :=
    ⟨fun a b => le_total b.createdAt a.createdAt⟩
  haveI : IsTrans TransferRow fun a b => b.createdAt ≤ a.createdAt :=
    ⟨fun _ _ _ h h' => h'.trans h⟩
  List.pairwise_insertionSort _ rows

/-- An open row of the recipient is listed, or the listing is full of rows that are not older. -/
theorem mem_listInbox_or_full {db : Db} {recipient : String} {limit : ℕ} {row : TransferRow}
    (hrow : row ∈ db.transfers) (hrecipient : row.recipient = recipient) (hopen : row.Open) :
    row ∈ db.listInbox recipient limit ∨ ((db.listInbox recipient limit).length = limit ∧
      ∀ other ∈ db.listInbox recipient limit, row.createdAt ≤ other.createdAt) := by
  unfold Db.listInbox
  generalize hsorted : List.insertionSort (fun a b : TransferRow => b.createdAt ≤ a.createdAt) _ =
    rows
  have hmem : row ∈ rows := by
    rw [← hsorted, List.mem_insertionSort]
    simpa [hrecipient] using ⟨hrow, hopen⟩
  have hpairwise : rows.Pairwise fun a b => b.createdAt ≤ a.createdAt := by
    rw [← hsorted]
    exact newest_first _
  rw [← List.take_append_drop limit rows] at hmem hpairwise
  rcases List.mem_append.mp hmem with hlisted | hdropped
  · exact Or.inl hlisted
  · refine Or.inr ⟨?_, ?_⟩
    · rw [List.length_take]
      have := List.length_pos_of_mem hdropped
      rw [List.length_drop] at this
      omega
    · intro other hother
      exact (List.pairwise_append.mp hpairwise).2.2 other hother row hdropped

theorem exists_row_of_shown {j status : ℕ} {shown : TransferResponse}
    (hout : (run env done).outcome j = some (.ok (.transfer status shown))) :
    ∃ row ∈ (run env done).shared.db.transfers, row.transferId = shown.transferId ∧
      row.recipient = shown.recipient ∧ row.createdAt = shown.createdAt := by
  obtain ⟨t, ht, -⟩ := Option.bind_eq_some_iff.mp hout
  obtain ⟨row₀, rfl, hsaw⟩ := (Pool.run_conforms (semantics env) {} done).outcome_spec
    (handler_inserts env) ht hout
  have hseen : SeenSince env [] done row₀ := by
    rcases hsaw with ⟨t, hsaw⟩ | ⟨transferId, hsaw⟩
    · exact @seen_of_inserted env [] done j (Nat.zero_le j) _ _ hsaw
    · exact (@seen_of_found env [] done j (Nat.zero_le j) _ _ hsaw).1
  obtain ⟨row, hrow, hsteps⟩ := hseen.later
  exact ⟨row, hrow, hsteps.transferId, (TransferRow.columns_of_fixed hsteps.fixed).2.1,
    congrArg Prod.snd hsteps.fixed⟩

theorem snapshot_of_inbox (hi : (run env done).tasks.length ≤ i)
    (hout : (run env (done ++ more)).outcome i = some (.ok (.inbox body))) :
    ∃ mid rest, more = mid ++ rest ∧ body.entries =
      ((run env (done ++ mid)).shared.db.listInbox body.agentId inboxLimit).map inboxEntry := by
  obtain ⟨t, ht, -⟩ := Option.bind_eq_some_iff.mp hout
  obtain ⟨rows, hsaw, hentries⟩ := (Pool.run_conforms (semantics env) {} (done ++ more)).outcome_spec
    (handler_tells env) ht hout
  obtain ⟨mid, rest, rfl, rfl⟩ := seen_of_listed hi hsaw
  exact ⟨mid, rest, rfl, hentries⟩

/-- In every run an inbox is the list, newest first, of rows that were all open and addressed to the
agent at one moment while it was served. It leaves out no transfer that a response had shown for
the agent before it was asked for, and that is still open when it comes back, unless it is full of
transfers that are not older. -/
theorem inbox_complete (hi : (run env done).tasks.length ≤ i)
    (hout : (run env (done ++ more)).outcome i = some (.ok (.inbox body))) :
    (∃ mid rest, more = mid ++ rest ∧ ∀ entry ∈ body.entries,
      ∃ row ∈ (run env (done ++ mid)).shared.db.transfers, entry = inboxEntry row ∧
        row.recipient = body.agentId ∧ row.Open) ∧
    body.entries.Pairwise (fun entry entry' => entry'.createdAt ≤ entry.createdAt) ∧
    body.entries.length ≤ inboxLimit ∧
    ∀ (j status : ℕ) (shown : TransferResponse),
      (run env done).outcome j = some (.ok (.transfer status shown)) →
      shown.recipient = body.agentId →
      (∀ row ∈ (run env (done ++ more)).shared.db.transfers,
        row.transferId = shown.transferId → row.Open) →
      (∃ entry ∈ body.entries, entry.transferId = shown.transferId) ∨
        (body.entries.length = inboxLimit ∧
          ∀ entry ∈ body.entries, shown.createdAt ≤ entry.createdAt) := by
  obtain ⟨mid, rest, rfl, hentries⟩ := snapshot_of_inbox hi hout
  rw [hentries]
  refine ⟨⟨mid, rest, rfl, ?_⟩, ?_, ?_, ?_⟩
  · intro entry hentry
    obtain ⟨row, hrow, rfl⟩ := List.mem_map.mp hentry
    obtain ⟨hmem, hrecipient, hopen⟩ := mem_of_listed hrow
    exact ⟨row, hmem, rfl, hrecipient, hopen⟩
  · rw [List.pairwise_map]
    exact (newest_first _).sublist (List.take_sublist _ _)
  · rw [List.length_map]
    exact List.length_take_le _ _
  · intro j status shown hshown haddressed hlast
    obtain ⟨row, hrow, hid, hrecipient, hcreated⟩ := exists_row_of_shown hshown
    obtain ⟨row', hrow', hsteps⟩ := run_steps_append env done mid row hrow
    obtain ⟨last, hmem, hsteps'⟩ := run_steps_append env (done ++ mid) rest row' hrow'
    rw [List.append_assoc] at hmem
    have hid' := hsteps.transferId.trans hid
    have hopen := hsteps'.open_of_open (hlast last hmem (hsteps'.transferId.trans hid'))
    have hrecipient' : row'.recipient = body.agentId :=
      ((TransferRow.columns_of_fixed hsteps.fixed).2.1.trans hrecipient).trans haddressed
    have hcreated' : row'.createdAt = shown.createdAt :=
      (congrArg Prod.snd hsteps.fixed).trans hcreated
    rcases mem_listInbox_or_full hrow' hrecipient' hopen with hlisted | ⟨hfull, hnewer⟩
    · exact Or.inl ⟨_, List.mem_map_of_mem hlisted, hid'⟩
    · refine Or.inr ⟨by rw [List.length_map, hfull], ?_⟩
      intro entry hentry
      obtain ⟨other, hother, rfl⟩ := List.mem_map.mp hentry
      rw [← hcreated']
      exact hnewer other hother

end Inbox

/-- The agent of the upload asks for its inbox. -/
def Sample.soloListing : List Label := soloUpload ++ serve 2 (.listInbox soloReceipt) 4

theorem inbox_complete_solo :
    ∃ body, (run Sample.lenientEnv Sample.soloListing).outcome 2 = some (.ok (.inbox body)) ∧
      body.count = 1 ∧
      body.entries.Pairwise (fun entry entry' => entry'.createdAt ≤ entry.createdAt) := by
  have hruns : ((run Sample.lenientEnv Sample.soloListing).outcome 2).map
        (fun out => out.toOption.map fun
          | .inbox body => some body.count
          | _ => none) = some (some (some 1)) ∧
      (run Sample.lenientEnv Sample.soloUpload).tasks.length ≤ 2 := by
    decide +kernel
  obtain ⟨response, hout, hcount⟩ := exists_response_of_map hruns.1
  cases response with
  | inbox body =>
    exact ⟨body, hout, Option.some.inj hcount,
      (inbox_complete hruns.2 hout).2.1⟩
  | _ => cases hcount

end AgentExchange.ControlPlane
