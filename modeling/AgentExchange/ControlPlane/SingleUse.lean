import AgentExchange.ControlPlane.Authorisation

/-!
# Replayed receipts

A receipt holds a nonce, but no handler records it. An acknowledgement is still
accepted once, since it takes the transfer out of the states it applies to; any
other receipt is accepted as often as it is presented inside the clock skew.
-/
namespace AgentExchange.ControlPlane

open Library Wire

/-- No receipt is accepted for two requests. -/
def SingleUse (w : World) : Prop :=
  ∀ (i j : ℕ) (ti tj : Task effects Request ApiError Response) (req req' : RecipientReceiptRequest)
    (message : Message) (response response' : Response),
    w.tasks[i]? = some ti → w.tasks[j]? = some tj →
    ti.request.receipt = some (req, message) → tj.request.receipt = some (req', message) →
    w.outcome i = some (.ok response) → w.outcome j = some (.ok response') → i = j

def Request.IsAck (r : Request) : Prop := ∃ transferId req, r = .ackTransfer transferId req

/-- The event lists the keys that verify the request's signature over its receipt. -/
def Passes (env : Env) (message : Message) (r : Request) (event : Library.Event effects) : Prop :=
  ∃ req agentId now rows, r.receipt = some (req, message) ∧
    event = ⟨.validKeysAt agentId now, .ok rows⟩ ∧ Verifies env message req.signatureHex rows

/-- If the step makes a receipt pass its signature check, the receipt is an acknowledgement or did
not pass the check for another request before. -/
def PassesOnce (env : Env) (w : World) : Label → Prop
  | .step i c => ∀ r op k message, w.tasks[i]? = some ⟨r, some (.perform op k)⟩ →
      Passes env message r ⟨op, (exec env w.shared op c).1⟩ →
      r.IsAck ∨ ∀ e ∈ w.trace, e.task ≠ i → ¬Passes env message e.request e.event
  | _ => True

/-- The action is part of a receipt. -/
theorem Request.IsAck.of_receipt_eq {r r' : Request} {transferId : String}
    {req req₁ req₂ : RecipientReceiptRequest} {message : Message}
    (hack : r = .ackTransfer transferId req) (hr : r.receipt = some (req₁, message))
    (hr' : r'.receipt = some (req₂, message)) : ∃ req', r' = .ackTransfer transferId req' := by
  subst hack
  cases hr
  cases r' with
  | ackTransfer transferId' req' =>
    simp only [Request.receipt, Option.some.injEq, Prod.mk.injEq,
      Message.transferReceiptBytes.injEq] at hr'
    exact ⟨req', by rw [hr'.2.2.1]⟩
  | _ => simp [Request.receipt, ticketAction] at hr'

/-- Two receipts that pass their signature checks belong to one request, or the later one is an
acknowledgement. -/
def OnceOrAck (env : Env) (e e' : Entry effects State Request) : Prop :=
  ∀ message, Passes env message e.request e.event → Passes env message e'.request e'.event →
    e.task = e'.task ∨ e'.request.IsAck

theorem passed_onceOrAck {env : Env} {labels : List Label}
    (h : Pool.Along (semantics env) {} (PassesOnce env) labels) :
    (run env labels).trace.Pairwise (OnceOrAck env) := by
  refine Pool.Along.pairwise (semantics env) h ?_
  intro w i c r op k hi hC e he message hpasses hpasses'
  rcases hC r op k message hi hpasses' with hack | hfirst
  · exact Or.inr hack
  · by_contra hne
    exact hfirst e he (fun htask => hne (Or.inl htask)) hpasses

/-- A receipt that was accepted passed its signature check. -/
theorem passes_of_ok {env : Env} {labels : List Label} {i : ℕ}
    {t : Task effects Request ApiError Response} {req : RecipientReceiptRequest}
    {message : Message} {response : Response} (ht : (run env labels).tasks[i]? = some t)
    (hreceipt : t.request.receipt = some (req, message))
    (hout : (run env labels).outcome i = some (.ok response)) :
    ∃ e ∈ (run env labels).trace, e.task = i ∧ e.request = t.request ∧
      Passes env message e.request e.event := by
  have hconforms := Pool.run_conforms (semantics env) {} labels
  obtain ⟨-, now, rows, -, hrows, hverifies⟩ :=
    (hconforms.outcome_spec (handler_spec env) ht hout).1 req message hreceipt
  obtain ⟨e, he, rfl, hevent⟩ := Pool.mem_eventsOf.mp hrows
  have hrequest := hconforms.request_of_task _ he ht
  refine ⟨e, he, rfl, hrequest, req, req.recipientAgentId, now, rows, ?_, hevent, hverifies⟩
  rw [hrequest, hreceipt]

/-- In a run in which no receipt but an acknowledgement passes its signature check for two requests,
every receipt is accepted at most once. -/
theorem singleUse_of_passesOnce (env : Env) (labels : List Label)
    (h : Pool.Along (semantics env) {} (PassesOnce env) labels) : SingleUse (run env labels) := by
  intro i j ti tj req req' message response response' hti htj hreceipt hreceipt' hout hout'
  obtain ⟨e, he, rfl, hrequest, hpasses⟩ := passes_of_ok hti hreceipt hout
  obtain ⟨e', he', rfl, hrequest', hpasses'⟩ := passes_of_ok htj hreceipt' hout'
  by_contra hij
  have hne : e ≠ e' := by
    rintro rfl
    exact hij rfl
  have hack : ti.request.IsAck ∨ tj.request.IsAck := by
    rw [← hrequest, ← hrequest']
    rcases pairwise_mem (passed_onceOrAck h) he he' hne with honce | honce
    · exact Or.inr ((honce message hpasses hpasses').resolve_left hij)
    · exact Or.inl ((honce message hpasses' hpasses).resolve_left (Ne.symm hij))
  rcases hack with ⟨transferId, ack, hack⟩ | ⟨transferId, ack, hack⟩
  · obtain ⟨ack', hack'⟩ := Request.IsAck.of_receipt_eq hack hreceipt hreceipt'
    exact hij (ack_once env labels hti htj hack hack' hout hout')
  · obtain ⟨ack', hack'⟩ := Request.IsAck.of_receipt_eq hack hreceipt' hreceipt
    exact hij (ack_once env labels hti htj hack' hack hout hout')

/-- Where no two requests have the same receipt, none passes its check twice. -/
theorem passesOnce_of_nodup (env : Env) (labels : List Label)
    (h : ((labels.filterMap Library.Label.received).filterMap
      fun r => r.receipt.map Prod.snd).Nodup) :
    Pool.Along (semantics env) {} (PassesOnce env) labels := by
  rintro done (r | ⟨i, c⟩ | i | t) rest hlabels
  case step =>
    intro r op k message hi hpasses
    refine Or.inr ?_
    intro e he htask hpasses'
    obtain ⟨req, -, -, -, hreceipt, -⟩ := hpasses
    obtain ⟨req', -, -, -, hreceipt', -⟩ := hpasses'
    obtain ⟨t, ht, hrequest⟩ := (Pool.run_conforms (semantics env) {} done).request e he
    rw [hlabels, List.filterMap_append, List.filterMap_append,
      ← Pool.run_requests (ε := ApiError) (α := Response) (semantics env) {}] at h
    have hpairs := List.pairwise_filterMap.mp (List.nodup_append.mp h).1
    have hne {a b : ℕ} (hab : a < b) {ta tb : Task effects Request ApiError Response}
        (ha : (run env done).tasks[a]? = some ta) (hb : (run env done).tasks[b]? = some tb)
        (hra : ta.request.receipt.map Prod.snd = some message)
        (hrb : tb.request.receipt.map Prod.snd = some message) : False := by
      obtain ⟨hla, rfl⟩ := List.getElem?_eq_some_iff.mp ha
      obtain ⟨hlb, rfl⟩ := List.getElem?_eq_some_iff.mp hb
      refine List.pairwise_iff_getElem.mp hpairs a b (by rw [List.length_map]; exact hla)
        (by rw [List.length_map]; exact hlb) hab message ?_ message ?_ rfl
      · rw [List.getElem_map]
        exact hra
      · rw [List.getElem_map]
        exact hrb
    have hm : r.receipt.map Prod.snd = some message := by rw [hreceipt]; rfl
    have hm' : t.request.receipt.map Prod.snd = some message := by rw [hrequest, hreceipt']; rfl
    rcases Nat.lt_or_gt_of_ne htask with hlt | hlt
    · exact hne hlt ht hi hm' hm
    · exact hne hlt hi ht hm hm'
  all_goals trivial

theorem singleUse_of_passesOnce_fetch :
    Answered (run Sample.env Sample.fetch) 3
        (.downloadTransfer Sample.transferId Sample.downloadRequest) ∧
      SingleUse (run Sample.env Sample.fetch) :=
  ⟨Sample.fetch_answered,
    singleUse_of_passesOnce _ _ (passesOnce_of_nodup _ _ (by decide +kernel))⟩

/-- The download request is received again. -/
def Sample.fetchTwice : List Label :=
  fetch ++ serve 4 (.downloadTransfer transferId downloadRequest) 7

/-- One signed download request returns the bytes twice. -/
theorem fetchTwice_accepted : ¬SingleUse (run Sample.env Sample.fetchTwice) := by
  intro h
  have hrun : ∀ i ∈ [3, 4], Answered (run Sample.env Sample.fetchTwice) i
      (.downloadTransfer Sample.transferId Sample.downloadRequest) := by
    rw [Sample.env_eq]
    decide +kernel
  obtain ⟨t, response, ht, hreq, hout⟩ := (hrun 3 (by simp)).exists_response
  obtain ⟨t', response', ht', hreq', hout'⟩ := (hrun 4 (by simp)).exists_response
  exact absurd (h 3 4 t t' _ _ _ response response' ht ht' (by rw [hreq]; rfl)
    (by rw [hreq']; rfl) hout hout') (by decide)

end AgentExchange.ControlPlane
