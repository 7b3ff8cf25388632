import AgentExchange.DataPlane.Contracts

/-!
# Tickets are used once

`verify` reads the clock, checks everything about the ticket, and only then puts
its nonce into the set. So the set holds exactly the nonces of the tickets that
were accepted, and a nonce enters it once, whatever calls interleave.
-/
namespace AgentExchange.DataPlane

open Library Wire

/-! ## The nonce set -/

/-- One operation either spends a fresh nonce or leaves the set alone. -/
theorem exec_nonces (s : State) (op : Op) (verdict : PipelineVerdict) :
    (∃ nonce, op = .insertNonce nonce ∧ nonce ∉ s.usedNonces ∧
      (⟨op, (exec s op verdict).1⟩ : Event effects) = ⟨.insertNonce nonce, true⟩ ∧
      (exec s op verdict).2.usedNonces = nonce :: s.usedNonces) ∨
    ((exec s op verdict).2.usedNonces = s.usedNonces ∧
      ∀ nonce, (⟨op, (exec s op verdict).1⟩ : Event effects) ≠ ⟨.insertNonce nonce, true⟩) := by
  cases op with
  | insertNonce nonce =>
    by_cases hused : nonce ∈ s.usedNonces
    · right
      simp only [exec, hused, if_true, true_and]
      intro nonce' h
      cases h
    · left
      exact ⟨nonce, rfl, hused, by simp [exec, hused], by simp [exec, hused]⟩
  | _ => exact Or.inr ⟨rfl, fun nonce h => by cases h⟩

theorem mem_usedNonces_of_false {s : State} {nonce : String} (verdict : PipelineVerdict)
    (h : (exec s (.insertNonce nonce) verdict).1 = false) : nonce ∈ s.usedNonces := by
  by_contra hfresh
  simp [exec, hfresh] at h

/-- The set holds the nonces that were spent, each spent once. -/
structure NonceUse (trace : Trace) (s : State) : Prop where
  used : ∀ nonce, nonce ∈ s.usedNonces ↔ ∃ e ∈ trace, e.event = ⟨.insertNonce nonce, true⟩
  once : trace.Pairwise fun a b => ∀ nonce, a.event = ⟨.insertNonce nonce, true⟩ →
    b.event ≠ ⟨.insertNonce nonce, true⟩

theorem NonceUse.perform {trace : Trace} {s : State} (h : NonceUse trace s) (i : ℕ) (r : Request)
    (op : Op) (verdict : PipelineVerdict) :
    NonceUse (trace ++ [⟨i, r, s, ⟨op, (exec s op verdict).1⟩⟩]) (exec s op verdict).2 := by
  rcases exec_nonces s op verdict with ⟨nonce, rfl, hfresh, hevent, hused⟩ | ⟨hused, hevent⟩
  · constructor
    · intro nonce'
      rw [hused, List.mem_cons, exists_mem_snoc, ← h.used nonce', hevent]
      constructor
      · rintro (rfl | hmem)
        · exact Or.inr rfl
        · exact Or.inl hmem
      · rintro (hmem | heq)
        · exact Or.inr hmem
        · cases heq
          exact Or.inl rfl
    · rw [pairwise_snoc]
      refine ⟨h.once, ?_⟩
      intro e he nonce' hspent hnew
      rw [hevent] at hnew
      cases hnew
      exact hfresh ((h.used nonce).mpr ⟨e, he, hspent⟩)
  · constructor
    · intro nonce
      rw [hused, exists_mem_snoc, ← h.used nonce]
      simp [hevent nonce]
    · rw [pairwise_snoc]
      exact ⟨h.once, fun e _ nonce _ => hevent nonce⟩

theorem run_nonceUse (env : Env) (file : Option BlobFile) (labels : List Label) :
    NonceUse (run env file labels).trace (run env file labels).shared := by
  refine Pool.run_trace_induction (M := semantics env) (C := fun _ _ => True) (J := NonceUse)
    (handler_spec env) ?_ ?_ ?_ labels (Pool.along_true _ _ labels)
  · refine ⟨?_, .nil⟩
    intro nonce
    cases file <;> simp [loadBlobSource]
  · intro p i c r op k _ _ _ h
    exact h.perform i r op c
  · intro p t _ h
    exact ⟨h.used, h.once⟩

/-! ## Calls of the verifier -/

/-- A call of `verify` in task `i`, alone or at the start of `serve`, has returned `r`. -/
def VerifyReturned (env : Env) (w : World) (i : ℕ) (ticket : Ticket)
    (r : Except TicketError VerifiedTicket) : Prop :=
  ∃ t es rest q, w.tasks[i]? = some t ∧ t.request.presented env = some ticket ∧
    Pool.eventsOf w.trace i = es ++ rest ∧ Program.Runs (verify env ticket) es q ∧
    q.outcome = some r

theorem VerifyReturned.result {env : Env} {w : World} {i : ℕ} {ticket : Ticket}
    {r : Except TicketError VerifiedTicket} (h : VerifyReturned env w i ticket r) :
    ∃ es rest, Pool.eventsOf w.trace i = es ++ rest ∧ VerifyResult env ticket es r := by
  obtain ⟨t, es, rest, q, -, -, hes, hruns, hout⟩ := h
  exact ⟨es, rest, hes, hruns.outcome_spec (verify_spec env ticket) hout⟩

/-- A ticket that passes, and whose nonce is new, is accepted. -/
theorem verify_runs {env : Env} {ticket : Ticket} {now : Int64} (h : Passes env ticket now) :
    Program.Runs (verify env ticket) [⟨.clockNow, now⟩, ⟨.insertNonce ticket.nonce, true⟩]
      (.pure ⟨ticket.transferId, ticket.recipient, ticket.expires, ticket.nonce⟩) := by
  obtain ⟨canon, signature, hcanon, hdecode, hlength, hverify⟩ := h.signed
  change dataTicketBytes _ _ _ _ _ = _ at hcanon
  have hcurrent : ¬ticket.expires + env.ticketVerifier.skewSeconds < now := h.current
  unfold verify
  rw [Program.ensure_bind_eq h.audience]
  apply Program.Runs.call_bind
  simp only [Program.ensure_bind_eq hcurrent, hdecode, hcanon, Except.mapError, Program.lift_ok,
    Program.pure_bind_eq, Program.ensure_bind_eq hlength, Program.ensure_bind_eq hverify]
  apply Program.Runs.call_bind
  exact .start

/-- What a call of the verifier answers is what `verify` returned in it. -/
theorem verifyReturned_of_outcome {env : Env} {w : World} (hw : Pool.Conforms (semantics env) w)
    {i : ℕ} {t : Task effects Request Failure Answer} {ticket : Ticket}
    {out : Except Failure Answer} (ht : w.tasks[i]? = some t) (hr : t.request = .verify ticket)
    (hout : w.outcome i = some out) :
    ∃ r, VerifyReturned env w i ticket r ∧ out = (r.map Answer.verified).mapError Failure.verify := by
  obtain ⟨q, hq, hprogram⟩ := hw.program i t ht
  have hend : q.outcome = some out := by
    rw [Pool.outcome, ht] at hout
    rcases hprogram with h | h <;> simp [h] at hout
    exact hout
  have hpresented : t.request.presented env = some ticket := by rw [hr]; rfl
  rw [hr] at hq
  rcases Program.Runs.of_bind hq with ⟨p', hp', rfl⟩ | ⟨first, rest, v, hes, hp, hf⟩
  · obtain ⟨p'', hruns, rfl⟩ := hp'.of_mapError
    cases p'' with
    | pure v =>
      cases hend
      exact ⟨.ok v, ⟨t, _, [], _, ht, hpresented, (List.append_nil _).symm, hruns, rfl⟩, rfl⟩
    | fail e =>
      cases hend
      exact ⟨.error e, ⟨t, _, [], _, ht, hpresented, (List.append_nil _).symm, hruns, rfl⟩, rfl⟩
    | perform op k => cases hend
  · obtain ⟨p'', hruns, hpure⟩ := hp.of_mapError
    cases p'' with
    | pure v' =>
      cases hpure
      refine ⟨.ok v, ⟨t, first, rest, _, ht, hpresented, hes, hruns, rfl⟩, ?_⟩
      rw [hf.eq_of_pure] at hend
      cases hend
      rfl
    | fail e => cases hpure
    | perform op k => cases hpure

/-- The task read the clock. -/
def ReadsClock (w : World) (i : ℕ) (now : Int64) : Prop :=
  ∃ e ∈ w.trace, e.task = i ∧ e.event = ⟨.clockNow, now⟩ ∧ e.before.now = now

section Run

variable {env : Env} {file : Option BlobFile} {labels : List Label}

theorem readsClock_of_mem {i : ℕ} {now : Int64}
    (h : ⟨.clockNow, now⟩ ∈ Pool.eventsOf (run env file labels).trace i) :
    ReadsClock (run env file labels) i now := by
  obtain ⟨e, he, hi, hevent⟩ := Pool.mem_eventsOf.mp h
  obtain ⟨c, hanswer⟩ := (Pool.run_conforms (semantics env) (loadBlobSource file) labels).answered e he
  refine ⟨e, he, hi, hevent, ?_⟩
  obtain ⟨task, request, before, event⟩ := e
  dsimp only at hevent hanswer ⊢
  subst hevent
  exact hanswer.symm

/-- Whoever spent a nonce had a ticket with this nonce accepted. -/
theorem verifyReturned_of_spent {e : Entry effects State Request} {nonce : String}
    (he : e ∈ (run env file labels).trace) (hspent : e.event = ⟨.insertNonce nonce, true⟩) :
    ∃ ticket v, VerifyReturned env (run env file labels) e.task ticket (.ok v) ∧
      ticket.nonce = nonce := by
  have hconf := Pool.run_conforms (semantics env) (loadBlobSource file) labels
  obtain ⟨past, rest, htrace⟩ := List.append_of_mem he
  have hop := hconf.operation_spec (handler_spec env) htrace
  rw [hspent] at hop
  obtain ⟨ticket, hpresented, ⟨hclock, -⟩ | ⟨hnonce, now, hpast, hpasses⟩⟩ := hop
  · cases hclock
  cases hnonce
  obtain ⟨t, ht, hrequest⟩ := hconf.request e he
  refine ⟨ticket, _, ⟨t, _, Pool.eventsOf rest e.task, _, ht, hrequest ▸ hpresented, ?_,
    verify_runs hpasses, rfl⟩, rfl⟩
  rw [show (run env file labels).trace = past ++ e :: rest from htrace, Pool.eventsOf_append,
    ← List.singleton_append, Pool.eventsOf_append, Pool.eventsOf_singleton_self, hpast, hspent]
  rfl

/-- An accepted ticket spent its nonce. -/
theorem VerifyReturned.spent {i : ℕ} {ticket : Ticket} {v : VerifiedTicket}
    (h : VerifyReturned env (run env file labels) i ticket (.ok v)) :
    ∃ e ∈ (run env file labels).trace, e.task = i ∧
      e.event = ⟨.insertNonce ticket.nonce, true⟩ := by
  obtain ⟨es, rest, hes, -, now, rfl, -⟩ := h.result
  exact Pool.mem_eventsOf.mp (by simp [hes])

/-- A call that was refused spent no nonce. -/
theorem VerifyReturned.not_spent {i : ℕ} {ticket : Ticket} {err : TicketError}
    (h : VerifyReturned env (run env file labels) i ticket (.error err))
    {e : Entry effects State Request} (he : e ∈ (run env file labels).trace) (hi : e.task = i)
    (nonce : String) : e.event ≠ ⟨.insertNonce nonce, true⟩ := by
  intro hspent
  have hconf := Pool.run_conforms (semantics env) (loadBlobSource file) labels
  obtain ⟨t, es, rest, q, ht, hpresented, hes, hruns, hout⟩ := h
  have hresult := hruns.outcome_spec (verify_spec env ticket) hout
  obtain ⟨past, later, htrace⟩ := List.append_of_mem he
  have hop := hconf.operation_spec (handler_spec env) htrace
  rw [hspent] at hop
  obtain ⟨ticket', hpresented', ⟨hclock, -⟩ | ⟨hnonce, now, hpast, hpasses⟩⟩ := hop
  · cases hclock
  have hrequest := hconf.request_of_task (M := semantics env) he (hi ▸ ht)
  rw [hrequest, hpresented] at hpresented'
  cases hpresented'
  -- The events of the call begin with the clock reading and this insertion.
  have hevents : es ++ rest = ⟨.clockNow, now⟩ :: ⟨.insertNonce nonce, true⟩ ::
      Pool.eventsOf later i := by
    rw [← hes, show (run env file labels).trace = past ++ e :: later from htrace, ← hi,
      Pool.eventsOf_append, ← List.singleton_append, Pool.eventsOf_append,
      Pool.eventsOf_singleton_self, hpast, hspent]
    rfl
  rcases hresult with ⟨-, hforged⟩ | ⟨now', rfl, hfails⟩ | ⟨-, now', rfl, -⟩
  · exact hforged hpasses.toGenuine
  · obtain ⟨hnow, -⟩ := List.cons.inj hevents
    cases hnow
    exact hfails hpasses
  · obtain ⟨-, hrest⟩ := List.cons.inj hevents
    obtain ⟨hinsert, -⟩ := List.cons.inj hrest
    cases hinsert

theorem VerifyReturned.step_unspent {i : ℕ} {ticket : Ticket} {err : TicketError}
    (h : VerifyReturned env (run env file labels) i ticket (.error err)) {done rest : List Label}
    {c : PipelineVerdict} (hlabels : labels = done ++ .step i c :: rest) :
    (run env file (done ++ [.step i c])).shared.usedNonces =
      (run env file done).shared.usedNonces := by
  have hgrows := Pool.run_trace_grows (ε := Failure) (α := Answer) (semantics env)
    (loadBlobSource file) (done ++ [.step i c]) rest
  rw [show done ++ [.step i c] ++ rest = labels by simp [hlabels]] at hgrows
  unfold run at *
  rw [Pool.run_snoc] at hgrows ⊢
  have hstep := Pool.next_step (semantics env) (Pool.run (semantics env) (loadBlobSource file) done)
    (.step i c)
  generalize Pool.next _ _ _ = p' at hstep hgrows ⊢
  cases hstep with
  | @perform _ _ r op k hi =>
    rcases exec_nonces (Pool.run (semantics env) (loadBlobSource file) done).shared op c with
      ⟨nonce, rfl, -, hevent, -⟩ | ⟨hused, -⟩
    · have hlast := hgrows.subset (List.mem_append_right _ (List.mem_singleton_self _))
      exact absurd hevent (h.not_spent hlast rfl nonce)
    · exact hused
  | idle => rfl

/-- A genuine ticket is refused in time only because another call spent its nonce. -/
theorem VerifyReturned.blocked {i : ℕ} {ticket : Ticket} {err : TicketError}
    (h : VerifyReturned env (run env file labels) i ticket (.error err))
    (hgenuine : Genuine env ticket)
    (hcurrent : ∀ now, ReadsClock (run env file labels) i now → Current env ticket now) :
    ∃ j ticket' v, j ≠ i ∧ VerifyReturned env (run env file labels) j ticket' (.ok v) ∧
      ticket'.nonce = ticket.nonce := by
  obtain ⟨es, rest, hes, ⟨-, hforged⟩ | ⟨now, rfl, hfails⟩ | ⟨-, now, rfl, -⟩⟩ := h.result
  · exact absurd hgenuine hforged
  · have hclock : ReadsClock (run env file labels) i now := readsClock_of_mem (by simp [hes])
    exact absurd ⟨hgenuine, hcurrent now hclock⟩ hfails
  · obtain ⟨e, he, -, hevent⟩ := Pool.mem_eventsOf.mp
      (show (⟨.insertNonce ticket.nonce, false⟩ : Event effects) ∈
        Pool.eventsOf (run env file labels).trace i by simp [hes])
    obtain ⟨past, later, htrace⟩ := List.append_of_mem he
    obtain ⟨done, more, rfl, hpast, hbefore⟩ := Pool.run_entry (semantics env) htrace
    obtain ⟨c, hanswer⟩ := (Pool.run_conforms (semantics env) (loadBlobSource file) _).answered e he
    have hused : ticket.nonce ∈ (run env file done).shared.usedNonces := by
      obtain ⟨task, request, before, event⟩ := e
      dsimp only at hevent hanswer hbefore
      subst hevent hbefore
      exact mem_usedNonces_of_false c hanswer.symm
    obtain ⟨x, hx, hspent⟩ := ((run_nonceUse env file done).used ticket.nonce).mp hused
    have hx' := (Pool.run_trace_grows (semantics env) (loadBlobSource file) done more).subset hx
    obtain ⟨ticket', v, hok, hnonce⟩ := verifyReturned_of_spent hx' hspent
    refine ⟨x.task, ticket', v, ?_, hok, hnonce⟩
    intro hi
    exact h.not_spent hx' hi _ hspent

end Run

/-- Who has a signature of the control plane got it from the control plane; `Signed bytes` says that
it signed the bytes. -/
def Unforgeable (env : Env) (Signed : Bytes → Prop) : Prop :=
  ∀ message signature, env.ed25519Verify env.ticketVerifier.controlPlanePubkey message signature =
    true → Signed message

/-- What an accepted ticket was: meant for this data plane, in time when the call read the clock,
and signed by the control plane, whose bytes stand for no other message. -/
structure Accepted (env : Env) (Signed : Bytes → Prop) (w : World) (i : ℕ) (ticket : Ticket) :
    Prop where
  audience : ticket.dataPlaneUrl = env.ticketVerifier.dataPlaneUrl
  current : ∃ now, ReadsClock w i now ∧
    now.toInt ≤ ticket.expires.toInt + env.ticketVerifier.skewSeconds.toInt
  signed : ∃ bytes, ticket.message.encode = .ok bytes ∧ Signed bytes ∧
    ∀ message', message'.encode = .ok bytes → message' = ticket.message

/-- A sum that wraps around is below the true one. -/
theorem toInt_le_add_of_not_lt {expires skew now : Int64} (hskew : 0 ≤ skew.toInt)
    (h : ¬expires + skew < now) : now.toInt ≤ expires.toInt + skew.toInt := by
  rw [Int64.lt_iff_toInt_lt, Int64.toInt_add, Int.bmod_def] at h
  have := Int64.le_toInt expires
  have := Int64.toInt_lt expires
  have := Int64.toInt_lt skew
  split_ifs at h <;> omega

theorem accepted_of_ok {env : Env} {file : Option BlobFile} {labels : List Label}
    {Signed : Bytes → Prop} (hsigned : Unforgeable env Signed)
    (hskew : 0 ≤ env.ticketVerifier.skewSeconds.toInt) {i : ℕ} {ticket : Ticket}
    {v : VerifiedTicket} (h : VerifyReturned env (run env file labels) i ticket (.ok v)) :
    Accepted env Signed (run env file labels) i ticket := by
  obtain ⟨es, rest, hes, -, now, rfl, hpasses⟩ := h.result
  obtain ⟨canon, signature, hcanon, -, -, hverify⟩ := hpasses.signed
  refine ⟨hpasses.audience, ⟨now, readsClock_of_mem (by simp [hes]),
    toInt_le_add_of_not_lt hskew hpasses.current⟩, canon, hcanon, hsigned _ _ hverify, ?_⟩
  intro message' hmessage'
  obtain ⟨hh, hf⟩ := Message.encode_lines hmessage' hcanon
  exact Message.eq_of_lines hh hf

/-- What the verifier guarantees over a whole run. -/
structure TicketsSound (env : Env) (Signed : Bytes → Prop) (file : Option BlobFile)
    (labels : List Label) : Prop where
  answers : ∀ i t ticket out, (run env file labels).tasks[i]? = some t →
    t.request = .verify ticket → (run env file labels).outcome i = some out →
    ∃ r, VerifyReturned env (run env file labels) i ticket r ∧
      out = (r.map Answer.verified).mapError Failure.verify
  /-- no nonce is accepted twice -/
  singleUse : ∀ i j ticket ticket' v v', VerifyReturned env (run env file labels) i ticket (.ok v) →
    VerifyReturned env (run env file labels) j ticket' (.ok v') → ticket.nonce = ticket'.nonce →
    i = j
  accepted : ∀ i ticket v, VerifyReturned env (run env file labels) i ticket (.ok v) →
    Accepted env Signed (run env file labels) i ticket
  /-- no step of a call that is refused changes the nonce set -/
  unspent : ∀ i ticket e, VerifyReturned env (run env file labels) i ticket (.error e) →
    ∀ done c rest, labels = done ++ .step i c :: rest →
      (run env file (done ++ [.step i c])).shared.usedNonces =
        (run env file done).shared.usedNonces
  /-- a genuine ticket is refused in time only if its nonce was accepted in another call -/
  unblocked : ∀ i ticket e, VerifyReturned env (run env file labels) i ticket (.error e) →
    Genuine env ticket →
    (∀ now, ReadsClock (run env file labels) i now → Current env ticket now) →
    ∃ j ticket' v, j ≠ i ∧ VerifyReturned env (run env file labels) j ticket' (.ok v) ∧
      ticket'.nonce = ticket.nonce

/-- Over every run of the data plane: a nonce is accepted at most once, an accepted ticket is the
control plane's own for this data plane and in time, and a refused ticket spends nothing. -/
theorem tickets_sound (env : Env) (Signed : Bytes → Prop) (hsigned : Unforgeable env Signed)
    (hskew : 0 ≤ env.ticketVerifier.skewSeconds.toInt) (file : Option BlobFile)
    (labels : List Label) : TicketsSound env Signed file labels := by
  constructor
  · intro i t ticket out
    exact verifyReturned_of_outcome (Pool.run_conforms _ _ _)
  · intro i j ticket ticket' v v' hi hj hnonce
    obtain ⟨a, ha, rfl, hspent⟩ := hi.spent
    obtain ⟨b, hb, rfl, hspent'⟩ := hj.spent
    by_contra hne
    have hab : a ≠ b := fun h => hne (congrArg Entry.task h)
    rcases pairwise_mem (run_nonceUse env file labels).once ha hb hab with h | h
    · exact h _ hspent (hnonce ▸ hspent')
    · exact h _ hspent' (hnonce ▸ hspent)
  · intro i ticket v h
    exact accepted_of_ok hsigned hskew h
  · intro i ticket e h done c rest hlabels
    exact h.step_unspent hlabels
  · intro i ticket e h hgenuine hcurrent
    exact h.blocked hgenuine hcurrent

/-- One ticket, presented twice. -/
def Sample.replay : List Label :=
  .environment time :: call 0 (.verify first) 2 ++ call 1 (.verify first) 2

/-- The control plane signed the two tickets. -/
def Sample.HasSigned (bytes : Bytes) : Prop :=
  ∃ t ∈ [first, second], t.message.encode = .ok bytes

theorem Sample.unforgeable : Unforgeable env HasSigned := by
  intro message signature h
  simp only [env, Bool.and_eq_true, List.any_eq_true, decide_eq_true_eq] at h
  obtain ⟨-, t, ht, hmessage, -⟩ := h
  exact ⟨t, ht, hmessage⟩

theorem tickets_sound_replay :
    (run Sample.env none Sample.replay).outcome 0 =
      some (.ok (.verified ⟨"tx_abc123", "spize:acme/bob:aabbcc", 1700000060,
        "0123456789abcdef0123456789abcdef"⟩)) ∧
    (run Sample.env none Sample.replay).outcome 1 = some (.error (.verify .nonceReplay)) ∧
    TicketsSound Sample.env Sample.HasSigned none Sample.replay := by
  have hruns : (run Sample.env none Sample.replay).outcome 0 =
        some (.ok (.verified ⟨"tx_abc123", "spize:acme/bob:aabbcc", 1700000060,
          "0123456789abcdef0123456789abcdef"⟩)) ∧
      (run Sample.env none Sample.replay).outcome 1 = some (.error (.verify .nonceReplay)) := by
    rw [Sample.env_eq]
    decide +kernel
  exact ⟨hruns.1, hruns.2,
    tickets_sound Sample.env Sample.HasSigned Sample.unforgeable (by decide) none Sample.replay⟩

end AgentExchange.DataPlane
