import AgentExchange.DataPlane.Scanning

/-!
# The first write of a blob

The admin endpoint inserts into the map whatever it is sent, so the last write wins. A blob that
was stored stays what it was as long as every later insert under its id brings the metadata and
the bytes that are there already.
-/
namespace AgentExchange.DataPlane

open Library

/-- What `admin_insert_blob` stores besides the body. -/
def AdminInsert.metadata (req : AdminInsert) : BlobMetadata where
  size := .ofNat req.body.bytes.length
  mime := req.mime.getD "application/octet-stream"
  filename := req.filename.getD "blob"

/-- Task `i` serves the insert and has answered 201. -/
def Stored (w : World) (i : ℕ) (req : AdminInsert) : Prop :=
  (w.tasks.map Task.request)[i]? = some (.adminInsertBlob req) ∧
    ∃ message, w.outcome i = some (.ok (.status 201 message))

/-- What is stored under an id once an insert has answered 201 is never changed, and no insert that
answers 201 afterwards brings other bytes. -/
def FirstWriteWins (env : Env) (file : Option BlobFile) (labels : List Label) : Prop :=
  ∀ done more rest, labels = done ++ more ++ rest →
    ∀ i req, Stored (run env file done) i req →
      (run env file (done ++ more)).shared.blobs req.transferId =
        (run env file done).shared.blobs req.transferId ∧
      ∀ j later, later.transferId = req.transferId → (run env file done).outcome j = none →
        Stored (run env file (done ++ more)) j later →
          ∃ m, (run env file done).shared.blobs req.transferId = some (m, later.body.bytes)

def insertsUnder (id : String) (e : Entry effects State Request) : Bool :=
  match e.event.op with
  | .insertBlob id' _ _ => id' = id
  | _ => false

/-- An insert under an id that was inserted before brings what is there. -/
def repeatsFirst (trace : Trace) (s : State) : Op → Bool
  | .insertBlob id m b => !trace.any (insertsUnder id) || s.blobs id = some (m, b)
  | _ => true

def RepeatsFirst (w : World) (l : Label) : Prop := w.performs repeatsFirst l = true

instance (w : World) (l : Label) : Decidable (RepeatsFirst w l) :=
  inferInstanceAs (Decidable (_ = true))

theorem handler_stores (env : Env) (r : Request) :
    (handler env r).Spec (fun _ _ => True)
      (fun (past : History) out => ∀ req message, r = .adminInsertBlob req →
        out = .ok (.status 201 message) →
          past = [⟨.insertBlob req.transferId req.metadata req.body.bytes, ()⟩]) [] := by
  cases r with
  | adminInsertBlob req =>
    unfold handler adminInsertBlob
    apply Program.spec_bind.mpr
    cases env.adminToken with
    | none => simp
    | some token =>
      simp only
      split_ifs
      · simp
      · refine Program.spec_call_bind.mpr ⟨trivial, fun u => ?_⟩
        rintro _ _ ⟨⟩ -
        rfl
  | getBlob transferId ticket =>
    apply (handler_spec env _).mono fun _ _ _ => trivial
    intro past out _ req message hr
    cases hr
  | verify ticket =>
    apply (handler_spec env _).mono fun _ _ _ => trivial
    intro past out _ req message hr
    cases hr

section Steps

variable {env : Env} {p p' : World} {l : Label}

theorem Stored.events (hp : Pool.Conforms (semantics env) p) {i : ℕ} {req : AdminInsert}
    (h : Stored p i req) :
    Pool.eventsOf p.trace i =
      [⟨.insertBlob req.transferId req.metadata req.body.bytes, ()⟩] := by
  obtain ⟨hrequest, message, hout⟩ := h
  rw [List.getElem?_map] at hrequest
  obtain ⟨t, ht, hrequest⟩ := Option.map_eq_some_iff.mp hrequest
  exact hp.outcome_spec (handler_stores env) ht hout req message hrequest rfl

theorem Stored.inserted (hp : Pool.Conforms (semantics env) p) {i : ℕ} {req : AdminInsert}
    (h : Stored p i req) : p.trace.any (insertsUnder req.transferId) = true := by
  have hevent : (⟨.insertBlob req.transferId req.metadata req.body.bytes, ()⟩ : Event effects) ∈
      Pool.eventsOf p.trace i := by
    rw [h.events hp]
    exact List.mem_singleton_self _
  obtain ⟨e, he, -, hevent⟩ := Pool.mem_eventsOf.mp hevent
  exact List.any_eq_true.mpr ⟨e, he, by simp [insertsUnder, hevent]⟩

/-- A step leaves a blob alone that was inserted before. -/
theorem blobs_step (hl : RepeatsFirst p l) (h : Pool.Step (semantics env) p l p') {id : String}
    (hid : p.trace.any (insertsUnder id) = true) : p'.shared.blobs id = p.shared.blobs id := by
  cases h with
  | @perform i c r op k hi =>
    have hrepeats := Pool.cond_of_performs hi hl
    change (exec p.shared op c).2.blobs id = _
    cases op with
    | insertBlob id' m b =>
      by_cases hsame : id' = id
      · subst hsame
        have hstored : p.shared.blobs id' = some (m, b) := by
          simpa only [repeatsFirst, hid, Bool.not_true, Bool.false_or, decide_eq_true_eq]
            using hrepeats
        simp [exec, hstored]
      · simp [exec, Function.update_of_ne (Ne.symm hsame)]
    | insertNonce nonce =>
      simp only [exec]
      split_ifs <;> rfl
    | _ => rfl
  | _ => rfl

/-- An insert that has answered 201 had answered before, or has just stored its body. -/
theorem Stored.of_next (hp : Pool.Conforms (semantics env) p) {j : ℕ} {req : AdminInsert}
    (h : Stored (p.next (semantics env) l) j req) :
    Stored p j req ∨ (p.next (semantics env) l).shared.blobs req.transferId =
      some (req.metadata, req.body.bytes) := by
  have hstep := Pool.next_step (semantics env) p l
  have hevents := h.events (hp.step _ hstep)
  obtain ⟨hrequest, message, hout⟩ := h
  rcases hstep.ended _ hout with hold | ⟨hj, htrace⟩ | ⟨e, c, rfl, htrace, hshared⟩
  · have hlt : j < (p.tasks.map Task.request).length := by
      by_contra hj
      rw [List.length_map] at hj
      simp [Pool.outcome, List.getElem?_eq_none (Nat.le_of_not_lt hj)] at hold
    rw [Pool.next_requests, List.getElem?_append_left hlt] at hrequest
    exact Or.inl ⟨hrequest, message, hold⟩
  · rw [htrace, Pool.eventsOf_eq_nil hp.task_lt hj] at hevents
    cases hevents
  · rw [htrace, Pool.eventsOf_append, Pool.eventsOf_singleton_self] at hevents
    obtain ⟨-, hevent⟩ := List.append_inj' (hevents.trans (List.nil_append _).symm) rfl
    rw [hshared, List.singleton_inj.mp hevent]
    exact Or.inr (Function.update_self _ _ _)

end Steps

theorem stored_stays (env : Env) (file : Option BlobFile) {done more : List Label} {i : ℕ}
    {req : AdminInsert} (hstored : Stored (run env file done) i req)
    (h : Pool.Along (semantics env) (loadBlobSource file) RepeatsFirst (done ++ more)) :
    (run env file (done ++ more)).shared.blobs req.transferId =
      (run env file done).shared.blobs req.transferId := by
  induction more using List.reverseRecOn with
  | nil => simp
  | append_singleton more l ih =>
    rw [← List.append_assoc] at h ⊢
    obtain ⟨hmore, hl⟩ := h.snoc
    rw [run, Pool.run_snoc, ← ih hmore]
    refine blobs_step hl (Pool.next_step _ _ l) ?_
    have hinserted := hstored.inserted (Pool.run_conforms _ _ done)
    obtain ⟨e, he, hid⟩ := List.any_eq_true.mp hinserted
    have hgrows := Pool.run_trace_grows (ε := Failure) (α := Answer) (semantics env)
      (loadBlobSource file) done more
    exact List.any_eq_true.mpr ⟨e, hgrows.subset he, hid⟩

theorem later_repeats (env : Env) (file : Option BlobFile) {done more : List Label} {i j : ℕ}
    {req later : AdminInsert} (hstored : Stored (run env file done) i req)
    (h : Pool.Along (semantics env) (loadBlobSource file) RepeatsFirst (done ++ more))
    (hid : later.transferId = req.transferId) (hnone : (run env file done).outcome j = none)
    (hlater : Stored (run env file (done ++ more)) j later) :
    (run env file done).shared.blobs req.transferId = some (later.metadata, later.body.bytes) := by
  induction more using List.reverseRecOn with
  | nil =>
    obtain ⟨-, message, hout⟩ := hlater
    rw [List.append_nil, hnone] at hout
    cases hout
  | append_singleton more l ih =>
    have hkept := stored_stays env file hstored h
    rw [← List.append_assoc] at h hlater hkept
    rw [run, Pool.run_snoc] at hlater hkept
    rcases hlater.of_next (Pool.run_conforms _ _ _) with hbefore | hnow
    · exact ih h.snoc.1 hbefore
    · rw [← hkept, ← hid]
      exact hnow

/-- In every run whose inserts under an id repeat what the first one stored, the first write
wins. -/
theorem firstWriteWins_of_repeatsFirst (env : Env) (file : Option BlobFile) (labels : List Label)
    (h : Pool.Along (semantics env) (loadBlobSource file) RepeatsFirst labels) :
    FirstWriteWins env file labels := by
  rintro done more rest rfl i req hstored
  have hmore := h.of_append
  refine ⟨stored_stays env file hstored hmore, ?_⟩
  intro j later hid hnone hlater
  exact ⟨later.metadata, later_repeats env file hstored hmore hid hnone hlater⟩

namespace Sample

/-- The same upload twice, with a fetch between. -/
def retried : List Label := scanned ++ call 2 (upload hello) 1

end Sample

theorem firstWriteWins_of_repeatsFirst_retried :
    (run Sample.env none Sample.retried).outcome 2 = some (.ok (.status 201 "ok")) ∧
      FirstWriteWins Sample.env none Sample.retried := by
  have hrun : Pool.AlongTo (semantics Sample.env) RepeatsFirst
      (fun w => w.outcome 2 = some (.ok (.status 201 "ok")))
      ⟨loadBlobSource none, [], []⟩ Sample.retried := by
    rw [Sample.env_eq]
    decide +kernel
  obtain ⟨halong, hanswer⟩ := hrun.along
  exact ⟨hanswer, firstWriteWins_of_repeatsFirst Sample.env none Sample.retried halong⟩

/-- A second upload under the same id answers 201 and replaces the first. -/
theorem replaced_firstWrite : ¬FirstWriteWins Sample.env none Sample.replaced := by
  obtain ⟨req, hreq, hid⟩ : ∃ req, Sample.upload Sample.hello = .adminInsertBlob req ∧
      req.transferId = "tx_abc123" := ⟨_, rfl, rfl⟩
  have hrequest : ((run Sample.env none Sample.scanned).tasks.map Task.request)[0]? =
      some (.adminInsertBlob req) := by
    rw [run, Pool.run_requests, ← hreq]
    rfl
  have hruns : (run Sample.env none Sample.scanned).outcome 0 = some (.ok (.status 201 "ok")) ∧
      ((run Sample.env none Sample.scanned).shared.blobs "tx_abc123").map Prod.snd ≠
        ((run Sample.env none (Sample.scanned ++ Sample.call 2 (Sample.upload Sample.eicar)
          1)).shared.blobs "tx_abc123").map Prod.snd := by
    rw [Sample.env_eq]
    decide +kernel
  obtain ⟨hanswer, hblobs⟩ := hruns
  intro h
  obtain ⟨hsame, -⟩ := h Sample.scanned (Sample.call 2 (Sample.upload Sample.eicar) 1)
    (Sample.call 3 (Sample.fetch Sample.second) 5) rfl 0 req ⟨hrequest, "ok", hanswer⟩
  rw [hid] at hsame
  rw [hsame] at hblobs
  exact hblobs rfl

end AgentExchange.DataPlane
