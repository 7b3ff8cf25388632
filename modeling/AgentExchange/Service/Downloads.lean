import AgentExchange.ControlPlane.Authorisation
import AgentExchange.ControlPlane.SizeFidelity

/-!
# What a download returns

The bytes of a transfer and its row are written by two operations, under an identifier drawn
at random, and read again by two. If no draw is repeated, a download returns the bytes of one
request to `create_transfer`: the one that inserted the row.
-/
namespace AgentExchange.ControlPlane

open Library Wire
open Program (lift ensure okOr)

/-! ## Identifiers -/

/-- The identifier was drawn by the same task. -/
def Drawn (past : History) (transferId : String) : Prop :=
  ∃ bytes, Saw past .random16 bytes ∧ transferId = "tx_" ++ hexEncode bytes

/-- What a request writes, it writes under an identifier it has drawn. -/
def namesDrawn (r : Request) (past : History) : Op → Prop
  | .insertTransfer t => Drawn past t.transferId
  | .blobPut transferId blob => Drawn past transferId ∧
      ∃ req, r = .createTransfer req ∧ req.IsBlob ∧ hexDecode req.blobHex = .ok blob
  | _ => True

/-- An operation that writes under no identifier. -/
def Op.Unnamed : Op → Prop
  | .insertTransfer _ | .blobPut _ _ => False
  | _ => True

theorem Op.Unnamed.namesDrawn {r : Request} (past : History) (op : Op) (h : op.Unnamed) :
    namesDrawn r past op := by
  cases op <;> first | exact trivial | exact h.elim

theorem Op.Plain.unnamed (op : Op) (h : op.Plain) : op.Unnamed := by
  cases op <;> first | exact trivial | exact h.elim

theorem Op.Reads.unnamed (op : Op) (h : op.Reads) : op.Unnamed := by
  cases op <;> first | exact trivial | cases h

/-- The operation stores no bytes, as it would leave a row to be inserted. -/
theorem Op.Local.unnamed {env : Env} {op : Op} (h : op.Local) (hidle : op.Idle env) :
    op.Unnamed := by
  cases op with
  | insertTransfer t => exact h
  | blobPut transferId blob => exact absurd (hidle.2 (.ok ())) (by simp [duties, Op.leaves])
  | _ => trivial

theorem only_unnamed {env : Env} {α : Type} {p : Prog α} (h : p.Only Op.Local)
    (hidle : p.Only (Op.Idle env)) : p.Only Op.Unnamed := by
  induction p with
  | pure a => trivial
  | fail e => trivial
  | perform op k ih => exact ⟨h.1.unnamed hidle.1, fun r => ih r (h.2 r) (hidle.2 r)⟩

theorem Drawn.mono {past past' : History} {transferId : String} (h : Drawn past transferId)
    (hs : past ⊆ past') : Drawn past' transferId := by
  obtain ⟨bytes, hdrawn, hid⟩ := h
  exact ⟨bytes, hdrawn.mono hs, hid⟩

/-- A download is made of the row and the bytes that its task has read. -/
def downloads (r : Request) (past : History) : Except ApiError Response → Prop
  | .ok response => ∀ transferId req, r = .downloadTransfer transferId req → ∃ row bytes,
      Saw past (.findTransfer transferId) (.ok (some row)) ∧ row.recipient = req.recipientAgentId ∧
      row.state ≠ .rejected ∧ Saw past (.blobGet transferId) (.ok bytes) ∧
      response = .download ⟨row.transferId, hexEncode bytes, row.blobSha256.getD "", row.filename,
        row.declaredMime⟩
  | .error _ => True

section Create

variable {env : Env} {req : CreateTransferRequest} {past : History}

/-- A part that writes under no identifier, in front of the rest of a handler. -/
theorem spec_unnamed_bind {α β : Type} {r : Request} {p : Prog α} {f : α → Prog β}
    (hp : p.Only Op.Unnamed)
    (hok : ∀ a past', past ⊆ past' → (f a).Spec (namesDrawn r) (fun _ _ => True) past') :
    (p >>= f).Spec (namesDrawn r) (fun _ _ => True) past :=
  hp.spec_bind Op.Unnamed.namesDrawn (fun _ _ _ => trivial)
    fun es _ a => hok a _ (List.subset_append_left past es)

theorem spec_insertRow_named {t : InsertTransfer} {β : Type} {f : TransferRow → Prog β}
    (h : Drawn past t.transferId)
    (hok : ∀ row past', (f row).Spec (namesDrawn (.createTransfer req)) (fun _ _ => True) past') :
    (insertRow t >>= f).Spec (namesDrawn (.createTransfer req)) (fun _ _ => True) past := by
  rw [Program.spec_bind]
  unfold insertRow
  refine ⟨h, fun inserted => ?_⟩
  cases inserted with
  | error e => trivial
  | ok row => exact hok row _

/-- A draw, and the rest of a handler that uses it. -/
theorem spec_random16_bind {β : Type} {r : Request} {f : Bytes → Prog β}
    (hok : ∀ id past', Drawn past' ("tx_" ++ hexEncode id) →
      (f id).Spec (namesDrawn r) (fun _ _ => True) past') :
    (ask .random16 >>= f).Spec (namesDrawn r) (fun _ _ => True) past :=
  ⟨trivial, fun id => hok id _ ⟨id, saw_snoc past .random16 id, rfl⟩⟩

theorem admitDeclared_unnamed (sender : AgentId) (declaredSize : UInt64) :
    (admitDeclared env req sender declaredSize).Only Op.Unnamed :=
  only_unnamed (admitDeclared_local sender declaredSize)
    ((admitDeclared_aside req sender declaredSize).mono (@Op.Aside.idle env))

theorem createReachable_named (sender : AgentId) (endpoints : List Endpoint) :
    (createReachable env req sender endpoints).Spec (namesDrawn (.createTransfer req))
      (fun _ _ => True) past := by
  unfold createReachable
  apply spec_unnamed_bind (Program.only_ensure _ _)
  intro _ _ _
  apply spec_unnamed_bind (Program.only_ensure _ _)
  intro _ _ _
  apply spec_unnamed_bind (Program.only_ensure _ _)
  intro _ _ _
  apply spec_unnamed_bind (Program.only_okOr _ _)
  intro declaredSize _ _
  apply spec_unnamed_bind ((validateAll_only endpoints).mono Op.Plain.unnamed)
  intro results _ _
  apply spec_unnamed_bind (Program.only_ensure _ _)
  intro _ _ _
  apply spec_unnamed_bind (admitDeclared_unnamed sender declaredSize)
  intro _ _ _
  apply spec_random16_bind
  intro id _ hdrawn
  exact spec_insertRow_named hdrawn fun row _ => trivial

theorem createTunnel_named (sender : AgentId) (tunnelUrl : String) :
    (createTunnel env req sender tunnelUrl).Spec (namesDrawn (.createTransfer req))
      (fun _ _ => True) past := by
  unfold createTunnel
  apply spec_unnamed_bind (Program.only_ensure _ _)
  intro _ _ _
  apply spec_unnamed_bind (Program.only_okOr _ _)
  intro declaredSize _ _
  apply spec_unnamed_bind (Program.only_ensure _ _)
  intro _ _ _
  apply spec_unnamed_bind ((checkTunnel_only env tunnelUrl).mono Op.Plain.unnamed)
  intro _ _ _
  apply spec_unnamed_bind (admitDeclared_unnamed sender declaredSize)
  intro _ _ _
  apply spec_random16_bind
  intro id _ hdrawn
  exact spec_insertRow_named hdrawn fun row _ => trivial

theorem auditWarn_unnamed (event : Audit.Event) : (auditWarn event).Only Op.Unnamed :=
  .bind (Program.only_call trivial) fun _ => trivial

theorem spec_persistRejected_named {β : Type} {f : TransferRow → Prog β} {transferId : String}
    (hdrawn : Drawn past transferId) (sender : AgentId) (kind : RecipientKind) (sizeBytes : UInt64)
    (verdict : Option PipelineVerdict) (decision : PolicyDecision) (code reason : String)
    (hok : ∀ row past', (f row).Spec (namesDrawn (.createTransfer req)) (fun _ _ => True) past') :
    (persistRejected transferId sender req kind sizeBytes verdict decision code reason >>= f).Spec
      (namesDrawn (.createTransfer req)) (fun _ _ => True) past := by
  rw [Program.spec_bind]
  unfold persistRejected
  refine ⟨hdrawn, fun inserted => ?_⟩
  cases inserted with
  | error e => trivial
  | ok row =>
    apply (auditWarn_unnamed _).spec_bind Op.Unnamed.namesDrawn fun _ _ _ => trivial
    intro es _ _
    exact hok row _

theorem createBlob_named (sender : AgentId) (senderRow : AgentRow) (hblob : req.IsBlob) :
    (createBlob env req sender senderRow).Spec (namesDrawn (.createTransfer req))
      (fun _ _ => True) past := by
  unfold createBlob
  apply spec_mapError_bind fun _ => trivial
  intro blob hbytes
  apply spec_unnamed_bind (Program.only_lift _)
  intro signature _ _
  apply spec_unnamed_bind (Program.only_lift _)
  intro canonical _ _
  refine spec_unnamed_bind (Program.only_call trivial) fun now _ _ => ?_
  apply spec_unnamed_bind ((verifyWithValidKeys_reads _ _ _ _).mono Op.Reads.unnamed)
  intro _ _ _
  refine spec_unnamed_bind (Program.only_call trivial) fun fresh _ _ => ?_
  apply spec_unnamed_bind (Program.only_lift _)
  intro fresh _ _
  apply spec_unnamed_bind (Program.only_ensure _ _)
  intro _ _ _
  apply spec_random16_bind
  intro id past₁ hdrawn
  apply spec_unnamed_bind (auditWarn_unnamed _)
  intro _ past₂ h₂
  refine spec_unnamed_bind (Program.only_call trivial) fun preDecision past₃ h₃ => ?_
  apply spec_unnamed_bind (auditWarn_unnamed _)
  intro _ past₄ h₄
  have hdrawn₄ := ((hdrawn.mono h₂).mono h₃).mono h₄
  split
  · exact spec_persistRejected_named hdrawn₄ _ _ _ _ _ _ _ fun row _ => trivial
  refine spec_unnamed_bind (Program.only_call trivial) fun verdict past₅ h₅ => ?_
  apply spec_unnamed_bind (auditWarn_unnamed _)
  intro _ past₆ h₆
  refine spec_unnamed_bind (Program.only_call trivial) fun postDecision past₇ h₇ => ?_
  apply spec_unnamed_bind (auditWarn_unnamed _)
  intro _ past₈ h₈
  have hdrawn₈ := (((hdrawn₄.mono h₅).mono h₆).mono h₇).mono h₈
  split
  · exact spec_persistRejected_named hdrawn₈ _ _ _ _ _ _ _ fun row _ => trivial
  refine ⟨⟨hdrawn₈, req, rfl, hblob, hbytes⟩, fun put => ?_⟩
  apply spec_unnamed_bind (Program.only_lift _)
  intro _ past₉ h₉
  exact spec_insertRow_named ((hdrawn₈.mono (List.subset_append_left _ _)).mono h₉)
    fun row _ => trivial

theorem createTransfer_named (env : Env) (req : CreateTransferRequest) :
    (createTransfer env req).Spec (namesDrawn (.createTransfer req)) (fun _ _ => True) [] := by
  unfold createTransfer
  apply spec_unnamed_bind (Program.only_lift _)
  intro sender _ _
  refine spec_unnamed_bind (Program.only_call trivial) fun found _ _ => ?_
  apply spec_unnamed_bind (Program.only_lift _)
  intro found _ _
  apply spec_unnamed_bind (Program.only_okOr _ _)
  intro senderRow _ _
  apply spec_unnamed_bind (Program.only_ensure _ _)
  intro _ _ _
  apply spec_unnamed_bind (checkNonce_only _ _)
  intro _ _ _
  apply spec_unnamed_bind ((checkSkew_reads _ _).mono Op.Reads.unnamed)
  intro _ _ _
  cases hr : req.reachableAt with
  | some endpoints => exact createReachable_named sender endpoints
  | none =>
    cases ht : req.tunnelUrl with
    | some tunnelUrl => exact createTunnel_named sender tunnelUrl
    | none => exact createBlob_named sender senderRow ⟨hr, ht⟩

end Create

/-- A checked receipt, and the rest of a handler that uses the row it is for. -/
theorem verifyRecipientReceipt_row {env : Env} {transferId action : String}
    {req : RecipientReceiptRequest} {α : Type} {f : TransferRow → Prog α}
    {pre : History → Op → Prop} {post : History → Except ApiError α → Prop}
    (hpre : ∀ past op, op.Unnamed → pre past op) (herr : ∀ past e, post past (.error e))
    (hok : ∀ row past, Saw past (.findTransfer transferId) (.ok (some row)) →
      row.recipient = req.recipientAgentId → (f row).Spec pre post past) :
    (verifyRecipientReceipt env transferId req action >>= f).Spec pre post [] := by
  rw [Program.spec_bind]
  unfold verifyRecipientReceipt
  refine (checkNonce_only (Q := Op.Unnamed) _ _).spec_bind hpre
    (fun _ _ _ => herr _ _) fun _ _ _ => ?_
  refine ((checkSkew_reads _ _).mono Op.Reads.unnamed).spec_bind hpre
    (fun _ _ _ => herr _ _) fun _ _ _ => ?_
  refine spec_mapError_bind (fun _ => herr _ _) fun recipient hrecipient => ?_
  obtain rfl := AgentId.eq_of_new hrecipient
  refine ⟨hpre _ _ trivial, fun found => ?_⟩
  refine spec_mapError_bind (fun _ => herr _ _) fun found' hfound => ?_
  subst hfound
  refine Program.spec_okOr_bind.mpr ⟨?_, fun _ => herr _ _⟩
  intro row hrow
  subst hrow
  refine Program.spec_ensure_bind.mpr ⟨?_, fun _ => herr _ _⟩
  intro haddressed
  have hsaw (es : History) {past : History} :
      Saw (past ++ [⟨.findTransfer transferId, .ok (some row)⟩] ++ es) (.findTransfer transferId)
        (.ok (some row)) := (saw_snoc _ _ _).mono (List.subset_append_left _ es)
  refine spec_mapError_bind (fun _ => herr _ _) fun canonical _ => ?_
  refine spec_mapError_bind (fun _ => herr _ _) fun signature _ => ?_
  refine ⟨hpre _ _ trivial, fun now => ?_⟩
  refine ((verifyWithValidKeys_reads _ _ _ _).mono Op.Reads.unnamed).spec_bind
    hpre (fun _ _ _ => herr _ _) fun es _ _ => ?_
  apply hok row _ _ haddressed
  rw [List.append_assoc]
  exact hsaw _

theorem downloadTransfer_downloads (env : Env) (transferId : String)
    (req : RecipientReceiptRequest) :
    (downloadTransfer env transferId req).Spec (namesDrawn (.downloadTransfer transferId req))
      (fun past out => downloads (.downloadTransfer transferId req) past (out.map .download)) [] := by
  unfold downloadTransfer
  refine verifyRecipientReceipt_row Op.Unnamed.namesDrawn (fun _ _ => trivial) fun row past hfound
    haddressed => ?_
  refine Program.spec_ensure_bind.mpr ⟨?_, fun _ => trivial⟩
  intro hrejected
  refine Program.spec_ensure_bind.mpr ⟨?_, fun _ => trivial⟩
  intro _
  refine ⟨trivial, fun loaded => ?_⟩
  apply spec_mapError_bind fun _ => trivial
  intro bytes hbytes
  subst hbytes
  refine ⟨trivial, fun marked => ?_⟩
  apply spec_mapError_bind fun _ => trivial
  intro _ _
  apply (auditWarn_unnamed _).spec_bind Op.Unnamed.namesDrawn fun _ _ _ => trivial
  intro es _ _
  rintro _ _ ⟨⟩
  refine ⟨row, bytes, ?_, haddressed, hrejected, ?_, rfl⟩
  · apply hfound.mono
    intro e he
    simp [he]
  · simp [Saw]

theorem ackTransfer_unnamed (env : Env) (transferId : String) (req : RecipientReceiptRequest) :
    (ackTransfer env transferId req).Only Op.Unnamed := by
  unfold ackTransfer
  refine .bind ((verifyRecipientReceipt_reads _ _ _).mono Op.Reads.unnamed) fun row => ?_
  refine .bind (Program.only_call trivial) fun marked => ?_
  refine .bind (Program.only_lift _) fun updated => ?_
  refine .bind (Program.only_ensure _ _) fun _ => ?_
  refine .bind (Program.only_call trivial) fun appended => ?_
  refine .bind (Program.only_lift _) fun receipt => ?_
  exact .bind (Program.only_call trivial) fun deleted => trivial

/-- Every handler names what it writes by a draw, and downloads what it has read. -/
theorem handler_downloads (env : Env) (r : Request) :
    (handler env r).Spec (namesDrawn r) (downloads r) [] := by
  have hunnamed {α : Type} {p : Prog α} {f : α → Response} (hp : p.Only Op.Unnamed)
      (hr : ∀ transferId req, r ≠ .downloadTransfer transferId req) :
      (p >>= fun a => pure (f a) : Prog Response).Spec (namesDrawn r) (downloads r) [] :=
    hp.spec_bind Op.Unnamed.namesDrawn (fun _ _ _ => trivial)
      fun _ _ _ transferId req h => absurd h (hr transferId req)
  have hlocal (hcreate : ∀ req, r ≠ .createTransfer req) (htick : r ≠ .tick) :
      (handler env r).Only Op.Local := handler_local hcreate htick
  cases r with
  | register req =>
    exact hunnamed (only_unnamed (hlocal nofun nofun).of_bind
      ((register_aside req).mono (@Op.Aside.idle env))) nofun
  | getAgent agentId => exact hunnamed ((getAgent_only agentId).mono Op.Plain.unnamed) nofun
  | rotateKey req =>
    exact hunnamed (only_unnamed (hlocal nofun nofun).of_bind
      ((rotateKey_aside req).mono (@Op.Aside.idle env))) nofun
  | createTransfer req =>
    apply Program.spec_bind.mpr
    apply (createTransfer_named env req).mono fun _ _ h => h
    rintro past (e | body) _
    · trivial
    · exact nofun
  | getTransfer transferId =>
    exact hunnamed ((getTransfer_only transferId).mono Op.Plain.unnamed) nofun
  | downloadTransfer transferId req =>
    apply Program.spec_bind.mpr
    apply (downloadTransfer_downloads env transferId req).mono fun _ _ h => h
    rintro past (e | body) h <;> exact h
  | ackTransfer transferId req =>
    exact hunnamed (ackTransfer_unnamed env transferId req) nofun
  | issueTicket transferId req =>
    exact hunnamed (only_unnamed (hlocal nofun nofun).of_bind
      ((issueTicket_aside transferId req).mono (@Op.Aside.idle env))) nofun
  | listInbox req => exact hunnamed ((listInbox_reads req).mono Op.Reads.unnamed) nofun
  | tick => exact hunnamed (tick_only.mono Op.Plain.unnamed) nofun

/-! ## Runs -/

def drawnBytes (e : Entry effects State Request) : Option Bytes :=
  match e.event with
  | ⟨.random16, bytes⟩ => some bytes
  | _ => none

/-- No draw of random bytes gives what an earlier one gave. -/
def DrawsDistinct (trace : Trace) : Prop := (trace.filterMap drawnBytes).Nodup

/-- The bytes are those of the request, signed for their length by the sender, and scanned. -/
structure Uploaded (env : Env) (past : History) (req : CreateTransferRequest) (blob : Bytes) :
    Prop where
  decoded : hexDecode req.blobHex = .ok blob
  signed : Verified env past req.senderAgentId (req.intent (.ofNat blob.length))
    req.intentSignatureHex
  scanned : ∃ verdict, Saw past (.scan ⟨blob, optStr req.declaredMime, optStr req.filename⟩) verdict

/-- Bytes are there after an operation if they were before, or the operation put them there. -/
theorem held_of_exec {env : Env} {s : State} {op : Op} {c : Choice} {transferId : String}
    {blob : Bytes} (h : (exec env s op c).2.held transferId = some blob) :
    s.held transferId = some blob ∨
      (⟨op, (exec env s op c).1⟩ : Library.Event effects) = ⟨.blobPut transferId blob, .ok ()⟩ := by
  by_cases hop : op.writes = some .blobs
  · cases op with
    | blobPut id bytes =>
      rw [held_blobPut] at h
      split_ifs at h with hc
      · rw [Function.update_apply] at h
        split_ifs at h with hid
        · subst hid
          obtain rfl := Option.some.inj h
          refine Or.inr (congrArg (Library.Event.mk _) ?_)
          simp [exec, State.storeBlob, hc]
        · exact Or.inl h
      · exact Or.inl h
    | blobDelete id =>
      rw [held_blobDelete] at h
      split_ifs at h with hc
      · rw [Function.update_apply] at h
        split_ifs at h with hid
        exact Or.inl h
      · exact Or.inl h
    | _ => cases hop
  · rw [held_frame hop] at h
    exact Or.inl h

section Run

variable {env : Env} {labels : List Label}

/-- Bytes that are stored were put there. -/
theorem held_origin {transferId : String} {blob : Bytes}
    (h : (run env labels).shared.held transferId = some blob) :
    ∃ e ∈ (run env labels).trace, e.event = ⟨.blobPut transferId blob, .ok ()⟩ := by
  refine run_invariant env labels (J := fun trace s => ∀ transferId blob,
    s.held transferId = some blob → ∃ e ∈ trace, e.event = ⟨.blobPut transferId blob, .ok ()⟩)
    ?_ ?_ (fun _ _ _ h => h) _ _ h
  · intro id b hheld
    cases hheld
  · intro trace s i r op c _ hJ id b hheld
    rcases held_of_exec hheld with hold | hnew
    · obtain ⟨e, he, hevent⟩ := hJ id b hold
      exact ⟨e, List.mem_append_left _ he, hevent⟩
    · exact ⟨_, List.mem_append_right _ (List.mem_singleton_self _), hnew⟩

/-- An event of a task, with the run up to it. -/
theorem exists_run_of_saw {i : ℕ} {op : Op} {answer : op.Answer}
    (h : Saw (Pool.eventsOf (run env labels).trace i) op answer) :
    ∃ done c, (∀ e ∈ (run env done).trace, e ∈ (run env labels).trace) ∧
      answer = (exec env (run env done).shared op c).1 := by
  obtain ⟨e, he, -, hevent⟩ := Pool.mem_eventsOf.mp h
  obtain ⟨c, hanswer⟩ := (Pool.run_conforms (semantics env) {} labels).answered e he
  obtain ⟨past, rest, htrace⟩ := List.append_of_mem he
  obtain ⟨done, more, rfl, hpast, hshared⟩ := Pool.run_entry (semantics env) htrace
  refine ⟨done, c, ?_, ?_⟩
  · intro e' he'
    rw [htrace, ← hpast]
    exact List.mem_append_left _ he'
  · obtain ⟨j, r, b, ev⟩ := e
    obtain rfl : ev = ⟨op, answer⟩ := hevent
    rw [run, hshared]
    exact hanswer

/-- The identifiers of two tasks differ. -/
theorem task_eq_of_drawn (h : DrawsDistinct (run env labels).trace) {i j : ℕ} {transferId : String}
    (hi : Drawn (Pool.eventsOf (run env labels).trace i) transferId)
    (hj : Drawn (Pool.eventsOf (run env labels).trace j) transferId) : i = j := by
  obtain ⟨bytes, hsaw, rfl⟩ := hi
  obtain ⟨bytes', hsaw', hid⟩ := hj
  obtain ⟨e, he, rfl, hevent⟩ := Pool.mem_eventsOf.mp hsaw
  obtain ⟨e', he', rfl, hevent'⟩ := Pool.mem_eventsOf.mp hsaw'
  have hhex : hexEncode bytes = hexEncode bytes' := by
    have hlist := congrArg String.toList hid
    simp only [String.toList_append, List.append_cancel_left_eq] at hlist
    exact String.toList_injective hlist
  obtain rfl := hexEncode_inj hhex
  have hdrawn : drawnBytes e = some bytes := by rw [drawnBytes, hevent]
  have hdrawn' : drawnBytes e' = some bytes := by rw [drawnBytes, hevent']
  by_contra htask
  have hne : e ≠ e' := by
    rintro rfl
    exact htask rfl
  rcases pairwise_mem (List.pairwise_filterMap.mp h) he he' hne with hdiff | hdiff
  · exact hdiff bytes hdrawn bytes hdrawn' rfl
  · exact hdiff bytes hdrawn' bytes hdrawn rfl

theorem eventsOf_subset {past rest : Trace} {e : Entry effects State Request} (i : ℕ)
    (h : (run env labels).trace = past ++ e :: rest) :
    Pool.eventsOf past i ⊆ Pool.eventsOf (run env labels).trace i := by
  rw [h, Pool.eventsOf_append]
  exact List.subset_append_left _ _

/-- Bytes that are read were decoded from a request, under an identifier its task drew. -/
theorem exists_put_of_loaded {i : ℕ} {transferId : String} {blob : Bytes}
    (h : Saw (Pool.eventsOf (run env labels).trace i) (.blobGet transferId) (.ok blob)) :
    ∃ e ∈ (run env labels).trace, ∃ req,
      Drawn (Pool.eventsOf (run env labels).trace e.task) transferId ∧
      e.request = .createTransfer req ∧ req.IsBlob ∧ hexDecode req.blobHex = .ok blob := by
  obtain ⟨done, c, htrace, hanswer⟩ := exists_run_of_saw h
  have hheld : (run env done).shared.held transferId = some blob := by
    rw [State.held]
    simp only [exec, State.loadBlob] at hanswer
    split at hanswer
    · cases hanswer
    · split at hanswer
      · rename_i hlookup
        rw [hlookup, Except.ok.inj hanswer]
      · cases hanswer
  obtain ⟨e, he, hevent⟩ := held_origin hheld
  obtain ⟨past, rest, hsplit⟩ := List.append_of_mem (htrace e he)
  have hnamed := (Pool.run_conforms (semantics env) {} labels).operation_spec (handler_downloads env)
    hsplit
  obtain ⟨j, r, b, ev⟩ := e
  obtain rfl : ev = ⟨.blobPut transferId blob, .ok ()⟩ := hevent
  obtain ⟨hdrawn, req, hreq, hblob, hdecoded⟩ := hnamed
  exact ⟨_, htrace _ he, req, hdrawn.mono (eventsOf_subset j hsplit), hreq, hblob, hdecoded⟩

/-- A row that is read and not rejected was admitted ready for pickup. -/
theorem exists_insert_of_found {i : ℕ} {transferId : String} {row : TransferRow}
    (h : Saw (Pool.eventsOf (run env labels).trace i) (.findTransfer transferId) (.ok (some row)))
    (hrejected : row.state ≠ .rejected) :
    ∃ e ∈ (run env labels).trace, ∃ req t,
      Drawn (Pool.eventsOf (run env labels).trace e.task) transferId ∧
      e.request = .createTransfer req ∧ t.transferId = transferId ∧ t.state = .readyForPickup ∧
      row.recipient = t.recipient ∧ row.filename = t.filename ∧ row.declaredMime = t.declaredMime ∧
      row.transferId = t.transferId ∧ row.blobSha256 = t.blobSha256 ∧
      ∃ past, past ⊆ Pool.eventsOf (run env labels).trace e.task ∧ Admitted env req past t := by
  obtain ⟨done, c, htrace, hanswer⟩ := exists_run_of_saw h
  have hfound : (run env done).shared.db.findTransfer transferId = some row :=
    State.read_eq_ok hanswer.symm
  obtain rfl : row.transferId = transferId := by simpa using List.find?_some hfound
  obtain ⟨e, he, row₀, hcreates, hfixed, hstate⟩ :=
    (run_table env done).origin row (List.mem_of_find?_eq_some hfound)
  obtain ⟨past, rest, hsplit⟩ := List.append_of_mem (htrace e he)
  obtain ⟨req, t, hreq, hop, rfl, hadmitted⟩ := created_admitted hsplit hcreates
  have hnamed := (Pool.run_conforms (semantics env) {} labels).operation_spec (handler_downloads env)
    hsplit
  have hid : row.transferId = t.transferId := TransferRow.transferId_of_fixed hfixed
  obtain ⟨-, hrecipient, -, hmime, hfilename, hsha⟩ := TransferRow.columns_of_fixed hfixed
  rw [hop] at hnamed
  have hdrawn : Drawn (Pool.eventsOf past e.task) t.transferId := hnamed
  refine ⟨e, htrace e he, req, t, ?_, hreq, hid.symm, ?_, hrecipient, hfilename, hmime, hid, hsha,
    Pool.eventsOf past e.task, eventsOf_subset e.task hsplit, hadmitted⟩
  · rw [hid]
    exact hdrawn.mono (eventsOf_subset e.task hsplit)
  · rcases hadmitted.state with hready | hrej
    · exact hready
    · exact absurd (hstate hrej) hrejected

end Run

namespace Sample

/-- A server that takes every signature for valid, and every digest for zero. -/
def lenientEnv : Env where
  verifyingKey _ := .ok ()
  verify _ _ _ := true
  sha256 _ := List.replicate 32 0
  policy _ := .allow
  signer := none
  skipTunnelValidation := false

def zeros (n : ℕ) : String := hexEncode (List.replicate n 0)
def solo : String := "spize:o/n:000000"
def soloReceipt : RecipientReceiptRequest := ⟨solo, zeros 16, 0, zeros 64⟩

/-- An agent sends one byte to itself. -/
def soloUpload : List Label :=
  serve 0 (.register ⟨zeros 32, "o", "n", zeros 16, 0, zeros 64⟩) 3 ++
    serve 1 (.createTransfer
      { senderAgentId := solo, recipient := solo, nonce := zeros 16, issuedAt := 0,
        intentSignatureHex := zeros 64, blobHex := "00" }) 15

/-- The agent downloads the byte. -/
def soloFetch : List Label :=
  soloUpload ++ serve 2 (.downloadTransfer ("tx_" ++ zeros 16) soloReceipt) 7

end Sample

end AgentExchange.ControlPlane
