import AgentExchange.DataPlane.Server

/-!
# What the calls of the data plane do

One specification for every call: what it has seen when it takes a step that
matters, and what it has seen when it answers.
-/
namespace AgentExchange.DataPlane

open Library Wire

abbrev History := List (Event effects)
abbrev Trace := List (Entry effects State Request)

/-- The ticket is for this data plane and carries the control plane's signature. -/
structure Genuine (env : Env) (ticket : Ticket) : Prop where
  audience : ticket.dataPlaneUrl = env.ticketVerifier.dataPlaneUrl
  signed : ∃ canon signature, ticket.message.encode = .ok canon ∧
    hexDecode ticket.signature = .ok signature ∧ signature.length = 64 ∧
    env.ed25519Verify env.ticketVerifier.controlPlanePubkey canon signature = true

def Current (env : Env) (ticket : Ticket) (now : Int64) : Prop :=
  ¬ticket.expires + env.ticketVerifier.skewSeconds < now

/-- Everything `verify` checks of a ticket before it looks at the nonce set. -/
structure Passes (env : Env) (ticket : Ticket) (now : Int64) : Prop extends Genuine env ticket where
  current : Current env ticket now

/-- What `verify` does: it reads the clock, and where the ticket passes every check it tries the
nonce. -/
def VerifyOp (env : Env) (ticket : Ticket) (past : History) (op : Op) : Prop :=
  (op = .clockNow ∧ past = []) ∨
    (op = .insertNonce ticket.nonce ∧ ∃ now, past = [⟨.clockNow, now⟩] ∧ Passes env ticket now)

/-- The operations behind each result of `verify`. -/
def VerifyResult (env : Env) (ticket : Ticket) (past : History) :
    Except TicketError VerifiedTicket → Prop
  | .ok v => v = ⟨ticket.transferId, ticket.recipient, ticket.expires, ticket.nonce⟩ ∧
      ∃ now, past = [⟨.clockNow, now⟩, ⟨.insertNonce ticket.nonce, true⟩] ∧ Passes env ticket now
  | .error e =>
      (past = [] ∧ ¬Genuine env ticket) ∨
      (∃ now, past = [⟨.clockNow, now⟩] ∧ ¬Passes env ticket now) ∨
      (e = .nonceReplay ∧
        ∃ now, past = [⟨.clockNow, now⟩, ⟨.insertNonce ticket.nonce, false⟩] ∧
          Passes env ticket now)

theorem verify_spec (env : Env) (ticket : Ticket) :
    (verify env ticket).Spec (VerifyOp env ticket) (VerifyResult env ticket) [] := by
  unfold verify
  rw [Program.spec_ensure_bind]
  refine ⟨?_, fun haudience => Or.inl ⟨rfl, fun hp => haudience hp.audience⟩⟩
  intro haudience
  rw [Program.spec_call_bind]
  refine ⟨Or.inl ⟨rfl, rfl⟩, ?_⟩
  intro now
  have hfails : ¬Passes env ticket now →
      ∀ e, VerifyResult env ticket [⟨.clockNow, now⟩] (.error e) :=
    fun hp e => Or.inr (Or.inl ⟨now, rfl, hp⟩)
  simp only [List.nil_append]
  rw [Program.spec_ensure_bind]
  refine ⟨?_, fun hexpired => hfails (fun hp => hexpired hp.current) _⟩
  intro hcurrent
  rw [Program.spec_lift_bind]
  refine ⟨?_, ?_⟩
  swap
  · intro e he
    refine hfails (fun hp => ?_) e
    obtain ⟨canon, signature, -, hdecode, -⟩ := hp.signed
    simp [hdecode, Except.mapError] at he
  intro signature hsignature
  rw [except_mapError_eq_ok] at hsignature
  rw [Program.spec_ensure_bind]
  refine ⟨?_, ?_⟩
  swap
  · intro hlength
    refine hfails (fun hp => ?_) _
    obtain ⟨canon, signature', -, hdecode, hlength', -⟩ := hp.signed
    rw [hsignature] at hdecode
    cases hdecode
    exact hlength hlength'
  intro hlength
  rw [Program.spec_lift_bind]
  refine ⟨?_, ?_⟩
  swap
  · intro e he
    refine hfails (fun hp => ?_) e
    obtain ⟨canon, signature', hcanon, -⟩ := hp.signed
    change dataTicketBytes _ _ _ _ _ = _ at hcanon
    simp [hcanon, Except.mapError] at he
  intro canon hcanon
  rw [except_mapError_eq_ok] at hcanon
  rw [Program.spec_ensure_bind]
  refine ⟨?_, ?_⟩
  swap
  · intro hverify
    refine hfails (fun hp => ?_) _
    obtain ⟨canon', signature', hcanon', hdecode, -, hverify'⟩ := hp.signed
    change dataTicketBytes _ _ _ _ _ = _ at hcanon'
    rw [hcanon] at hcanon'
    rw [hsignature] at hdecode
    cases hcanon'
    cases hdecode
    exact hverify hverify'
  intro hverify
  have hpasses : Passes env ticket now :=
    ⟨⟨haudience, canon, signature, hcanon, hsignature, hlength, hverify⟩, hcurrent⟩
  rw [Program.spec_call_bind]
  refine ⟨Or.inr ⟨rfl, now, rfl, hpasses⟩, ?_⟩
  intro inserted
  rw [Program.spec_ensure_bind]
  refine ⟨?_, ?_⟩
  · rintro rfl
    exact ⟨rfl, now, rfl, hpasses⟩
  · intro hinserted
    obtain rfl : inserted = false := by simpa using hinserted
    exact Or.inr (Or.inr ⟨rfl, now, rfl, hpasses⟩)

/-- The bytes were read and scanned with the file name and type of the metadata, and the verdict
does not block. -/
def ScannedClean (past : History) (transferId : String) (metadata : BlobMetadata) (bytes : Bytes) :
    Prop :=
  ⟨.metadata transferId, some metadata⟩ ∈ past ∧ ⟨.bytes transferId, some bytes⟩ ∈ past ∧
    ∃ verdict : PipelineVerdict, verdict.isBlocking = false ∧
      ⟨.scan ⟨bytes, some metadata.mime, some metadata.filename⟩, verdict⟩ ∈ past

theorem ScannedClean.mono {past past' : History} {transferId : String} {metadata : BlobMetadata}
    {bytes : Bytes} (h : ScannedClean past transferId metadata bytes) (hsub : past ⊆ past') :
    ScannedClean past' transferId metadata bytes := by
  obtain ⟨hmetadata, hbytes, verdict, hclean, hscan⟩ := h
  exact ⟨hsub hmetadata, hsub hbytes, verdict, hclean, hsub hscan⟩

/-- The ticket a call presents to the verifier. -/
def Request.presented (env : Env) : Request → Option Ticket
  | .getBlob _ header => (parseTicket env header).toOption
  | .adminInsertBlob _ => none
  | .verify ticket => some ticket

/-- What a call has seen when it performs an operation. -/
def Requires (env : Env) (r : Request) (past : History) (op : Op) : Prop :=
  match op with
  | .clockNow | .insertNonce _ => ∃ ticket, r.presented env = some ticket ∧ VerifyOp env ticket past op
  | .bytes transferId => ∃ metadata, ⟨.metadata transferId, some metadata⟩ ∈ past
  | .cachePut transferId .clean => ∃ metadata bytes, ScannedClean past transferId metadata bytes
  | .insertBlob _ metadata bytes => metadata.size = .ofNat bytes.length ∧ bytes.length < 2 ^ 63
  | _ => True

/-- What a call has seen when it serves a blob. -/
structure ServedAfter (env : Env) (past : History) (transferId : String) (s : Served)
    (metadata : BlobMetadata) (bytes : Bytes) : Prop where
  metadata_read : ⟨.metadata transferId, some metadata⟩ ∈ past
  bytes_read : ⟨.bytes transferId, some bytes⟩ ∈ past
  response : served env metadata bytes = .ok s
  scanned : env.scanner = true → ⟨.cacheGet transferId, some .clean⟩ ∈ past ∨
    ∃ bytes, ScannedClean past transferId metadata bytes

def ServesAfter (env : Env) (transferId : String) (past : History) (out : Except Failure Served) :
    Prop :=
  ∀ s, out = .ok s → ∃ metadata bytes, ServedAfter env past transferId s metadata bytes

def Ensures (env : Env) (r : Request) (past : History) (out : Except Failure Answer) : Prop :=
  ∀ transferId header s, r = .getBlob transferId header → out = .ok (.served s) →
    ∃ metadata bytes, ServedAfter env past transferId s metadata bytes

theorem checkScanned_bind_spec {env : Env} {r : Request} {past : History} {transferId : String}
    {metadata : BlobMetadata} {f : Unit → Prog Served} {post : History → Except Failure Served → Prop}
    (hread : ⟨.metadata transferId, some metadata⟩ ∈ past)
    (herr : ∀ past e, post past (.error e))
    (hok : ∀ past', past ⊆ past' → (⟨.cacheGet transferId, some .clean⟩ ∈ past' ∨
      ∃ bytes, ScannedClean past' transferId metadata bytes) →
      (f ()).Spec (Requires env r) post past') :
    (checkScanned env transferId metadata >>= f).Spec (Requires env r) post past := by
  unfold checkScanned
  rw [Program.spec_bind, Program.spec_call_bind]
  refine ⟨trivial, ?_⟩
  intro cached
  match cached with
  | some .clean =>
    exact hok _ (List.subset_append_left _ _) (Or.inl (by simp))
  | some (.blocked reason) => exact herr _ _
  | none =>
    simp only
    rw [Program.spec_call_bind]
    refine ⟨⟨metadata, by simp [hread]⟩, ?_⟩
    intro found
    rw [Program.spec_okOr_bind]
    refine ⟨?_, fun _ => herr _ _⟩
    rintro bytes rfl
    rw [Program.spec_call_bind]
    refine ⟨trivial, ?_⟩
    intro verdict
    split_ifs with hblocking
    · rw [Program.spec_call_bind]
      exact ⟨trivial, fun _ => herr _ _⟩
    · have hscanned : ScannedClean (past ++ [⟨.cacheGet transferId, none⟩] ++
          [⟨.bytes transferId, some bytes⟩] ++
          [⟨.scan ⟨bytes, some metadata.mime, some metadata.filename⟩, verdict⟩])
          transferId metadata bytes :=
        ⟨by simp [hread], by simp, verdict, by simpa using hblocking, by simp⟩
      refine ⟨⟨metadata, bytes, hscanned⟩, ?_⟩
      intro u
      exact hok _ (by simp) (Or.inr ⟨bytes, hscanned.mono (List.subset_append_left _ _)⟩)

theorem sendBlob_spec {env : Env} {r : Request} {past : History} {transferId : String}
    {metadata : BlobMetadata} (hread : ⟨.metadata transferId, some metadata⟩ ∈ past)
    (hscanned : env.scanner = true → ⟨.cacheGet transferId, some .clean⟩ ∈ past ∨
      ∃ bytes, ScannedClean past transferId metadata bytes) :
    (sendBlob env transferId metadata).Spec (Requires env r) (ServesAfter env transferId) past := by
  unfold sendBlob
  rw [Program.spec_call_bind]
  refine ⟨⟨metadata, hread⟩, ?_⟩
  intro found
  rw [Program.spec_okOr_bind]
  refine ⟨?_, fun _ s hs => by cases hs⟩
  rintro bytes rfl
  rw [Program.spec_lift]
  intro s hs
  refine ⟨metadata, bytes, List.mem_append_left _ hread, by simp, hs, ?_⟩
  intro hscanner
  rcases hscanned hscanner with h | ⟨bytes', h⟩
  · exact Or.inl (List.mem_append_left _ h)
  · exact Or.inr ⟨bytes', h.mono (List.subset_append_left _ _)⟩

theorem serve_spec (env : Env) (transferId : String) (header : Option Bytes) :
    (serve env transferId header).Spec (Requires env (.getBlob transferId header))
      (ServesAfter env transferId) [] := by
  have herr : ∀ (past : History) (e : Failure), ServesAfter env transferId past (.error e) :=
    fun past e s h => by cases h
  unfold serve
  rw [Program.spec_lift_bind]
  refine ⟨?_, fun e _ => herr _ e⟩
  intro ticket hticket
  rw [except_mapError_eq_ok] at hticket
  have hpresented : (Request.getBlob transferId header).presented env = some ticket := by
    simp [Request.presented, hticket, Except.toOption]
  rw [Program.spec_bind, Program.spec_mapError]
  refine (verify_spec env ticket).mono ?_ ?_
  · rintro past op (⟨rfl, hpast⟩ | ⟨rfl, hpast⟩)
    · exact ⟨ticket, hpresented, Or.inl ⟨rfl, hpast⟩⟩
    · exact ⟨ticket, hpresented, Or.inr ⟨rfl, hpast⟩⟩
  intro past out hout
  match out with
  | .error e => exact herr _ _
  | .ok verified =>
    change Program.Spec _ _ _ _
    rw [Program.spec_ensure_bind]
    refine ⟨?_, fun _ => herr _ _⟩
    intro hid
    rw [Program.spec_call_bind]
    refine ⟨trivial, ?_⟩
    intro found
    rw [Program.spec_okOr_bind]
    refine ⟨?_, fun _ => herr _ _⟩
    rintro metadata rfl
    split_ifs with hscanner
    · refine checkScanned_bind_spec (by simp) herr ?_
      intro past' hsub hscanned
      exact sendBlob_spec (hsub (by simp)) fun _ => hscanned
    · exact sendBlob_spec (by simp) fun h => absurd h hscanner

theorem handler_spec (env : Env) (r : Request) :
    (handler env r).Spec (Requires env r) (Ensures env r) [] := by
  cases r with
  | getBlob transferId header =>
    unfold handler
    rw [Program.spec_bind]
    refine (serve_spec env transferId header).mono (fun _ _ h => h) ?_
    intro past out hout
    match out with
    | .error e =>
      intro _ _ s _ hs
      cases hs
    | .ok s =>
      intro _ _ s' hr hs
      cases hr
      cases hs
      exact hout s rfl
  | adminInsertBlob req =>
    have hensures : ∀ past out, Ensures env (.adminInsertBlob req) past out :=
      fun _ _ _ _ _ hr => by cases hr
    unfold handler adminInsertBlob
    rw [Program.spec_bind]
    cases env.adminToken with
    | none => exact hensures _ _
    | some token =>
      simp only
      split_ifs with htoken
      · exact hensures _ _
      · exact ⟨⟨rfl, req.body.fits⟩, fun _ => hensures _ _⟩
  | verify ticket =>
    have hensures : ∀ past out, Ensures env (.verify ticket) past out :=
      fun _ _ _ _ _ hr => by cases hr
    unfold handler
    rw [Program.spec_bind, Program.spec_mapError]
    refine (verify_spec env ticket).mono ?_ ?_
    · rintro past op (⟨rfl, hpast⟩ | ⟨rfl, hpast⟩)
      · exact ⟨ticket, rfl, Or.inl ⟨rfl, hpast⟩⟩
      · exact ⟨ticket, rfl, Or.inr ⟨rfl, hpast⟩⟩
    · intro past out hout
      cases out <;> exact hensures _ _

end AgentExchange.DataPlane
