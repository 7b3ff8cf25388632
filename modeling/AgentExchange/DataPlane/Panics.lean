import AgentExchange.DataPlane.FirstWrite

/-!
# Calls that panic

A build with overflow checks stops at a sum that is no `i64`, and every build stops where `unwrap`
meets a text that is no header value. Where the sum is an `i64` the checked build does what the
release build does, so the panics of both are found in one specification of the handlers.
-/
namespace AgentExchange.DataPlane

open Library Wire
open Program (lift ensure okOr)

/-! ## The build with overflow checks -/

/-- The sum is an `i64`. -/
def Fits (a b : Int64) : Prop := -2 ^ 63 ≤ a.toInt + b.toInt ∧ a.toInt + b.toInt < 2 ^ 63

instance (a b : Int64) : Decidable (Fits a b) := inferInstanceAs (Decidable (_ ∧ _))

def addChecked (a b : Int64) : Except Failure Int64 := do
  check (Fits a b) .panic
  pure (a + b)

/-- What `verify` does with a ticket that has not expired. -/
def verifySigned (env : Env) (ticket : Ticket) : Program effects TicketError VerifiedTicket := do
  let sigBytes ← lift ((hexDecode ticket.signature).mapError fun e => .encoding e.display)
  ensure (sigBytes.length = 64) (.encoding "signature not 64 bytes")
  let canon ← lift ((dataTicketBytes ticket.transferId ticket.recipient ticket.dataPlaneUrl
    ticket.expires ticket.nonce).mapError fun e => .canon e.display)
  ensure (env.ed25519Verify env.ticketVerifier.controlPlanePubkey canon sigBytes = true)
    .badSignature
  let inserted ← Program.call (S := effects) (.insertNonce ticket.nonce)
  ensure (inserted = true) .nonceReplay
  pure ⟨ticket.transferId, ticket.recipient, ticket.expires, ticket.nonce⟩

/-- `TicketVerifier::verify`, with the sum checked. -/
def verifyChecked (env : Env) (ticket : Ticket) : Prog VerifiedTicket := do
  ensure (ticket.dataPlaneUrl = env.ticketVerifier.dataPlaneUrl)
    (.verify (.wrongAudience ticket.dataPlaneUrl env.ticketVerifier.dataPlaneUrl))
  let now ← ask .clockNow
  let validUntil ← lift (addChecked ticket.expires env.ticketVerifier.skewSeconds)
  ensure (¬validUntil < now) (.verify (.expired ticket.expires now))
  (verifySigned env ticket).mapError .verify

/-- `parse().unwrap()` of a header value. -/
def headerValue (env : Env) (text : String) : Except Failure String := do
  check (env.headerFromStr text = true) .panic
  pure text

def disposition (filename : String) : String := "attachment; filename=\"" ++ filename ++ "\""

/-- The headers, with each of the three values unwrapped. -/
def servedChecked (env : Env) (metadata : BlobMetadata) (bytes : Bytes) :
    Except Failure Served := do
  let contentType ← if env.headerFromStr metadata.mime then pure metadata.mime
    else headerValue env "application/octet-stream"
  let contentLength ← headerValue env (toString metadata.size)
  let contentDisposition ← headerValue env (disposition metadata.filename)
  pure ⟨contentType, contentLength, contentDisposition, bytes⟩

def sendBlobChecked (env : Env) (transferId : String) (metadata : BlobMetadata) : Prog Served := do
  let found ← ask (.bytes transferId)
  let bytes ← okOr found (.serve (.blobNotFound transferId))
  lift (servedChecked env metadata bytes)

/-- `map_err` in `serve`; a panic goes through it. -/
def Failure.inServe : Failure → Failure
  | .verify e => .serve (.ticket e.display)
  | .serve e => .serve e
  | .panic => .panic

def serveChecked (env : Env) (transferId : String) (header : Option Bytes) : Prog Served := do
  let ticket ← lift ((parseTicket env header).mapError .serve)
  let verified ← (verifyChecked env ticket).mapError Failure.inServe
  ensure (verified.transferId = transferId)
    (.serve (.ticket ("ticket transfer " ++ verified.transferId ++ " does not match URL " ++
      transferId)))
  let found ← ask (.metadata transferId)
  let metadata ← okOr found (.serve (.blobNotFound transferId))
  if env.scanner then checkScanned env transferId metadata
  sendBlobChecked env transferId metadata

def handlerChecked (env : Env) : Request → Prog Answer
  | .getBlob transferId ticket => do
    let s ← serveChecked env transferId ticket
    pure (.served s)
  | .adminInsertBlob req => do
    let (code, message) ← adminInsertBlob env req
    pure (.status code message)
  | .verify ticket => do
    let v ← verifyChecked env ticket
    pure (.verified v)

def semanticsChecked (env : Env) :
    Semantics effects State Request Failure Answer PipelineVerdict Int64 :=
  { semantics env with handler := handlerChecked env }

def runChecked (env : Env) (file : Option BlobFile) (labels : List Label) : World :=
  Pool.run (semanticsChecked env) (loadBlobSource file) labels

/-! ## Where the two builds agree -/

def Visible (text : String) : Prop := ∀ c ∈ text.toList, 32 ≤ c.toNat ∧ c.toNat < 127

instance (text : String) : Decidable (Visible text) :=
  List.decidableBAll _ _

theorem visible_octetStream : Visible "application/octet-stream" := by decide

theorem visible_natRepr (n : ℕ) : Visible (Nat.repr n) := by
  intro c hc
  have hdigit := Char.isDigit_iff_toNat.mp (isDigit_of_mem_natRepr hc)
  have hzero : '0'.toNat = 48 := rfl
  have hnine : '9'.toNat = 57 := rfl
  omega

/-- Every text of visible ASCII characters is a header value. -/
def TakesVisible (env : Env) : Prop := ∀ text, Visible text → env.headerFromStr text = true

/-- The ticket a call presents is for this data plane, and its expiry with the skew is no `i64`. -/
def Overruns (env : Env) (r : Request) : Prop :=
  ∃ ticket, r.presented env = some ticket ∧
    ticket.dataPlaneUrl = env.ticketVerifier.dataPlaneUrl ∧
    ¬Fits ticket.expires env.ticketVerifier.skewSeconds

theorem addChecked_eq {a b : Int64} (h : Fits a b) : addChecked a b = .ok (a + b) := by
  simp [addChecked, check, h]

theorem verifyChecked_eq {env : Env} {ticket : Ticket}
    (h : ticket.dataPlaneUrl = env.ticketVerifier.dataPlaneUrl →
      Fits ticket.expires env.ticketVerifier.skewSeconds) :
    verifyChecked env ticket = (verify env ticket).mapError .verify := by
  by_cases haudience : ticket.dataPlaneUrl = env.ticketVerifier.dataPlaneUrl
  · unfold verifyChecked verify
    rw [Program.mapError_ensure_bind, Program.ensure_bind_eq haudience,
      Program.ensure_bind_eq haudience]
    refine congrArg (Program.perform (S := effects) .clockNow) (funext fun now => ?_)
    change (lift (addChecked _ _) >>= _) = Program.mapError _ (ensure _ _ >>= _)
    rw [addChecked_eq (h haudience), Program.mapError_ensure_bind]
    rfl
  · unfold verifyChecked verify
    rw [Program.mapError_ensure_bind, Program.ensure_bind_fail haudience,
      Program.ensure_bind_fail haudience]

/-- A sum that is no `i64` stops the checked build right after it has read the clock. -/
theorem verifyChecked_overrun {env : Env} {ticket : Ticket}
    (haudience : ticket.dataPlaneUrl = env.ticketVerifier.dataPlaneUrl)
    (h : ¬Fits ticket.expires env.ticketVerifier.skewSeconds) :
    verifyChecked env ticket = (ask .clockNow >>= fun _ => .fail .panic) := by
  unfold verifyChecked
  rw [Program.ensure_bind_eq haudience, addChecked, check, if_neg h]
  rfl

theorem headerValue_eq {env : Env} {text : String} (h : env.headerFromStr text = true) :
    headerValue env text = .ok text := by
  simp [headerValue, check, h]

theorem headerValue_bind {β : Type} (env : Env) (text : String) (f : String → Except Failure β) :
    (headerValue env text >>= f) =
      (check (env.headerFromStr text = true) .panic >>= fun _ => f text) := by
  unfold headerValue
  cases check (env.headerFromStr text = true) Failure.panic <;> rfl

/-- Only the file name can be refused: the other two values are visible ASCII. -/
theorem servedChecked_eq {env : Env} (hvisible : TakesVisible env) (metadata : BlobMetadata)
    (bytes : Bytes) : servedChecked env metadata bytes = served env metadata bytes := by
  have hfallback := hvisible _ visible_octetStream
  have hlength : env.headerFromStr (toString metadata.size) = true :=
    hvisible (toString metadata.size) (visible_natRepr metadata.size.toNat)
  unfold servedChecked served
  simp only [headerValue_eq hfallback, headerValue_eq hlength]
  cases hmime : env.headerFromStr metadata.mime
  · exact headerValue_bind env (disposition metadata.filename) _
  · exact headerValue_bind env (disposition metadata.filename) _

theorem serveChecked_eq {env : Env} (hvisible : TakesVisible env) {transferId : String}
    {header : Option Bytes} (h : ¬Overruns env (.getBlob transferId header)) :
    serveChecked env transferId header = serve env transferId header := by
  unfold serveChecked serve
  cases hticket : parseTicket env header with
  | error e => rfl
  | ok ticket =>
    have hfits : ticket.dataPlaneUrl = env.ticketVerifier.dataPlaneUrl →
        Fits ticket.expires env.ticketVerifier.skewSeconds := by
      intro haudience
      by_contra hfits
      exact h ⟨ticket, by simp [Request.presented, hticket, Except.toOption], haudience, hfits⟩
    have hsend : sendBlobChecked env = sendBlob env := by
      funext transferId metadata
      simp only [sendBlobChecked, sendBlob, servedChecked_eq hvisible]
    rw [hsend]
    simp only [Except.mapError, Program.lift_ok, Program.pure_bind_eq, verifyChecked_eq hfits,
      Program.mapError_mapError]
    rfl

theorem handlerChecked_eq {env : Env} (hvisible : TakesVisible env) {r : Request}
    (h : ¬Overruns env r) : handlerChecked env r = handler env r := by
  cases r with
  | getBlob transferId header =>
    simp only [handlerChecked, handler, serveChecked_eq hvisible h]
  | adminInsertBlob req => rfl
  | verify ticket =>
    have hfits : ticket.dataPlaneUrl = env.ticketVerifier.dataPlaneUrl →
        Fits ticket.expires env.ticketVerifier.skewSeconds := by
      intro haudience
      by_contra hfits
      exact h ⟨ticket, rfl, haudience, hfits⟩
    simp only [handlerChecked, handler, verifyChecked_eq hfits]

/-! ## Which calls panic -/

def Nameable (env : Env) (metadata : BlobMetadata) : Prop :=
  env.headerFromStr (disposition metadata.filename) = true

/-- A call has read the metadata of a blob and, last, the bytes to answer with. -/
def Delivers (past : History) (transferId : String) (metadata : BlobMetadata) : Prop :=
  ∃ before bytes, past = before ++ [⟨.bytes transferId, some bytes⟩] ∧
    ⟨.metadata transferId, some metadata⟩ ∈ before

/-- A call is about to answer with a blob whose file name makes no header value. -/
def Misnames (env : Env) (r : Request) (past : History) : Prop :=
  ∃ transferId header metadata, r = .getBlob transferId header ∧
    Delivers past transferId metadata ∧ ¬Nameable env metadata

def PanicsOnName {α : Type} (env : Env) (r : Request) (past : History) (out : Except Failure α) :
    Prop :=
  out = .error .panic ↔ Misnames env r past

/-- An insert stores what its own request brings. -/
def StoresOwn (r : Request) (_ : History) (op : Op) : Prop :=
  ∀ transferId metadata bytes, op = .insertBlob transferId metadata bytes →
    ∃ req, r = .adminInsertBlob req ∧ metadata = req.metadata

theorem storesOwn {r : Request} {past : History} {op : Op}
    (h : ∀ transferId metadata bytes, op ≠ .insertBlob transferId metadata bytes) :
    StoresOwn r past op :=
  fun transferId metadata bytes hop => absurd hop (h transferId metadata bytes)

theorem delivers_snoc {past : History} {e : Event effects} {transferId : String}
    {metadata : BlobMetadata} :
    Delivers (past ++ [e]) transferId metadata ↔
      (∃ bytes, e = ⟨.bytes transferId, some bytes⟩) ∧
        ⟨.metadata transferId, some metadata⟩ ∈ past := by
  constructor
  · intro h
    obtain ⟨before, bytes, hpast, hmetadata⟩ := h
    obtain ⟨rfl, hlast⟩ := List.append_inj' hpast rfl
    exact ⟨⟨bytes, List.singleton_inj.mp hlast⟩, hmetadata⟩
  · intro h
    obtain ⟨⟨bytes, rfl⟩, hmetadata⟩ := h
    exact ⟨past, bytes, rfl, hmetadata⟩

theorem not_delivers_snoc {past : History} {e : Event effects} {transferId : String}
    (h : ∀ bytes, e ≠ ⟨.bytes transferId, some bytes⟩) (metadata : BlobMetadata) :
    ¬Delivers (past ++ [e]) transferId metadata := by
  intro hdelivers
  obtain ⟨⟨bytes, hbytes⟩, -⟩ := delivers_snoc.mp hdelivers
  exact h bytes hbytes

/-- Whoever has read no bytes delivers nothing. -/
theorem not_delivers {past : History} {transferId : String} {metadata : BlobMetadata}
    (h : ∀ e ∈ past, ∀ bytes, e ≠ ⟨.bytes transferId, some bytes⟩) :
    ¬Delivers past transferId metadata := by
  intro hdelivers
  obtain ⟨before, bytes, rfl, -⟩ := hdelivers
  exact h _ (by simp) bytes rfl

theorem panicsOnName_error {α : Type} {env : Env} {transferId : String} {header : Option Bytes}
    {past : History} {e : Failure} (he : e ≠ .panic)
    (h : ∀ metadata, ¬Delivers past transferId metadata) :
    PanicsOnName env (.getBlob transferId header) past (.error e : Except Failure α) := by
  constructor
  · intro hpanic
    exact absurd (Except.error.inj hpanic) he
  · intro hmisnames
    obtain ⟨transferId', header', metadata, hr, hdelivers, -⟩ := hmisnames
    cases hr
    exact absurd hdelivers (h metadata)

/-- `verify` reads no bytes. -/
theorem VerifyResult.not_delivers {env : Env} {ticket : Ticket} {past : History}
    {out : Except TicketError VerifiedTicket} (h : VerifyResult env ticket past out)
    (transferId : String) (metadata : BlobMetadata) : ¬Delivers past transferId metadata := by
  apply DataPlane.not_delivers
  cases out with
  | ok v =>
    obtain ⟨-, now, rfl, -⟩ := h
    simp
  | error e =>
    rcases h with ⟨rfl, -⟩ | ⟨now, rfl, -⟩ | ⟨-, now, rfl, -⟩ <;> simp

theorem VerifyOp.storesOwn {env : Env} {ticket : Ticket} {past : History} {op : Op}
    (h : VerifyOp env ticket past op) (r : Request) : StoresOwn r past op := by
  intro transferId metadata bytes hop
  rcases h with ⟨rfl, -⟩ | ⟨rfl, -⟩ <;> cases hop

/-- The scan reads no metadata, and where it ends the call the last thing done was no read of the
bytes. -/
theorem checkScanned_bind_quiet {env : Env} {r : Request} {past : History} {transferId : String}
    {metadata : BlobMetadata} {f : Unit → Prog Served}
    {post : History → Except Failure Served → Prop}
    (herr : ∀ past e, e ≠ Failure.panic → (∀ metadata, ¬Delivers past transferId metadata) →
      post past (.error e))
    (hok : ∀ es, (∀ e ∈ es, ∀ metadata, e ≠ ⟨.metadata transferId, metadata⟩) →
      (f ()).Spec (StoresOwn r) post (past ++ es)) :
    (checkScanned env transferId metadata >>= f).Spec (StoresOwn r) post past := by
  unfold checkScanned
  rw [Program.spec_bind, Program.spec_call_bind]
  refine ⟨storesOwn (by simp), ?_⟩
  intro cached
  match cached with
  | some .clean => exact hok _ (by simp)
  | some (.blocked reason) => exact herr _ _ (by simp) (not_delivers_snoc (by simp))
  | none =>
    simp only
    rw [Program.spec_call_bind]
    refine ⟨storesOwn (by simp), ?_⟩
    intro found
    rw [Program.spec_okOr_bind]
    refine ⟨?_, ?_⟩
    swap
    · rintro rfl
      exact herr _ _ (by simp) (not_delivers_snoc (by simp))
    rintro bytes rfl
    rw [Program.spec_call_bind]
    refine ⟨storesOwn (by simp), ?_⟩
    intro verdict
    split_ifs with hblocking
    · rw [Program.spec_call_bind]
      exact ⟨storesOwn (by simp), fun _ => herr _ _ (by simp) (not_delivers_snoc (by simp))⟩
    · refine ⟨storesOwn (by simp), ?_⟩
      intro u
      simp only [List.append_assoc]
      exact hok _ (by simp)

theorem served_eq_panic {env : Env} {metadata : BlobMetadata} {bytes : Bytes} :
    served env metadata bytes = .error .panic ↔ ¬Nameable env metadata := by
  change (check (env.headerFromStr (disposition metadata.filename) = true) Failure.panic >>=
    fun _ => Except.ok _) = _ ↔ _
  unfold Nameable check
  by_cases hname : env.headerFromStr (disposition metadata.filename) = true
  · rw [if_pos hname]
    exact ⟨fun h => (by cases h), fun h => absurd hname h⟩
  · rw [if_neg hname]
    exact ⟨fun _ => hname, fun _ => rfl⟩

theorem sendBlob_panics {env : Env} {transferId : String} {header : Option Bytes}
    {metadata : BlobMetadata} {past : History}
    (hread : ∀ metadata', ⟨.metadata transferId, some metadata'⟩ ∈ past ↔ metadata' = metadata) :
    (sendBlob env transferId metadata).Spec (StoresOwn (.getBlob transferId header))
      (PanicsOnName env (.getBlob transferId header)) past := by
  unfold sendBlob
  rw [Program.spec_call_bind]
  refine ⟨storesOwn (by simp), ?_⟩
  intro found
  rw [Program.spec_okOr_bind]
  refine ⟨?_, ?_⟩
  swap
  · rintro rfl
    exact panicsOnName_error (by simp) (not_delivers_snoc (by simp))
  rintro bytes rfl
  rw [Program.spec_lift]
  rw [PanicsOnName, served_eq_panic]
  constructor
  · intro hname
    exact ⟨transferId, header, metadata, rfl, delivers_snoc.mpr ⟨⟨bytes, rfl⟩,
      (hread metadata).mpr rfl⟩, hname⟩
  · intro hmisnames
    obtain ⟨transferId', header', metadata', hr, hdelivers, hname⟩ := hmisnames
    cases hr
    rw [(hread metadata').mp (delivers_snoc.mp hdelivers).2] at hname
    exact hname

theorem serve_panics (env : Env) (transferId : String) (header : Option Bytes) :
    (serve env transferId header).Spec (StoresOwn (.getBlob transferId header))
      (PanicsOnName env (.getBlob transferId header)) [] := by
  unfold serve
  rw [Program.spec_lift_bind]
  refine ⟨?_, ?_⟩
  swap
  · intro e he
    refine panicsOnName_error ?_ fun _ => not_delivers (by simp)
    rintro rfl
    cases hparse : parseTicket env header <;> simp [hparse, Except.mapError] at he
  intro ticket hticket
  rw [Program.spec_bind, Program.spec_mapError]
  refine (verify_spec env ticket).mono (fun _ _ h => h.storesOwn _) ?_
  intro past out hout
  have hsilent := hout.not_delivers transferId
  match out with
  | .error e => exact panicsOnName_error (by simp) hsilent
  | .ok verified =>
    obtain ⟨-, now, rfl, -⟩ := hout
    change Program.Spec _ _ _ _
    rw [Program.spec_ensure_bind]
    refine ⟨?_, fun _ => panicsOnName_error (by simp) hsilent⟩
    intro hid
    rw [Program.spec_call_bind]
    refine ⟨storesOwn (by simp), ?_⟩
    intro found
    rw [Program.spec_okOr_bind]
    refine ⟨?_, ?_⟩
    swap
    · rintro rfl
      exact panicsOnName_error (by simp) (not_delivers_snoc (by simp))
    rintro metadata rfl
    split_ifs with hscanner
    · refine checkScanned_bind_quiet (fun _ _ he h => panicsOnName_error he h) ?_
      intro es hes
      refine sendBlob_panics fun metadata' => ⟨?_, ?_⟩
      · intro hread
        rcases List.mem_append.mp hread with hread | hread
        · simpa using hread
        · exact absurd rfl (hes _ hread _)
      · rintro rfl
        simp
    · exact sendBlob_panics (by simp)

theorem misnames_getBlob {env : Env} {r : Request} {past : History} (h : Misnames env r past) :
    ∃ transferId header, r = .getBlob transferId header := by
  obtain ⟨transferId, header, -, hr, -⟩ := h
  exact ⟨transferId, header, hr⟩

theorem handler_panics (env : Env) (r : Request) :
    (handler env r).Spec (StoresOwn r) (PanicsOnName env r) [] := by
  cases r with
  | getBlob transferId header =>
    unfold handler
    rw [Program.spec_bind]
    refine (serve_panics env transferId header).mono (fun _ _ h => h) ?_
    intro past out hout
    match out with
    | .error e => simpa [PanicsOnName] using hout
    | .ok s => simpa [PanicsOnName] using hout
  | adminInsertBlob req =>
    have hpanics : ∀ past code message,
        PanicsOnName env (.adminInsertBlob req) past
          (.ok (.status code message) : Except Failure Answer) := by
      intro past code message
      exact ⟨fun h => (by cases h), fun h => (by simpa using misnames_getBlob h)⟩
    unfold handler adminInsertBlob
    rw [Program.spec_bind]
    cases env.adminToken with
    | none => exact hpanics _ _ _
    | some token =>
      simp only
      split_ifs with htoken
      · exact hpanics _ _ _
      · refine ⟨?_, fun _ => hpanics _ _ _⟩
        rintro transferId metadata bytes hop
        cases hop
        exact ⟨req, rfl, rfl⟩
  | verify ticket =>
    unfold handler
    rw [Program.spec_bind, Program.spec_mapError]
    refine (verify_spec env ticket).mono (fun _ _ h => h.storesOwn _) ?_
    intro past out hout
    cases out <;>
      exact ⟨fun h => (by cases h), fun h => (by simpa using misnames_getBlob h)⟩

/-- A call whose ticket overruns panics before the signature is looked at. -/
theorem handlerChecked_overrun {env : Env} {r : Request} (h : Overruns env r) :
    handlerChecked env r = (ask .clockNow >>= fun _ => .fail .panic) := by
  obtain ⟨ticket, hpresented, haudience, hfits⟩ := h
  cases r with
  | getBlob transferId header =>
    have hticket : parseTicket env header = .ok ticket := by
      cases hparse : parseTicket env header <;>
        simp [Request.presented, hparse, Except.toOption] at hpresented
      rw [hpresented]
    simp only [handlerChecked, serveChecked, hticket, Except.mapError, Program.lift_ok,
      Program.pure_bind_eq, verifyChecked_overrun haudience hfits]
    rfl
  | adminInsertBlob req => cases hpresented
  | verify ticket' =>
    cases hpresented
    simp only [handlerChecked, verifyChecked_overrun haudience hfits]
    rfl

theorem handlerChecked_panics {env : Env} (hvisible : TakesVisible env) (r : Request) :
    (handlerChecked env r).Spec (StoresOwn r)
      (fun past out => out = .error .panic ↔ Overruns env r ∨ Misnames env r past) [] := by
  by_cases hover : Overruns env r
  · rw [handlerChecked_overrun hover, Program.spec_call_bind]
    exact ⟨storesOwn (by simp), fun _ => by simp [hover]⟩
  · rw [handlerChecked_eq hvisible hover]
    refine (handler_panics env r).mono (fun _ _ h => h) ?_
    intro past out hout
    simpa [PanicsOnName, hover] using hout

/-! ## Runs without a panic -/

/-- The names stored with the blobs make header values. -/
def NamesFit (env : Env) (s : State) : Prop :=
  ∀ transferId blob, s.blobs transferId = some blob → Nameable env blob.1

/-- No ticket that is sent overruns, and every name that is sent makes a header value. -/
structure Harmless (env : Env) (file : Option BlobFile) (labels : List Label) : Prop where
  tickets : ∀ r, .spawn r ∈ labels → ¬Overruns env r
  loaded : NamesFit env (loadBlobSource file)
  inserted : ∀ req, .spawn (.adminInsertBlob req) ∈ labels → Nameable env req.metadata

theorem Harmless.of_append {env : Env} {file : Option BlobFile} {done more : List Label}
    (h : Harmless env file (done ++ more)) : Harmless env file done :=
  ⟨fun r hr => h.tickets r (List.mem_append_left _ hr), h.loaded,
    fun req hreq => h.inserted req (List.mem_append_left _ hreq)⟩

theorem NamesFit.exec {env : Env} {s : State} {op : Op} (hs : NamesFit env s)
    (hop : ∀ transferId metadata bytes, op = .insertBlob transferId metadata bytes →
      Nameable env metadata) (verdict : PipelineVerdict) :
    NamesFit env (exec s op verdict).2 := by
  cases op with
  | insertBlob transferId metadata bytes =>
    intro transferId' blob hblob
    by_cases heq : transferId' = transferId
    · subst heq
      have hblob : (metadata, bytes) = blob := by simpa [DataPlane.exec] using hblob
      rw [← hblob]
      exact hop _ _ _ rfl
    · refine hs transferId' blob ?_
      simpa [DataPlane.exec, Function.update_of_ne heq] using hblob
  | insertNonce nonce =>
    intro transferId blob hblob
    refine hs transferId blob ?_
    by_cases hused : nonce ∈ s.usedNonces <;> simpa [DataPlane.exec, hused] using hblob
  | _ => exact hs

theorem Harmless.namesFit {env : Env} (hvisible : TakesVisible env) {file : Option BlobFile}
    {labels : List Label} (h : Harmless env file labels) :
    NamesFit env (runChecked env file labels).shared := by
  refine Pool.run_trace_induction (M := semanticsChecked env)
    (C := fun p _ => ∀ t ∈ p.tasks, .spawn t.request ∈ labels) (J := fun _ s => NamesFit env s)
    (handlerChecked_panics hvisible) h.loaded ?_ (fun _ _ _ hJ => hJ) labels ?_
  · intro p i c r op k hi hop hspawned hJ
    refine hJ.exec ?_ c
    rintro transferId metadata bytes rfl
    obtain ⟨req, rfl, rfl⟩ := hop transferId metadata bytes rfl
    exact h.inserted req (hspawned _ (List.mem_of_getElem? hi))
  · intro done l rest hlabels t ht
    have hspawned := Pool.run_spawned (semanticsChecked env) (loadBlobSource file) done t ht
    rw [hlabels]
    exact List.mem_append_left _ hspawned

theorem Harmless.never_panics {env : Env} (hvisible : TakesVisible env) {file : Option BlobFile}
    {labels : List Label} (h : Harmless env file labels) (i : ℕ) :
    (runChecked env file labels).outcome i ≠ some (.error .panic) := by
  intro hout
  have hconforms := Pool.run_conforms (semanticsChecked env) (loadBlobSource file) labels
  obtain ⟨t, ht, -⟩ := Option.bind_eq_some_iff.mp hout
  have hspawned := Pool.run_spawned (semanticsChecked env) (loadBlobSource file) labels t
    (List.mem_of_getElem? ht)
  rcases (hconforms.outcome_spec (handlerChecked_panics hvisible) ht hout).mp rfl with
    hover | ⟨transferId, header, metadata, -, hdelivers, hname⟩
  · exact h.tickets _ hspawned hover
  · obtain ⟨before, bytes, hevents, hread⟩ := hdelivers
    have hread : ⟨.metadata transferId, some metadata⟩ ∈
        Pool.eventsOf (runChecked env file labels).trace i := by
      change Pool.eventsOf (runChecked env file labels).trace i = _ at hevents
      simp [hevents, hread]
    obtain ⟨⟨_, _, s, _⟩, he, -, rfl⟩ := Pool.mem_eventsOf.mp hread
    obtain ⟨past, rest, htrace⟩ := List.append_of_mem he
    obtain ⟨done, more, rfl, -, rfl⟩ := Pool.run_entry (semanticsChecked env) htrace
    -- the metadata was read from the store of an earlier pool of the run
    obtain ⟨c, hanswer⟩ := hconforms.answered _ he
    obtain ⟨blob, hblob, rfl⟩ := Option.map_eq_some_iff.mp hanswer.symm
    exact hname (h.of_append.namesFit hvisible transferId blob hblob)

/-- A call answers or fails, and does not panic, exactly where its ticket does not overrun and the
file name stored with the blob it has come to answer with makes a header value. -/
theorem returns_iff (env : Env) (hvisible : TakesVisible env) (file : Option BlobFile)
    (labels : List Label) {i : ℕ} {r : Request} {out : Except Failure Answer}
    (hr : (labels.filterMap Label.received)[i]? = some r)
    (hout : (runChecked env file labels).outcome i = some out) :
    out ≠ .error .panic ↔
      ¬Overruns env r ∧ ¬Misnames env r (Pool.eventsOf (runChecked env file labels).trace i) := by
  have hconforms := Pool.run_conforms (semanticsChecked env) (loadBlobSource file) labels
  rw [← Pool.run_requests (semanticsChecked env) (loadBlobSource file), List.getElem?_map] at hr
  obtain ⟨t, ht, rfl⟩ := Option.map_eq_some_iff.mp hr
  rw [← not_or]
  exact not_congr (hconforms.outcome_spec (handlerChecked_panics hvisible) ht hout)

namespace Sample

theorem takesVisible : TakesVisible env := by
  intro text htext
  have hascii : ∀ c ∈ text.toList, isAscii c = true := by
    intro c hc
    have := htext c hc
    simp only [isAscii, decide_eq_true_eq]
    omega
  change (intoBytes text).all visible = true
  rw [intoBytes_of_isAscii hascii, List.all_map, List.all_eq_true]
  intro c hc
  have hc := htext c hc
  have hbyte : (UInt8.ofNat c.toNat).toNat = c.toNat := Nat.mod_eq_of_lt (by omega)
  simp only [Function.comp_apply, visible, Bool.or_eq_true, Bool.and_eq_true, decide_eq_true_eq,
    UInt8.le_iff_toNat_le, UInt8.lt_iff_toNat_lt, hbyte]
  exact Or.inl hc

/-- A ticket that nobody has signed, valid to the end of time. -/
def endless : Ticket := { ticket "0" "00" with expires := 2 ^ 63 - 1 }

def endlessEnv : Env :=
  { env with ticketFromStr := fun text =>
      if text = ticketJson endless then .ok endless else env.ticketFromStr text }

/-- A blob is stored under a name of two lines, and fetched. -/
def twoLines : List Label :=
  .environment time :: call 0 (.adminInsertBlob
    { transferId := "tx_abc123"
      filename := some "f\n.txt"
      token := some (intoBytes "token")
      body := hello }) 1 ++ call 1 (fetch first) 8

end Sample

theorem returns_iff_scanned :
    (Except.ok (.served ⟨"text/plain", "5", "attachment; filename=\"f.txt\"",
        Sample.hello.bytes⟩) : Except Failure Answer) ≠ .error .panic ↔
      ¬Overruns Sample.env (Sample.fetch Sample.first) ∧
        ¬Misnames Sample.env (Sample.fetch Sample.first)
          (Pool.eventsOf (runChecked Sample.env none Sample.scanned).trace 1) :=
  returns_iff Sample.env Sample.takesVisible none Sample.scanned (i := 1) rfl (by
    rw [Sample.env_eq]
    decide +kernel)

/-- A ticket without a signature, and a file name with a line break. -/
theorem fetch_panics :
    (runChecked Sample.endlessEnv none (Sample.call 0 (Sample.fetch Sample.endless) 1)).outcome 0 =
        some (.error .panic) ∧
      (runChecked Sample.env none Sample.twoLines).outcome 1 = some (.error .panic) := by
  rw [Sample.endlessEnv, Sample.env_eq]
  decide +kernel

end AgentExchange.DataPlane
