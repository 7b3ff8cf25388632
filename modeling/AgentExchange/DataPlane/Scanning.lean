import AgentExchange.DataPlane.Contracts

/-!
# What is served was scanned

The verdict on a transfer is cached under its id, and the bytes are read twice.
Both are sound as long as a blob that some call has begun to serve is not
replaced: the metadata and the bytes that were read are then those of the store
for the rest of the run.
-/
namespace AgentExchange.DataPlane

open Library

/-- What was read is still stored, every stored size is the length, and a cached clean verdict comes
from a scan of what was read. -/
structure Settled (events : History) (s : State) : Prop where
  metadata : ∀ id m, ⟨.metadata id, some m⟩ ∈ events → ∃ b, s.blobs id = some (m, b)
  bytes : ∀ id b, ⟨.bytes id, some b⟩ ∈ events →
    ∃ m, ⟨.metadata id, some m⟩ ∈ events ∧ s.blobs id = some (m, b)
  sized : ∀ id m b, s.blobs id = some (m, b) → m.size = .ofNat b.length ∧ b.length < 2 ^ 63
  cached : ∀ id, s.scanCache id = some .clean → ∃ m b, ScannedClean events id m b

theorem metadata_event_inj {id id' : String} {x y : Option BlobMetadata}
    (h : (⟨.metadata id, x⟩ : Event effects) = ⟨.metadata id', y⟩) : id = id' ∧ x = y := by
  cases h
  exact ⟨rfl, rfl⟩

theorem bytes_event_inj {id id' : String} {x y : Option Bytes}
    (h : (⟨.bytes id, x⟩ : Event effects) = ⟨.bytes id', y⟩) : id = id' ∧ x = y := by
  cases h
  exact ⟨rfl, rfl⟩

/-- An operation that leaves the blobs alone and answers reads from the store. -/
theorem Settled.keep {events : History} {s s' : State} (h : Settled events s) {e : Event effects}
    (hblobs : s'.blobs = s.blobs)
    (hmetadata : ∀ id m, e = ⟨.metadata id, some m⟩ → ∃ b, s.blobs id = some (m, b))
    (hbytes : ∀ id b, e = ⟨.bytes id, some b⟩ →
      ∃ m, ⟨.metadata id, some m⟩ ∈ events ∧ s.blobs id = some (m, b))
    (hcache : ∀ id, s'.scanCache id = some .clean →
      s.scanCache id = some .clean ∨ ∃ m b, ScannedClean events id m b) :
    Settled (events ++ [e]) s' := by
  constructor
  · intro id m hmem
    rw [hblobs]
    rw [List.mem_append, List.mem_singleton] at hmem
    rcases hmem with hmem | hmem
    · exact h.metadata id m hmem
    · exact hmetadata id m hmem.symm
  · intro id b hmem
    rw [hblobs]
    rw [List.mem_append, List.mem_singleton] at hmem
    have hread : ∃ m, ⟨.metadata id, some m⟩ ∈ events ∧ s.blobs id = some (m, b) := by
      rcases hmem with hmem | hmem
      · exact h.bytes id b hmem
      · exact hbytes id b hmem.symm
    obtain ⟨m, hm, hb⟩ := hread
    exact ⟨m, List.mem_append_left _ hm, hb⟩
  · rw [hblobs]
    exact h.sized
  · intro id hclean
    have hscanned : ∃ m b, ScannedClean events id m b := by
      rcases hcache id hclean with hclean | hscanned
      · exact h.cached id hclean
      · exact hscanned
    obtain ⟨m, b, hscanned⟩ := hscanned
    exact ⟨m, b, hscanned.mono (List.subset_append_left _ _)⟩

/-- Storing a blob nobody has read, or storing it again. -/
theorem Settled.insertBlob {events : History} {s : State} (h : Settled events s) {id : String}
    {m : BlobMetadata} {b : Bytes} (hsize : m.size = .ofNat b.length ∧ b.length < 2 ^ 63)
    (hunread : s.blobs id = some (m, b) ∨ ∀ m', ⟨.metadata id, some m'⟩ ∉ events) :
    Settled (events ++ [⟨.insertBlob id m b, ()⟩])
      { s with blobs := Function.update s.blobs id (some (m, b)) } := by
  rcases hunread with hsame | hunread
  · have hupdate : Function.update s.blobs id (some (m, b)) = s.blobs := by
      rw [← hsame, Function.update_eq_self]
    rw [hupdate]
    exact h.keep rfl (fun id' m' he => by cases he) (fun id' b' he => by cases he)
      fun id' hclean => Or.inl hclean
  · have hother : ∀ id' m', ⟨.metadata id', some m'⟩ ∈ events →
        Function.update s.blobs id (some (m, b)) id' = s.blobs id' := by
      intro id' m' hmem
      refine Function.update_of_ne ?_ _ _
      rintro rfl
      exact hunread m' hmem
    constructor
    · intro id' m' hmem
      rw [List.mem_append, List.mem_singleton] at hmem
      rcases hmem with hmem | hmem
      · obtain ⟨b', hb'⟩ := h.metadata id' m' hmem
        exact ⟨b', (hother id' m' hmem).trans hb'⟩
      · cases hmem
    · intro id' b' hmem
      rw [List.mem_append, List.mem_singleton] at hmem
      rcases hmem with hmem | hmem
      · obtain ⟨m', hm', hb'⟩ := h.bytes id' b' hmem
        exact ⟨m', List.mem_append_left _ hm', (hother id' m' hm').trans hb'⟩
      · cases hmem
    · intro id' m' b' hstored
      change Function.update s.blobs id (some (m, b)) id' = _ at hstored
      rw [Function.update_apply] at hstored
      split_ifs at hstored with hid
      · cases hstored
        exact hsize
      · exact h.sized id' m' b' hstored
    · intro id' hclean
      obtain ⟨m', b', hscanned⟩ := h.cached id' hclean
      exact ⟨m', b', hscanned.mono (List.subset_append_left _ _)⟩

/-- A call found metadata under the id. -/
def reads (id : String) : Event effects → Bool
  | ⟨.metadata id', some _⟩ => id' = id
  | _ => false

/-- The condition under which the store may be written: the blob is there already, or no call has
read metadata under its id. -/
def unread (events : History) (s : State) : Op → Bool
  | .insertBlob id m b => s.blobs id = some (m, b) || !events.any (reads id)
  | _ => true

theorem Settled.perform {env : Env} {r : Request} {events past : History} {s : State}
    (h : Settled events s) (hpast : past ⊆ events) {op : Op} (hop : Requires env r past op)
    (hunread : unread events s op = true) (verdict : PipelineVerdict) :
    Settled (events ++ [⟨op, (exec s op verdict).1⟩]) (exec s op verdict).2 := by
  cases op with
  | metadata id =>
    refine h.keep rfl ?_ (fun id' b he => by cases he) fun id' hclean => Or.inl hclean
    intro id' m he
    obtain ⟨rfl, hread⟩ := metadata_event_inj he
    obtain ⟨⟨m', b⟩, hstored, rfl⟩ := Option.map_eq_some_iff.mp hread
    exact ⟨b, hstored⟩
  | bytes id =>
    refine h.keep rfl (fun id' m he => by cases he) ?_ fun id' hclean => Or.inl hclean
    intro id' b he
    obtain ⟨rfl, hread⟩ := bytes_event_inj he
    obtain ⟨⟨m', b'⟩, hstored, rfl⟩ := Option.map_eq_some_iff.mp hread
    obtain ⟨m, hm⟩ := hop
    obtain ⟨b'', hstored'⟩ := h.metadata id m (hpast hm)
    rw [hstored] at hstored'
    cases hstored'
    exact ⟨m', hpast hm, hstored⟩
  | cachePut id cached =>
    refine h.keep rfl (fun id' m he => by cases he) (fun id' b he => by cases he) ?_
    intro id' hclean
    change Function.update s.scanCache id (some cached) id' = _ at hclean
    rw [Function.update_apply] at hclean
    split_ifs at hclean with hid
    · cases hclean
      obtain ⟨m, b, hscanned⟩ := hop
      exact Or.inr ⟨m, b, hid ▸ hscanned.mono hpast⟩
    · exact Or.inl hclean
  | insertBlob id m b =>
    refine h.insertBlob hop ?_
    simp only [unread, Bool.or_eq_true, decide_eq_true_eq, Bool.not_eq_true', List.any_eq_false]
      at hunread
    refine hunread.imp_right ?_
    intro hnone m' hmem
    exact hnone _ hmem (by simp [reads])
  | insertNonce nonce =>
    refine h.keep ?_ (fun id' m he => by cases he) (fun id' b he => by cases he) ?_
    · simp only [exec]
      split_ifs <;> rfl
    · intro id' hclean
      refine Or.inl ?_
      simp only [exec] at hclean
      split_ifs at hclean <;> exact hclean
  | _ =>
    exact h.keep rfl (fun id' m he => by cases he) (fun id' b he => by cases he)
      fun id' hclean => Or.inl hclean

/-- A step that stores a blob meets `unread`. -/
def StoresUnread (w : World) (l : Label) : Prop :=
  w.performs (fun trace s op => unread (trace.map Entry.event) s op) l = true

instance (w : World) (l : Label) : Decidable (StoresUnread w l) :=
  inferInstanceAs (Decidable (_ = true))

theorem settled_loadBlobSource (file : Option BlobFile) : Settled [] (loadBlobSource file) := by
  refine ⟨by simp, by simp, ?_, ?_⟩
  · cases file with
    | none => simp [loadBlobSource]
    | some file =>
      intro id m b hstored
      simp only [loadBlobSource, Function.update_apply] at hstored
      split_ifs at hstored
      cases hstored
      exact ⟨rfl, file.content.fits⟩
  · cases file <;> simp [loadBlobSource]

theorem eventsOf_subset (trace : Trace) (i : ℕ) :
    Pool.eventsOf trace i ⊆ trace.map Entry.event := by
  intro e he
  obtain ⟨x, hx, -, rfl⟩ := Pool.mem_eventsOf.mp he
  exact List.mem_map_of_mem hx

theorem run_settled {env : Env} {file : Option BlobFile} {labels : List Label}
    (h : Pool.Along (semantics env) (loadBlobSource file) StoresUnread labels) :
    Settled ((run env file labels).trace.map Entry.event) (run env file labels).shared := by
  refine Pool.run_trace_induction (M := semantics env) (C := StoresUnread)
    (J := fun trace s => Settled (trace.map Entry.event) s) (handler_spec env)
    (settled_loadBlobSource file) ?_ ?_ labels h
  · intro p i c r op k hi hop hstores hp
    rw [List.map_append]
    exact hp.perform (eventsOf_subset p.trace i) hop (Pool.cond_of_performs hi hstores) c
  · intro p t _ hp
    exact ⟨hp.metadata, hp.bytes, hp.sized, hp.cached⟩

/-! ## Responses -/

/-- The scanners ran on the body of the response with the metadata it is served with, and found
nothing that blocks; the `Content-Length` header is the length of the body. -/
def ServedScanned (env : Env) (w : World) (s : Served) : Prop :=
  s.contentLength = toString s.body.length ∧
    ∃ metadata verdict, served env metadata s.body = .ok s ∧ verdict.isBlocking = false ∧
      ∃ e ∈ w.trace, e.event = ⟨.scan ⟨s.body, some metadata.mime, some metadata.filename⟩, verdict⟩

/-- Every blob that was served was scanned. -/
def ScanSound (env : Env) (w : World) : Prop :=
  ∀ i t transferId header s, w.tasks[i]? = some t → t.request = .getBlob transferId header →
    w.outcome i = some (.ok (.served s)) → ServedScanned env w s

theorem Settled.stored {events : History} {s : State} (h : Settled events s) {id : String}
    {m : BlobMetadata} {b : Bytes} (hm : ⟨.metadata id, some m⟩ ∈ events)
    (hb : ⟨.bytes id, some b⟩ ∈ events) : s.blobs id = some (m, b) := by
  obtain ⟨b', hmetadata⟩ := h.metadata id m hm
  obtain ⟨m', -, hbytes⟩ := h.bytes id b hb
  rw [hmetadata] at hbytes
  cases hbytes
  exact hmetadata

theorem served_eq_ok {env : Env} {m : BlobMetadata} {b : Bytes} {s : Served}
    (h : served env m b = .ok s) : s.body = b ∧ s.contentLength = toString m.size := by
  obtain ⟨-, hs⟩ := check_bind_eq_ok.mp h
  cases hs
  exact ⟨rfl, rfl⟩

theorem toString_ofNat {n : ℕ} (h : n < 2 ^ 63) : toString (UInt64.ofNat n) = toString n := by
  change Nat.repr (UInt64.ofNat n).toNat = Nat.repr n
  rw [UInt64.toNat_ofNat_of_lt' (lt_trans h (by decide))]

/-- A cached clean verdict comes from a scan earlier in the run. -/
theorem scannedClean_of_cached {env : Env} {file : Option BlobFile} {labels : List Label}
    (h : Pool.Along (semantics env) (loadBlobSource file) StoresUnread labels) {id : String}
    (hcached : ⟨.cacheGet id, some .clean⟩ ∈ (run env file labels).trace.map Entry.event) :
    ∃ m b, ScannedClean ((run env file labels).trace.map Entry.event) id m b := by
  obtain ⟨e, he, hevent⟩ := List.mem_map.mp hcached
  obtain ⟨past, later, htrace⟩ := List.append_of_mem he
  obtain ⟨done, more, rfl, -, hbefore⟩ := Pool.run_entry (semantics env) htrace
  obtain ⟨c, hanswer⟩ := (Pool.run_conforms (semantics env) (loadBlobSource file) _).answered e he
  obtain ⟨task, request, before, event⟩ := e
  dsimp only at hevent hanswer hbefore
  subst hevent hbefore
  obtain ⟨m, b, hscanned⟩ := (run_settled h.of_append).cached id hanswer.symm
  have hgrows := Pool.run_trace_grows (ε := Failure) (α := Answer) (semantics env)
    (loadBlobSource file) done more
  exact ⟨m, b, hscanned.mono (List.map_subset _ hgrows.subset)⟩

/-- In every run in which no blob is replaced after a call has read its metadata, every blob that is
served was scanned. -/
theorem scanSound_of_storesUnread (env : Env) (hscanner : env.scanner = true)
    (file : Option BlobFile) (labels : List Label)
    (h : Pool.Along (semantics env) (loadBlobSource file) StoresUnread labels) :
    ScanSound env (run env file labels) := by
  intro i t transferId header s ht hrequest hout
  have hsettled := run_settled h
  obtain ⟨m, b, hafter⟩ := (Pool.run_conforms (semantics env) (loadBlobSource file)
    labels).outcome_spec (handler_spec env) ht hout transferId header s hrequest rfl
  have hsub := eventsOf_subset (run env file labels).trace i
  have hstored := hsettled.stored (hsub hafter.metadata_read) (hsub hafter.bytes_read)
  obtain ⟨hsize, hfits⟩ := hsettled.sized _ _ _ hstored
  obtain ⟨rfl, hlength⟩ := served_eq_ok hafter.response
  refine ⟨by rw [hlength, hsize, toString_ofNat hfits], ?_⟩
  have hscanned : ∃ m b, ScannedClean ((run env file labels).trace.map Entry.event) transferId m b := by
    rcases hafter.scanned hscanner with hcached | ⟨b, hscanned⟩
    · exact scannedClean_of_cached h (hsub hcached)
    · exact ⟨m, b, hscanned.mono hsub⟩
  obtain ⟨m', b', hm', hb', verdict, hclean, hscan⟩ := hscanned
  -- What was scanned and what was served are both what the store still holds.
  have hstored' := hsettled.stored hm' hb'
  rw [hstored] at hstored'
  cases hstored'
  obtain ⟨e, he, hevent⟩ := List.mem_map.mp hscan
  exact ⟨m, verdict, hafter.response, hclean, e, he, hevent⟩

namespace Sample

/-- What the admin endpoint is sent for the transfer. -/
def upload (body : Payload) : Request :=
  .adminInsertBlob
    { transferId := "tx_abc123"
      mime := some "text/plain"
      filename := some "f.txt"
      token := some (intoBytes "token")
      body := body }

def hello : Payload := ⟨intoBytes "hello", by decide⟩

def eicar : Payload :=
  ⟨intoBytes ("X5O!P%@AP[4\\PZX54(P^)7CC)7\x7d$" ++ "EICAR-STANDARD-ANTIVIRUS-TEST-FILE!$H+H*"),
    by decide +kernel⟩

def fetch (t : Ticket) : Request := .getBlob "tx_abc123" (some (intoBytes (ticketJson t)))

/-- A blob is stored and fetched. -/
def scanned : List Label := .environment time :: call 0 (upload hello) 1 ++ call 1 (fetch first) 8

/-- Then another one is stored under the same id, and fetched. -/
def replaced : List Label := scanned ++ call 2 (upload eicar) 1 ++ call 3 (fetch second) 5

def scannedBytes (e : Entry effects State Request) : Option Bytes :=
  match e.event.op with
  | .scan input => some input.bytes
  | _ => none

end Sample

theorem scanSound_of_storesUnread_scanned :
    (run Sample.env none Sample.scanned).outcome 1 =
      some (.ok (.served ⟨"text/plain", "5", "attachment; filename=\"f.txt\"",
        Sample.hello.bytes⟩)) ∧
    ScanSound Sample.env (run Sample.env none Sample.scanned) := by
  have hrun : Pool.AlongTo (semantics Sample.env) StoresUnread
      (fun w => w.outcome 1 = some (.ok (.served ⟨"text/plain", "5",
        "attachment; filename=\"f.txt\"", Sample.hello.bytes⟩)))
      ⟨loadBlobSource none, [], []⟩ Sample.scanned := by
    rw [Sample.env_eq]
    decide +kernel
  obtain ⟨halong, hserved⟩ := hrun.along
  exact ⟨hserved, scanSound_of_storesUnread Sample.env rfl none Sample.scanned halong⟩

/-- The second blob is served on the verdict of the first. -/
theorem replaced_unscanned : ¬ScanSound Sample.env (run Sample.env none Sample.replaced) := by
  have hrun : (run Sample.env none Sample.replaced).outcome 3 =
      some (.ok (.served ⟨"text/plain", "68", "attachment; filename=\"f.txt\"",
        Sample.eicar.bytes⟩)) ∧
      (run Sample.env none Sample.replaced).trace.filterMap Sample.scannedBytes =
        [Sample.hello.bytes] := by
    rw [Sample.env_eq]
    decide +kernel
  obtain ⟨hserved, hscans⟩ := hrun
  intro h
  have ht : ((run Sample.env none Sample.replaced).tasks.map Task.request)[3]? =
      some (Sample.fetch Sample.second) := by
    rw [run, Pool.run_requests]
    rfl
  rw [List.getElem?_map] at ht
  obtain ⟨t, ht, hrequest⟩ := Option.map_eq_some_iff.mp ht
  obtain ⟨-, metadata, verdict, -, -, e, he, hevent⟩ := h 3 t _ _ _ ht hrequest hserved
  have hmem : Sample.eicar.bytes ∈
      (run Sample.env none Sample.replaced).trace.filterMap Sample.scannedBytes :=
    List.mem_filterMap.mpr ⟨e, he, by simp only [Sample.scannedBytes, hevent]⟩
  rw [hscans] at hmem
  exact absurd hmem (by decide +kernel)

end AgentExchange.DataPlane
