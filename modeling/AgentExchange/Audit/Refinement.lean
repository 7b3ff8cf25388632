import AgentExchange.Audit.Integrity

/-!
# The file log refines the memory log

The file holds one line per event and the log caches a head and a length, which
`open` rebuilds by replaying the lines. Along any run of appends and reopenings the
file is the text of the events a memory log keeps, so no caller can tell the two
logs apart.
-/
namespace AgentExchange.Audit

open Library

/-- What `serde_json` does with an event it writes: the text of an object on one line, which
reads back as the same event. -/
structure LineCodec.Keeps (codec : LineCodec) (e : StoredEvent) : Prop where
  roundtrip : codec.fromLine (codec.toLine e) = .ok e
  oneLine : '\n' ∉ (codec.toLine e).toList
  object : ∃ body, (codec.toLine e).toList = '\x7b' :: body ++ ['\x7d']

/-- A call on the log, or its process ending and opening the file again. -/
inductive LogCall where
  | append (call : AppendCall)
  | reopen

/-- What a caller can see after a call. -/
structure Observation where
  result : Except AuditError (Option EventReceipt)
  currentHead : String
  len : ℕ
  verifyChain : Except AuditError Unit

variable (P : Primitives) (codec : LineCodec)

def MemoryAuditLog.serve (log : MemoryAuditLog) :
    LogCall → Except AuditError (Option EventReceipt) × MemoryAuditLog
  | .append call =>
    match log.append P call with
    | .ok (receipt, log') => (.ok (some receipt), log')
    | .error e => (.error e, log)
  | .reopen => (.ok none, log)

def MemoryAuditLog.observations (log : MemoryAuditLog) : List LogCall → List Observation
  | [] => []
  | call :: calls =>
    let (result, log') := log.serve P call
    ⟨result, log'.currentHead, log'.len, log'.verifyChain P⟩ :: log'.observations calls

/-- The events a memory log holds after the calls. -/
def MemoryAuditLog.after (log : MemoryAuditLog) (calls : List LogCall) : MemoryAuditLog :=
  calls.foldl (fun log call => (log.serve P call).2) log

def FileAuditLog.serve (log : FileAuditLog) :
    LogCall → Except AuditError (Option EventReceipt) × FileAuditLog
  | .append call =>
    match log.append P codec call with
    | .ok (receipt, log') => (.ok (some receipt), log')
    | .error e => (.error e, log)
  | .reopen =>
    match openFile P codec log.file with
    | .ok log' => (.ok none, log')
    | .error e => (.error e, log)

def FileAuditLog.observations (log : FileAuditLog) : List LogCall → List Observation
  | [] => []
  | call :: calls =>
    let (result, log') := log.serve P codec call
    ⟨result, log'.currentHead, log'.len, log'.verifyChain P codec⟩ :: log'.observations calls

/-- The text of the file after the events were written. -/
def written (codec : LineCodec) : List StoredEvent → String
  | [] => ""
  | e :: es => codec.toLine e ++ "\n" ++ written codec es

variable {P codec}

theorem written_snoc (es : List StoredEvent) (e : StoredEvent) :
    written codec (es ++ [e]) = written codec es ++ codec.toLine e ++ "\n" := by
  induction es with
  | nil => simp [written]
  | cons d es ih => simp [written, ih, String.append_assoc]

theorem linesFrom_cons {acc rest : List Char} {c : Char} (h : c ≠ '\n') :
    linesFrom acc (c :: rest) = linesFrom (c :: acc) rest :=
  if_neg h

theorem linesFrom_newline {acc rest : List Char} {c : Char} (h : c ≠ '\r') :
    linesFrom (c :: acc) ('\n' :: rest) = (c :: acc).reverse :: linesFrom [] rest := by
  rw [linesFrom, if_pos rfl]
  intro acc' heq
  exact h (List.head_eq_of_cons_eq heq)

theorem linesFrom_append {acc cs rest : List Char} (h : '\n' ∉ cs) :
    linesFrom acc (cs ++ rest) = linesFrom (cs.reverse ++ acc) rest := by
  induction cs generalizing acc with
  | nil => rfl
  | cons c cs ih =>
    rw [List.mem_cons, not_or] at h
    rw [List.cons_append, linesFrom_cons (Ne.symm h.1), ih h.2, List.reverse_cons,
      List.append_assoc, List.singleton_append]

/-- A written line is read back whole, whatever follows. -/
theorem LineCodec.Keeps.linesFrom {e : StoredEvent} (h : codec.Keeps e) (rest : List Char) :
    linesFrom [] ((codec.toLine e).toList ++ '\n' :: rest) =
      (codec.toLine e).toList :: linesFrom [] rest := by
  obtain ⟨body, hbody⟩ := h.object
  have hrev : (codec.toLine e).toList.reverse = '\x7d' :: (body.reverse ++ ['\x7b']) := by
    rw [hbody]
    simp
  rw [linesFrom_append h.oneLine, List.append_nil, hrev, linesFrom_newline (by decide), ← hrev,
    List.reverse_reverse]

theorem LineCodec.Keeps.not_blank {e : StoredEvent} (h : codec.Keeps e) :
    isBlank (codec.toLine e) = false := by
  obtain ⟨body, hbody⟩ := h.object
  have hbrace : isWhitespace '\x7b' = false := by decide
  rw [isBlank, hbody, List.cons_append, List.all_cons, hbrace, Bool.false_and]

theorem lines_written {es : List StoredEvent} (h : ∀ e ∈ es, codec.Keeps e) :
    lines (written codec es) = es.map codec.toLine := by
  induction es with
  | nil => rfl
  | cons e es ih =>
    obtain ⟨he, hes⟩ := List.forall_mem_cons.mp h
    have hrest := ih hes
    rw [lines] at hrest ⊢
    have htext : (written codec (e :: es)).toList =
        (codec.toLine e).toList ++ '\n' :: (written codec es).toList := by
      simp [written]
    rw [htext, he.linesFrom, List.map_cons, hrest, String.ofList_toList, List.map_cons]

theorem storedEvents_toLine {es : List StoredEvent} (h : ∀ e ∈ es, codec.Keeps e) :
    storedEvents codec (es.map codec.toLine) = some es := by
  induction es with
  | nil => rfl
  | cons e es ih =>
    obtain ⟨he, hes⟩ := List.forall_mem_cons.mp h
    rw [List.map_cons, storedEvents, if_neg (by simp [he.not_blank]), he.roundtrip]
    simp [ih hes]

/-- The file log and the memory log after the same calls. -/
structure Mirrors (P : Primitives) (codec : LineCodec) (log : FileAuditLog)
    (mem : MemoryAuditLog) : Prop where
  file : log.file = written codec mem.events
  head : log.head = mem.currentHead
  len : log.len = mem.events.length
  linked : (auditChain P).Linked genesisHead mem.events

theorem Mirrors.verifyChain {log : FileAuditLog} {mem : MemoryAuditLog}
    (h : Mirrors P codec log mem) (hkeeps : ∀ e ∈ mem.events, codec.Keeps e) :
    log.verifyChain P codec = .ok () ∧ mem.verifyChain P = .ok () := by
  constructor
  · rw [FileAuditLog.verifyChain_eq_ok, h.file, lines_written hkeeps, h.head, h.len,
      MemoryAuditLog.currentHead_eq (P := P)]
    exact ⟨mem.events, storedEvents_toLine hkeeps, h.linked, rfl, rfl⟩
  · exact MemoryAuditLog.verifyFrom_eq_ok.mpr h.linked

/-- Replaying the file finds the head and the length the log had. -/
theorem Mirrors.openFile {log : FileAuditLog} {mem : MemoryAuditLog}
    (h : Mirrors P codec log mem) (hkeeps : ∀ e ∈ mem.events, codec.Keeps e) :
    FileAuditLog.openFile P codec log.file = .ok log := by
  have hreplay : FileAuditLog.replay P codec log.file = .ok (log.head, log.len) := by
    rw [FileAuditLog.replay, h.file, lines_written hkeeps, h.head, h.len,
      MemoryAuditLog.currentHead_eq (P := P)]
    exact FileAuditLog.replayFrom_eq_ok.mpr
      ⟨mem.events, storedEvents_toLine hkeeps, h.linked, rfl, by omega⟩
  rw [FileAuditLog.openFile, hreplay]
  rfl

/-- One call: the results agree and the logs still mirror each other. -/
theorem Mirrors.serve {log : FileAuditLog} {mem : MemoryAuditLog} (h : Mirrors P codec log mem)
    (call : LogCall) (hkeeps : ∀ e ∈ (mem.serve P call).2.events, codec.Keeps e) :
    (log.serve P codec call).1 = (mem.serve P call).1 ∧
      Mirrors P codec (log.serve P codec call).2 (mem.serve P call).2 := by
  cases call with
  | append call =>
    have hstored : call.stored P log.len log.head =
        call.stored P mem.events.length mem.currentHead := by
      rw [h.head, h.len]
    cases hout : call.stored P mem.events.length mem.currentHead with
    | error e =>
      have hfile : log.append P codec call = .error e := by
        rw [FileAuditLog.append, hstored, hout]
        rfl
      have hmem : mem.append P call = .error e := by
        rw [MemoryAuditLog.append, hout]
        rfl
      simp only [FileAuditLog.serve, MemoryAuditLog.serve, hfile, hmem]
      exact ⟨trivial, h⟩
    | ok e =>
      have hfile : log.append P codec call = .ok (.ofStored e,
          ⟨log.file ++ codec.toLine e ++ "\n", e.thisHash, log.len + 1⟩) := by
        rw [FileAuditLog.append, hstored, hout]
        rfl
      have hmem : mem.append P call = .ok (.ofStored e, ⟨mem.events ++ [e]⟩) := by
        rw [MemoryAuditLog.append, hout]
        rfl
      have hlinked := MemoryAuditLog.linked_append h.linked hmem
      simp only [FileAuditLog.serve, MemoryAuditLog.serve, hfile, hmem]
      refine ⟨trivial, ?_, ?_, ?_, hlinked⟩
      · simp only [h.file, written_snoc]
      · simp [MemoryAuditLog.currentHead]
      · simp [h.len]
  | reopen =>
    have hopen := h.openFile hkeeps
    simp only [FileAuditLog.serve, MemoryAuditLog.serve, hopen]
    exact ⟨trivial, h⟩

/-- Events are never lost. -/
theorem MemoryAuditLog.events_subset_serve (log : MemoryAuditLog) (call : LogCall) :
    log.events ⊆ (log.serve P call).2.events := by
  cases call with
  | append call =>
    cases hout : call.stored P log.events.length log.currentHead with
    | error e => simp [serve, append, hout, bind, Except.bind]
    | ok e => simp [serve, append, hout, bind, Except.bind, pure, Except.pure]
  | reopen => exact List.Subset.refl _

theorem MemoryAuditLog.events_subset_after (log : MemoryAuditLog) (calls : List LogCall) :
    log.events ⊆ (log.after P calls).events := by
  induction calls generalizing log with
  | nil => exact List.Subset.refl _
  | cons call calls ih =>
    exact List.Subset.trans (log.events_subset_serve call) (ih (log.serve P call).2)

theorem Mirrors.observations {log : FileAuditLog} {mem : MemoryAuditLog}
    (h : Mirrors P codec log mem) (calls : List LogCall)
    (hkeeps : ∀ e ∈ (mem.after P calls).events, codec.Keeps e) :
    log.observations P codec calls = mem.observations P calls ∧
      ∀ o ∈ mem.observations P calls, o.verifyChain = .ok () := by
  induction calls generalizing log mem with
  | nil => simp [FileAuditLog.observations, MemoryAuditLog.observations]
  | cons call calls ih =>
    have hnow : ∀ e ∈ (mem.serve P call).2.events, codec.Keeps e := fun e he =>
      hkeeps e (MemoryAuditLog.events_subset_after _ calls he)
    obtain ⟨hresult, hnext⟩ := h.serve call hnow
    obtain ⟨hfile, hmem⟩ := hnext.verifyChain hnow
    obtain ⟨hrest, hverified⟩ := ih hnext hkeeps
    simp only [FileAuditLog.observations, MemoryAuditLog.observations, FileAuditLog.currentHead,
      MemoryAuditLog.len, hresult, hnext.head, hnext.len, hfile, hmem, hrest, List.mem_cons,
      true_and]
    rintro o (rfl | ho)
    · rfl
    · exact hverified o ho

/-- Along every run of appends and reopenings the two logs give the same receipts and errors,
the same heads and lengths, reopening never fails and both chains verify. -/
theorem file_log_refines_memory_log (calls : List LogCall)
    (hkeeps : ∀ e ∈ (MemoryAuditLog.after P {} calls).events, codec.Keeps e) :
    FileAuditLog.observations P codec {} calls = MemoryAuditLog.observations P {} calls ∧
      ∀ o ∈ MemoryAuditLog.observations P {} calls, o.verifyChain = .ok () := by
  have hinit : Mirrors P codec {} {} := ⟨rfl, rfl, rfl, trivial⟩
  exact hinit.observations calls hkeeps

theorem exists_body {α : Type} {l : List α} {a b : α} (hhead : l.head? = some a)
    (hlast : l.getLast? = some b) (hne : a ≠ b) : ∃ body, l = a :: body ++ [b] := by
  obtain ⟨t, rfl⟩ := List.head?_eq_some_iff.mp hhead
  rcases List.eq_nil_or_concat' t with rfl | ⟨body, c, rfl⟩
  · exact absurd (by simpa using hlast) hne
  · rw [← List.cons_append, List.getLast?_concat, Option.some.injEq] at hlast
    exact ⟨body, by rw [hlast, List.cons_append]⟩

theorem sampleCodec_keeps : sampleCodec.Keeps (sampleStored samplePayload "evt_1") where
  roundtrip := by
    simp only [sampleCodec, sampleStored, if_true]
  oneLine := by
    change '\n' ∉ (sampleLine "evt_1").toList
    unfold sampleLine sampleHash genesisHead
    simp only [String.toList_append, List.mem_append, not_or]
    refine ⟨⟨⟨⟨⟨⟨⟨⟨?_, ?_⟩, ?_⟩, ?_⟩, ?_⟩, ?_⟩, ?_⟩, ?_⟩, ?_⟩ <;> simp
  object := by
    change ∃ body, (sampleLine "evt_1").toList = _
    unfold sampleLine
    simp only [String.toList_append]
    refine exists_body ?_ ?_ (by decide)
    · simp only [List.append_assoc]
      rfl
    · rw [List.getLast?_append]
      rfl

/-- An append, an event whose payload is no object, and a restart. -/
def sampleCalls : List LogCall :=
  [.append (sampleCall samplePayload "evt_1"),
    .append ⟨⟨.transferRejected, "spize:acme/alice:aabbcc", "tx_1", .null⟩, ⟨0, 0⟩, "evt_2"⟩,
    .reopen]

theorem sampleCall_stored : (sampleCall samplePayload "evt_1").stored samplePrimitives 0
    genesisHead = .ok (sampleStored samplePayload "evt_1") := by
  have hhash := sampleCall_hash
  rw [AppendCall.stored]
  change ((sampleCall samplePayload "evt_1").event.computeHash samplePrimitives ⟨0, 0⟩
    genesisHead >>= _) = _
  rw [hhash]
  rfl

theorem sampleCalls_after : MemoryAuditLog.after samplePrimitives {} sampleCalls =
    ⟨[sampleStored samplePayload "evt_1"]⟩ := by
  have hfirst : MemoryAuditLog.append samplePrimitives {} (sampleCall samplePayload "evt_1") =
      .ok (⟨"evt_1", 0, ⟨0, 0⟩, sampleHash⟩, ⟨[sampleStored samplePayload "evt_1"]⟩) := by
    rw [MemoryAuditLog.append]
    change ((sampleCall samplePayload "evt_1").stored samplePrimitives 0 genesisHead >>= _) = _
    rw [sampleCall_stored]
    rfl
  simp only [MemoryAuditLog.after, sampleCalls, List.foldl_cons, List.foldl_nil,
    MemoryAuditLog.serve, hfirst]
  rfl

theorem file_log_refines_memory_log_sample :
    FileAuditLog.observations samplePrimitives sampleCodec {} sampleCalls =
        MemoryAuditLog.observations samplePrimitives {} sampleCalls ∧
      ∀ o ∈ MemoryAuditLog.observations samplePrimitives {} sampleCalls,
        o.verifyChain = .ok () := by
  refine file_log_refines_memory_log sampleCalls ?_
  rw [sampleCalls_after]
  intro e he
  rw [List.mem_singleton.mp he]
  exact sampleCodec_keeps

end AgentExchange.Audit
