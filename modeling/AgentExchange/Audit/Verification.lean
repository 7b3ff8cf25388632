import AgentExchange.Audit.FileWrites

/-!
# Verifying while appending

`verify_chain` reads the file without the lock and compares what it found with the
cached head and length, which it reads under the lock. Appends may run in between,
and the file may hold a part of a line when it is read.
-/
namespace AgentExchange.Audit

open Library

/-- Where a call of `verify_chain` stands. -/
inductive VerifyCall where
  | started
  /-- the file was read and replayed; the lock is not taken yet -/
  | replayed (seen : Bytes) (head : String) (len : ℕ)
  | returned (result : Except AuditError Unit)
  deriving DecidableEq

/-- One log and the calls of `verify_chain` on it. -/
structure VerifyState where
  log : FileState := {}
  calls : List VerifyCall := []

/-- A step of an append, or of a call of `verify_chain`. -/
inductive VerifyStep where
  | append (call : AppendCall)
  | write (n : ℕ)
  | finish
  | verify
  | read (i : ℕ)
  | compare (i : ℕ)

variable (P : Primitives) (codec : LineCodec)

/-- The comparison of `verify_chain` under the lock. -/
def VerifyState.comparison (s : VerifyState) (head : String) (len : ℕ) : Except AuditError Unit :=
  if head ≠ s.log.head ∨ len ≠ s.log.len then .error (.chainBroken len s.log.head head)
  else .ok ()

def VerifyState.next (s : VerifyState) : VerifyStep → VerifyState
  | .append call => { s with log := s.log.next P codec (.append call) }
  | .write n => { s with log := s.log.next P codec (.write n) }
  | .finish => { s with log := s.log.next P codec .finish }
  | .verify => { s with calls := s.calls ++ [.started] }
  | .read i =>
    match s.calls[i]? with
    | some .started =>
      match replayBytes P codec s.log.file with
      | .ok (head, len) => { s with calls := s.calls.set i (.replayed s.log.file head len) }
      | .error e => { s with calls := s.calls.set i (.returned (.error e)) }
    | _ => s
  | .compare i =>
    match s.calls[i]? with
    | some (.replayed _ head len) =>
      if s.log.writer.isNone then
        { s with calls := s.calls.set i (.returned (s.comparison head len)) }
      else s
    | _ => s

/-- No call has reported that the file was tampered with. -/
def VerifyState.NoAlarm (s : VerifyState) : Prop :=
  ∀ e, .returned (.error e) ∉ s.calls

variable {P codec}

theorem VerifyState.next_read {s : VerifyState} {i : ℕ} {head : String} {len : ℕ}
    (hcall : s.calls[i]? = some .started)
    (hreplay : replayBytes P codec s.log.file = .ok (head, len)) :
    s.next P codec (.read i) =
      { s with calls := s.calls.set i (.replayed s.log.file head len) } := by
  rw [VerifyState.next, hcall, hreplay]

def VerifyStep.Serialised (P : Primitives) (codec : LineCodec) (s : VerifyState) :
    VerifyStep → Prop
  | .append call => (FileStep.append call).Serialised P codec s.log
  | _ => True

/-- The file is read while no line is partly out (only its line feed may be missing), and the
comparison finds the file as it was read. -/
def VerifyStep.Undisturbed (codec : LineCodec) (s : VerifyState) : VerifyStep → Prop
  | .read i => s.calls[i]? = some .started → ∀ w ∈ s.log.writer,
      w.rest.length = (lineBytes codec w.stored).length ∨ w.rest.length ≤ 1
  | .compare i => ∀ seen head len, s.calls[i]? = some (.replayed seen head len) →
      s.log.writer = none → s.log.file = seen ∨ s.log.file = seen ++ [10]
  | _ => True

/-- A call that read the file found the events `es`. -/
def Found (P : Primitives) (codec : LineCodec) (log : FileState) (es : List StoredEvent)
    (seen : Bytes) (head : String) (len : ℕ) : Prop :=
  head = (auditChain P).head genesisHead es ∧ len = es.length ∧
    (seen = writtenBytes codec es ∨ seen ++ [10] = writtenBytes codec es) ∧
    (es <+: log.returned ∨ ∃ w, log.writer = some w ∧ es = log.returned ++ [w.stored])

structure VerifyState.Sound (P : Primitives) (codec : LineCodec) (s : VerifyState) : Prop where
  log : s.log.Sound P codec
  calls : ∀ seen head len, .replayed seen head len ∈ s.calls →
    ∃ es, Found P codec s.log es seen head len
  quiet : s.NoAlarm

/-- Steps of an append keep what the calls have found. -/
theorem Found.next {log : FileState} {es : List StoredEvent} {seen : Bytes} {head : String}
    {len : ℕ} {l : FileStep} (h : Found P codec log es seen head len)
    (hl : (∃ call, l = .append call) ∨ (∃ n, l = .write n) ∨ l = .finish) :
    Found P codec (log.next P codec l) es seen head len := by
  obtain ⟨hhead, hlen, hseen, hes⟩ := h
  refine ⟨hhead, hlen, hseen, ?_⟩
  rcases hl with ⟨call, rfl⟩ | ⟨n, rfl⟩ | rfl
  · rw [FileState.next]
    split_ifs with hfree
    · rw [Bool.and_eq_true, Option.isNone_iff_eq_none] at hfree
      have hprefix : es <+: log.returned := by
        rcases hes with hes | ⟨w, hw, -⟩
        · exact hes
        · rw [hfree.2] at hw
          cases hw
      split <;> exact .inl hprefix
    · exact hes
  · rw [FileState.next]
    split
    · rename_i w hw
      rcases hes with hes | ⟨w', hw', hes⟩
      · exact .inl hes
      · rw [hw] at hw'
        cases hw'
        exact .inr ⟨_, rfl, hes⟩
    · exact hes
  · rw [FileState.next]
    split
    · rename_i e hw
      rcases hes with hes | ⟨w', hw', hes⟩
      · exact .inl (hes.trans (List.prefix_append _ _))
      · rw [hw] at hw'
        cases hw'
        exact .inl (by rw [hes])
    · exact hes

/-- Reading between the lines finds whole events. -/
theorem FileState.Sound.read {log : FileState} (h : log.Sound P codec)
    (hwhole : ∀ w ∈ log.writer,
      w.rest.length = (lineBytes codec w.stored).length ∨ w.rest.length ≤ 1) :
    ∃ es head len, replayBytes P codec log.file = .ok (head, len) ∧
      Found P codec log es log.file head len := by
  have hreturned : log.file = writtenBytes codec log.returned →
      ∃ es head len, replayBytes P codec log.file = .ok (head, len) ∧
        Found P codec log es log.file head len := by
    intro hfile
    refine ⟨log.returned, _, _, ?_, rfl, rfl, .inl hfile, .inl (List.prefix_refl _)⟩
    rw [hfile]
    exact replayBytes_written h.keeps h.linked
  cases hw : log.writer with
  | none => exact hreturned (h.quiet hw)
  | some w =>
    obtain ⟨⟨part, hpart, hfile⟩, hprev, hchecked, hkeeps, -⟩ := h.writing w hw
    have hlen := congrArg List.length hpart
    rw [List.length_append] at hlen
    have hsize : (lineBytes codec w.stored).length =
        (intoBytes (codec.toLine w.stored)).length + 1 := by
      simp [lineBytes]
    rcases part_cases hpart with hnil | ⟨hne, more, hmore, hcut⟩ | hall
    · exact hreturned (by rw [hfile, hnil, List.append_nil])
    · -- a line cut off inside its text was excluded
      have hcutLen := congrArg List.length hcut
      rw [List.length_append] at hcutLen
      have := List.length_pos_of_ne_nil hne
      have := List.length_pos_of_ne_nil hmore
      rcases hwhole w hw with hall | hone <;> omega
    · refine ⟨log.returned ++ [w.stored], w.stored.thisHash, log.returned.length + 1, ?_, ?_, ?_, ?_,
        .inr ⟨w, hw, rfl⟩⟩
      · rw [replayBytes, hfile, replayLines_written h.keeps h.linked, Nat.zero_add]
        exact replayLines_whole hkeeps (hprev.trans h.head) hchecked hall
      · rw [ChainFormat.head_append_singleton]
        rfl
      · rw [List.length_append]
        rfl
      · rw [hfile, writtenBytes_snoc]
        rcases hall with rfl | rfl
        · exact .inr (List.append_assoc _ _ _)
        · exact .inl rfl

/-- Reading inside a line is an error. -/
theorem FileState.Sound.read_cut {log : FileState} (h : log.Sound P codec) {w : Writing}
    (hw : log.writer = some w) (hsome : w.rest.length ≠ (lineBytes codec w.stored).length)
    (hmany : ¬w.rest.length ≤ 1) : ∃ err, replayBytes P codec log.file = .error err := by
  obtain ⟨⟨part, hpart, hfile⟩, -, -, hkeeps, htruncates⟩ := h.writing w hw
  have hlen := congrArg List.length hpart
  rw [List.length_append] at hlen
  have hsize : (lineBytes codec w.stored).length =
      (intoBytes (codec.toLine w.stored)).length + 1 := by
    simp [lineBytes]
  rcases part_cases hpart with rfl | ⟨hne, more, hmore, hcut⟩ | rfl | rfl
  · exact (hsome (by simpa using hlen)).elim
  · rw [replayBytes, hfile, replayLines_written h.keeps h.linked]
    exact replayLines_cut hkeeps htruncates hcut hne hmore
  · omega
  · omega

/-- Under the lock the comparison succeeds exactly when nothing was written since the read. -/
theorem Found.comparison {s : VerifyState} {es : List StoredEvent} {seen : Bytes} {head : String}
    {len : ℕ} (h : Found P codec s.log es seen head len) (hlog : s.log.Sound P codec)
    (hfree : s.log.writer = none) :
    s.comparison head len = .ok () ↔ s.log.file = seen ∨ s.log.file = seen ++ [10] := by
  obtain ⟨hhead, hlen, hseen, hes⟩ := h
  obtain ⟨later, hlater⟩ : es <+: s.log.returned := by
    rcases hes with hes | ⟨w, hw, -⟩
    · exact hes
    · rw [hfree] at hw
      cases hw
  have hfile : s.log.file = writtenBytes codec es ++ writtenBytes codec later := by
    rw [hlog.quiet hfree, ← hlater, writtenBytes, List.flatMap_append]
    rfl
  have hcompare : s.comparison head len = .ok () ↔ later = [] := by
    rw [VerifyState.comparison, hlog.head, hlog.len, hhead, hlen, ← hlater, List.length_append]
    constructor
    · intro hok
      split_ifs at hok with hdiff
      push Not at hdiff
      exact List.eq_nil_of_length_eq_zero (by omega)
    · rintro rfl
      simp
  rw [hcompare]
  constructor
  · rintro rfl
    rw [hfile]
    rcases hseen with hseen | hseen
    · exact .inl (by rw [hseen]; exact List.append_nil _)
    · exact .inr (by rw [hseen]; exact List.append_nil _)
  · intro hsame
    -- a further event takes more than one byte
    cases later with
    | nil => rfl
    | cons d later =>
      have hd : codec.Keeps d := hlog.keeps d (by rw [← hlater]; simp)
      obtain ⟨body, hbody⟩ := hd.bytes
      have hline : 2 ≤ (writtenBytes codec (d :: later)).length := by
        simp only [writtenBytes, List.flatMap_cons, lineBytes, hbody, List.length_append,
          List.length_cons]
        omega
      have hbound : s.log.file.length ≤ seen.length + 1 := by
        rcases hsame with hsame | hsame <;> rw [hsame]
        · omega
        · simp
      have hseenLen : seen.length ≤ (writtenBytes codec es).length := by
        rcases hseen with hseen | hseen
        · rw [hseen]
        · rw [← hseen]
          simp
      rw [hfile, List.length_append] at hbound
      omega

theorem VerifyState.Sound.append {s : VerifyState} {l : FileStep} (h : s.Sound P codec)
    (hl : (∃ call, l = .append call) ∨ (∃ n, l = .write n) ∨ l = .finish)
    (hserialised : l.Serialised P codec s.log) :
    VerifyState.Sound P codec { s with log := s.log.next P codec l } := by
  refine ⟨h.log.next hserialised ?_, fun seen head len hcall => ?_, h.quiet⟩
  · rcases hl with ⟨call, rfl⟩ | ⟨n, rfl⟩ | rfl <;> trivial
  · obtain ⟨es, hes⟩ := h.calls seen head len hcall
    exact ⟨es, hes.next hl⟩

theorem VerifyState.Sound.next {s : VerifyState} {l : VerifyStep} (h : s.Sound P codec)
    (hserialised : l.Serialised P codec s) (hundisturbed : l.Undisturbed codec s) :
    (s.next P codec l).Sound P codec := by
  cases l with
  | append call => exact h.append (.inl ⟨call, rfl⟩) hserialised
  | write n => exact h.append (.inr (.inl ⟨n, rfl⟩)) trivial
  | finish => exact h.append (.inr (.inr rfl)) trivial
  | verify =>
    refine ⟨h.log, fun seen head len hcall => ?_, fun e he => ?_⟩
    · rcases List.mem_append.mp hcall with hcall | hcall
      · exact h.calls seen head len hcall
      · cases List.mem_singleton.mp hcall
    · rcases List.mem_append.mp he with he | he
      · exact h.quiet e he
      · cases List.mem_singleton.mp he
  | read i =>
    rw [VerifyState.next]
    split
    · rename_i hcall
      obtain ⟨es, head, len, hreplay, hfound⟩ := h.log.read (hundisturbed hcall)
      rw [hreplay]
      refine ⟨h.log, fun seen' head' len' hmem => ?_, fun e he => ?_⟩
      · rcases List.mem_or_eq_of_mem_set hmem with hmem | heq
        · exact h.calls seen' head' len' hmem
        · cases heq
          exact ⟨es, hfound⟩
      · rcases List.mem_or_eq_of_mem_set he with he | heq
        · exact h.quiet e he
        · cases heq
    · exact h
  | compare i =>
    rw [VerifyState.next]
    split
    · rename_i seen head len hcall
      split_ifs with hfree
      · rw [Option.isNone_iff_eq_none] at hfree
        obtain ⟨es, hes⟩ := h.calls seen head len (List.mem_of_getElem? hcall)
        have hok := (hes.comparison h.log hfree).mpr (hundisturbed seen head len hcall hfree)
        rw [hok]
        refine ⟨h.log, fun seen' head' len' hmem => ?_, fun e he => ?_⟩
        · rcases List.mem_or_eq_of_mem_set hmem with hmem | heq
          · exact h.calls seen' head' len' hmem
          · cases heq
        · rcases List.mem_or_eq_of_mem_set he with he | heq
          · exact h.quiet e he
          · cases heq
      · exact h
    · exact h

theorem VerifyState.alarm_of_set {s : VerifyState} {i : ℕ} {c : VerifyCall} {e : AuditError}
    (hcall : s.calls[i]? = some c) :
    ¬VerifyState.NoAlarm { s with calls := s.calls.set i (.returned (.error e)) } := by
  intro hquiet
  refine hquiet e (List.mem_iff_getElem?.mpr ⟨i, ?_⟩)
  obtain ⟨hi, -⟩ := List.getElem?_eq_some_iff.mp hcall
  exact List.getElem?_set_self hi

theorem VerifyState.Sound.alarm {s : VerifyState} {l : VerifyStep} (h : s.Sound P codec)
    (hdisturbed : ¬l.Undisturbed codec s) : ¬(s.next P codec l).NoAlarm := by
  cases l with
  | append call => exact (hdisturbed trivial).elim
  | write n => exact (hdisturbed trivial).elim
  | finish => exact (hdisturbed trivial).elim
  | verify => exact (hdisturbed trivial).elim
  | read i =>
    simp only [VerifyStep.Undisturbed, not_forall, not_or] at hdisturbed
    obtain ⟨hcall, w, hw, hsome, hmany⟩ := hdisturbed
    obtain ⟨err, herr⟩ := h.log.read_cut hw hsome hmany
    simp only [VerifyState.next, hcall, herr]
    exact alarm_of_set hcall
  | compare i =>
    simp only [VerifyStep.Undisturbed, not_forall] at hdisturbed
    obtain ⟨seen, head, len, hcall, hfree, hchanged⟩ := hdisturbed
    obtain ⟨es, hes⟩ := h.calls seen head len (List.mem_of_getElem? hcall)
    have hfail := mt (hes.comparison h.log hfree).mp hchanged
    obtain ⟨err, herr⟩ : ∃ err, s.comparison head len = .error err := by
      cases hout : s.comparison head len with
      | ok => exact (hfail hout).elim
      | error err => exact ⟨err, rfl⟩
    simp only [VerifyState.next, hcall, hfree, Option.isNone_none, if_true, herr]
    exact alarm_of_set hcall

/-- Along every interleaving of appends and calls of `verify_chain`, no call reports an error if
and only if each reads the file between lines and compares before anything more is written. -/
theorem no_false_alarm_iff (steps : List VerifyStep)
    (hserialised : Machine.Along (VerifyState.next P codec) (fun s l => l.Serialised P codec s) {}
      steps) :
    (∀ done, done <+: steps → (Machine.run (VerifyState.next P codec) {} done).NoAlarm) ↔
      Machine.Along (VerifyState.next P codec) (fun s l => l.Undisturbed codec s) {} steps := by
  refine Machine.everywhere_iff_along hserialised (I := VerifyState.Sound P codec) ?_
    (fun s hs => hs.quiet) (fun s l hs hl hundisturbed => hs.next hl hundisturbed)
    (fun s l hs _ hdisturbed => hs.alarm hdisturbed)
  refine ⟨⟨rfl, rfl, rfl, trivial, by simp, fun _ => rfl, fun w hnone => by cases hnone⟩, ?_, ?_⟩
  · simp
  · simp [VerifyState.NoAlarm]

/-- The log after the sample append. -/
def sampleLog : FileState where
  file := sampleBytes
  head := sampleHash
  len := 1
  returned := [sampleStored samplePayload "evt_1"]

theorem sampleLog_run (calls : List VerifyCall) :
    Machine.run (VerifyState.next samplePrimitives sampleCodec) ⟨{}, calls⟩
      [.append (sampleCall samplePayload "evt_1"), .write sampleBytes.length, .finish] =
      ⟨sampleLog, calls⟩ := by
  simp only [Machine.run_cons, Machine.run_nil, VerifyState.next]
  rw [sampleCall_next rfl rfl rfl rfl]
  simp only [FileState.next, List.take_length, List.drop_length]
  rfl

/-- An append runs between a call's read and its comparison. -/
def overtakenSteps : List VerifyStep :=
  [.verify, .read 0, .append (sampleCall samplePayload "evt_1"), .write sampleBytes.length, .finish,
    .compare 0]

/-- Nobody touched the file, and the call reports a broken chain. -/
theorem overtaken_verification_alarms :
    Machine.Along (VerifyState.next samplePrimitives sampleCodec)
        (fun s l => l.Serialised samplePrimitives sampleCodec s) {} overtakenSteps ∧
      (Machine.run (VerifyState.next samplePrimitives sampleCodec) {} overtakenSteps).calls =
        [.returned (.error (.chainBroken 0 sampleHash genesisHead))] := by
  refine ⟨⟨trivial, trivial, sampleCall_serialised rfl rfl, trivial, trivial, trivial, trivial⟩, ?_⟩
  have hread : Machine.run (VerifyState.next samplePrimitives sampleCodec) {}
      [.verify, .read 0] = ⟨{}, [.replayed [] genesisHead 0]⟩ := rfl
  have hsplit : overtakenSteps = [.verify, .read 0] ++
      ([.append (sampleCall samplePayload "evt_1"), .write sampleBytes.length, .finish] ++
        [.compare 0]) := rfl
  have hdiffer : genesisHead ≠ sampleHash := by decide
  rw [hsplit, Machine.run_append, hread, Machine.run_append, sampleLog_run]
  simp [VerifyState.next, VerifyState.comparison, sampleLog, hdiffer]

def orderlySteps : List VerifyStep :=
  [.append (sampleCall samplePayload "evt_1"), .write sampleBytes.length, .finish] ++
    [.verify, .read 0, .compare 0]

theorem orderlySteps_serialised :
    Machine.Along (VerifyState.next samplePrimitives sampleCodec)
      (fun s l => l.Serialised samplePrimitives sampleCodec s) {} orderlySteps :=
  ⟨sampleCall_serialised rfl rfl, trivial, trivial, trivial, trivial, trivial, trivial⟩

theorem orderlySteps_undisturbed :
    Machine.Along (VerifyState.next samplePrimitives sampleCodec)
      (fun s l => l.Undisturbed sampleCodec s) {} orderlySteps := by
  have hfile : sampleBytes = writtenBytes sampleCodec [sampleStored samplePayload "evt_1"] := by
    simp [sampleBytes, writtenBytes]
  have hhead : (auditChain samplePrimitives).head genesisHead
      [sampleStored samplePayload "evt_1"] = sampleHash := rfl
  have hreplay : replayBytes samplePrimitives sampleCodec sampleLog.file = .ok (sampleHash, 1) := by
    change replayBytes samplePrimitives sampleCodec sampleBytes = _
    rw [hfile, replayBytes_written (fun e he => ?_) sampleStored_linked, hhead,
      List.length_singleton]
    rw [List.mem_singleton.mp he]
    exact sampleCodec_keeps
  have hlater : Machine.Along (VerifyState.next samplePrimitives sampleCodec)
      (fun s l => l.Undisturbed sampleCodec s) ⟨sampleLog, []⟩ [.verify, .read 0, .compare 0] := by
    have hread : VerifyState.next samplePrimitives sampleCodec ⟨sampleLog, [.started]⟩ (.read 0) =
        ⟨sampleLog, [.replayed sampleBytes sampleHash 1]⟩ :=
      VerifyState.next_read rfl hreplay
    refine ⟨trivial, ?_, ?_, trivial⟩
    · rintro - w hw
      cases hw
    · change VerifyStep.Undisturbed sampleCodec (VerifyState.next samplePrimitives sampleCodec
        ⟨sampleLog, [.started]⟩ (.read 0)) (.compare 0)
      rw [hread]
      rintro seen head len hcall -
      cases hcall
      exact .inl rfl
  refine Machine.along_append.mpr ⟨⟨trivial, trivial, trivial, trivial⟩, ?_⟩
  rw [← sampleLog_run []] at hlater
  exact hlater

theorem no_false_alarm_iff_orderly :
    Machine.Along (VerifyState.next samplePrimitives sampleCodec)
        (fun s l => l.Serialised samplePrimitives sampleCodec s) {} orderlySteps ∧
      (Machine.run (VerifyState.next samplePrimitives sampleCodec) {} orderlySteps).NoAlarm :=
  ⟨orderlySteps_serialised, (no_false_alarm_iff orderlySteps orderlySteps_serialised).mpr
    orderlySteps_undisturbed orderlySteps (List.prefix_refl orderlySteps)⟩

end AgentExchange.Audit
