import AgentExchange.Audit.FileWrites

/-!
# Anchoring chain heads

`RekorAnchoredAuditLog` reads the head and the length of its inner log in two calls,
each of which takes the log's lock, and submits the pair. Appends may complete
between the two.
-/
namespace AgentExchange.Audit

open Library

/-- An audit log whose appends run in steps of their own. `currentHead` and `len` give nothing
while an append holds the lock; `events` are those whose append has returned. -/
structure ChainLog (P : Primitives) (σ ι : Type) where
  init : σ
  next : σ → ι → σ
  currentHead : σ → Option (Except AuditError String)
  len : σ → Option (Except AuditError ℕ)
  events : σ → List StoredEvent
  Holds : σ → Prop
  init_holds : Holds init
  next_holds : ∀ s l, Holds s → Holds (next s l)
  events_next : ∀ s l, Holds s → events s <+: events (next s l)
  linked : ∀ s, Holds s → (auditChain P).Linked genesisHead (events s)
  head_eq : ∀ s r, Holds s → currentHead s = some r →
    r = .ok ((auditChain P).head genesisHead (events s))
  len_eq : ∀ s r, Holds s → len s = some r → r = .ok (events s).length

/-- Who asked for a submission: `submit_now`, or a tick of the background loop. -/
inductive Origin where
  | submitNow
  | tick
  deriving DecidableEq

/-- A submission under way. `count` is the number of events when the head was read. -/
inductive Submission where
  | started (origin : Origin)
  | hasHead (origin : Origin) (head : String) (count : ℕ)
  | ended
  deriving DecidableEq

/-- The log, the submissions on it and the pairs handed to the `RekorSubmitter`. -/
structure AnchorState (σ : Type) where
  log : σ
  submissions : List Submission := []
  submitted : List (String × ℕ) := []

inductive AnchorStep (ι : Type) where
  | log (step : ι)
  | submit (origin : Origin)
  | readHead (i : ℕ)
  | readLen (i : ℕ)

section System

variable {P : Primitives} {σ ι : Type} (L : ChainLog P σ ι)

def AnchorState.next (s : AnchorState σ) : AnchorStep ι → AnchorState σ
  | .log step => { s with log := L.next s.log step }
  | .submit origin => { s with submissions := s.submissions ++ [.started origin] }
  | .readHead i =>
    match s.submissions[i]?, L.currentHead s.log with
    | some (.started origin), some (.ok head) =>
      { s with submissions := s.submissions.set i (.hasHead origin head (L.events s.log).length) }
    | some (.started _), some (.error _) =>
      -- the tick is skipped, `submit_now` returns the error
      { s with submissions := s.submissions.set i .ended }
    | _, _ => s
  | .readLen i =>
    match s.submissions[i]?, L.len s.log with
    | some (.hasHead _ head _), some (.ok len) =>
      { s with submissions := s.submissions.set i .ended, submitted := s.submitted ++ [(head, len)] }
    | some (.hasHead .tick head _), some (.error _) =>
      -- `unwrap_or(0)`
      { s with submissions := s.submissions.set i .ended, submitted := s.submitted ++ [(head, 0)] }
    | some (.hasHead .submitNow _ _), some (.error _) =>
      { s with submissions := s.submissions.set i .ended }
    | _, _ => s

/-- Replaying the first `position` events recomputes every anchored head. -/
def AnchorState.Real (s : AnchorState σ) : Prop :=
  ∀ head position, (head, position) ∈ s.submitted → position ≤ (L.events s.log).length ∧
    (auditChain P).head genesisHead ((L.events s.log).take position) = head

/-- The length is read with as many events in the log as when the head was. -/
def AnchorStep.Uninterrupted (s : AnchorState σ) : AnchorStep ι → Prop
  | .readLen i => ∀ origin head count, s.submissions[i]? = some (.hasHead origin head count) →
      (L.len s.log).isSome → (L.events s.log).length = count
  | _ => True

structure AnchorState.Sound (s : AnchorState σ) : Prop where
  log : L.Holds s.log
  heads : ∀ origin head count, .hasHead origin head count ∈ s.submissions →
    count ≤ (L.events s.log).length ∧
      (auditChain P).head genesisHead ((L.events s.log).take count) = head
  real : s.Real L

variable {L}

/-- A head read earlier is still the head of that many events. -/
theorem head_take_of_prefix {es es' : List StoredEvent} {n : ℕ} {head : String}
    (h : es <+: es') (hn : n ≤ es.length ∧ (auditChain P).head genesisHead (es.take n) = head) :
    n ≤ es'.length ∧ (auditChain P).head genesisHead (es'.take n) = head := by
  obtain ⟨rest, rfl⟩ := h
  rw [List.length_append, List.take_append_of_le_length hn.1]
  exact ⟨by omega, hn.2⟩

theorem AnchorState.Sound.next {s : AnchorState σ} {l : AnchorStep ι} (h : s.Sound L)
    (hl : l.Uninterrupted L s) : (s.next L l).Sound L := by
  cases l with
  | log step =>
    have hgrows := L.events_next s.log step h.log
    exact ⟨L.next_holds _ _ h.log,
      fun origin head count hmem => head_take_of_prefix hgrows (h.heads origin head count hmem),
      fun head position hmem => head_take_of_prefix hgrows (h.real head position hmem)⟩
  | submit origin =>
    refine { h with heads := fun origin' head count hmem => ?_ }
    rcases List.mem_append.mp hmem with hmem | hmem
    · exact h.heads origin' head count hmem
    · cases List.mem_singleton.mp hmem
  | readHead i =>
    rw [AnchorState.next]
    split
    · rename_i origin head hcall hhead
      have heq := L.head_eq s.log _ h.log hhead
      refine { h with heads := fun origin' head' count hmem => ?_ }
      rcases List.mem_or_eq_of_mem_set hmem with hmem | hmem
      · exact h.heads origin' head' count hmem
      · cases hmem
        cases heq
        exact ⟨le_refl _, by rw [List.take_length]⟩
    · rename_i hhead
      cases L.head_eq s.log _ h.log hhead
    · exact h
  | readLen i =>
    have hlater : ∀ {origin head count}, .hasHead origin head count ∈ s.submissions.set i .ended →
        count ≤ (L.events s.log).length ∧
          (auditChain P).head genesisHead ((L.events s.log).take count) = head := by
      intro origin head count hmem
      rcases List.mem_or_eq_of_mem_set hmem with hmem | hmem
      · exact h.heads origin head count hmem
      · cases hmem
    rw [AnchorState.next]
    split
    · rename_i origin head count len hcall hlen
      have hcount := hl origin head count hcall (by rw [hlen]; rfl)
      cases L.len_eq s.log _ h.log hlen
      have hhead := h.heads origin head count (List.mem_of_getElem? hcall)
      refine ⟨h.log, fun _ _ _ hmem => hlater hmem, fun head' position hmem => ?_⟩
      rcases List.mem_append.mp hmem with hmem | hmem
      · exact h.real head' position hmem
      · cases List.mem_singleton.mp hmem
        change (L.events s.log).length ≤ (L.events s.log).length ∧
          (auditChain P).head genesisHead
            ((L.events s.log).take (L.events s.log).length) = head
        rw [hcount]
        exact ⟨le_refl _, hhead.2⟩
    · rename_i hlen
      cases L.len_eq s.log _ h.log hlen
    · rename_i hlen
      cases L.len_eq s.log _ h.log hlen
    · exact h

/-- A pair torn by an append is no head of the chain. -/
theorem AnchorState.Sound.torn {s : AnchorState σ} {l : AnchorStep ι} (h : s.Sound L)
    (hsha : Function.Injective P.sha256)
    (hgenesis : ∀ bytes, hexEncode (P.sha256 bytes) ≠ genesisHead)
    (hl : ¬l.Uninterrupted L s) : ¬(s.next L l).Real L := by
  cases l with
  | log step => exact (hl trivial).elim
  | submit origin => exact (hl trivial).elim
  | readHead i => exact (hl trivial).elim
  | readLen i =>
    simp only [AnchorStep.Uninterrupted, not_forall] at hl
    obtain ⟨origin, head, count, hcall, hfree, hcount⟩ := hl
    obtain ⟨r, hlen⟩ := Option.isSome_iff_exists.mp hfree
    obtain rfl := L.len_eq s.log _ h.log hlen
    obtain ⟨hle, hhead⟩ := h.heads origin head count (List.mem_of_getElem? hcall)
    intro hreal
    have hpair : (head, (L.events s.log).length) ∈ (s.next L (.readLen i)).submitted := by
      simp only [AnchorState.next, hcall, hlen]
      exact List.mem_append_right _ (List.mem_singleton_self _)
    have hlog : (s.next L (.readLen i)).log = s.log := by
      simp only [AnchorState.next, hcall, hlen]
    obtain ⟨-, hsame⟩ := hreal _ _ hpair
    rw [hlog, List.take_length] at hsame
    have hlinked := L.linked s.log h.log
    have hearlier : (auditChain P).Linked genesisHead ((L.events s.log).take count) :=
      hlinked.take count
    have hlength := hearlier.length_eq (auditChain_binding hsha)
      (fun _ => checked_ne_genesis hgenesis) hlinked (hhead.trans hsame.symm)
    rw [List.length_take] at hlength
    omega

/-- Over any such log, the runs whose anchored pairs are all real are those in which no append
returns between a submission's two reads. -/
theorem anchored_iff (hsha : Function.Injective P.sha256)
    (hgenesis : ∀ bytes, hexEncode (P.sha256 bytes) ≠ genesisHead) (steps : List (AnchorStep ι)) :
    (∀ done, done <+: steps → (Machine.run (AnchorState.next L) ⟨L.init, [], []⟩ done).Real L) ↔
      Machine.Along (AnchorState.next L) (fun s l => l.Uninterrupted L s) ⟨L.init, [], []⟩
        steps := by
  have hfree : Machine.Along (AnchorState.next L) (fun _ _ => True) ⟨L.init, [], []⟩ steps :=
    Machine.along_true _ _
  refine Machine.everywhere_iff_along hfree (I := AnchorState.Sound L) ?_ (fun s hs => hs.real)
    (fun s l hs _ hl => hs.next hl) (fun s l hs _ hl => hs.torn hsha hgenesis hl)
  exact ⟨L.init_holds, by simp, by simp [AnchorState.Real]⟩

end System

/-- `MemoryAuditLog`: an append is one critical section. -/
def memoryLog (P : Primitives) : ChainLog P MemoryAuditLog AppendCall where
  init := {}
  next := MemoryAuditLog.appendOrKeep P
  currentHead log := some (.ok log.currentHead)
  len log := some (.ok log.len)
  events log := log.events
  Holds log := (auditChain P).Linked genesisHead log.events
  init_holds := trivial
  next_holds _ call h := MemoryAuditLog.linked_appendOrKeep call h
  events_next log call _ := by
    unfold MemoryAuditLog.appendOrKeep
    split
    · rename_i r log' happend
      rw [MemoryAuditLog.append, except_bind_eq_ok] at happend
      obtain ⟨stored, -, hout⟩ := happend
      cases hout
      exact List.prefix_append _ _
    · exact List.prefix_refl _
  linked _ h := h
  head_eq log r _ hr := by
    cases hr
    rw [MemoryAuditLog.currentHead_eq (P := P)]
  len_eq log r _ hr := by
    cases hr
    rfl

/-- The steps of an append to the file log. -/
inductive AppendStep where
  | append (call : AppendCall)
  | write (n : ℕ)
  | finish
  | abandon

def AppendStep.fileStep : AppendStep → FileStep
  | .append call => .append call
  | .write n => .write n
  | .finish => .finish
  | .abandon => .abandon

/-- The cached head and length are those of the events whose append returned. -/
structure FileState.Cached (P : Primitives) (s : FileState) : Prop where
  head : s.head = (auditChain P).head genesisHead s.returned
  len : s.len = s.returned.length
  linked : (auditChain P).Linked genesisHead s.returned
  writing : ∀ w, s.writer = some w →
    w.stored.prevHash = s.head ∧ (auditChain P).Checked w.stored

theorem FileState.Cached.next {P : Primitives} {codec : LineCodec} {s : FileState}
    (h : s.Cached P) (l : AppendStep) :
    (s.next P codec l.fileStep).Cached P ∧
      s.returned <+: (s.next P codec l.fileStep).returned := by
  cases l with
  | append call =>
    rw [AppendStep.fileStep, FileState.next]
    split_ifs
    · split
      · rename_i e hstored
        obtain ⟨hchecked, hprev⟩ := AppendCall.stored_eq_ok hstored
        refine ⟨{ h with writing := ?_ }, List.prefix_refl _⟩
        rintro w hw
        cases hw
        exact ⟨hprev, hchecked⟩
      · exact ⟨h, List.prefix_refl _⟩
    · exact ⟨h, List.prefix_refl _⟩
  | write n =>
    rw [AppendStep.fileStep, FileState.next]
    split
    · rename_i w hw
      refine ⟨{ h with writing := ?_ }, List.prefix_refl _⟩
      rintro w' hw'
      cases hw'
      exact h.writing w hw
    · exact ⟨h, List.prefix_refl _⟩
  | finish =>
    rw [AppendStep.fileStep, FileState.next]
    split
    · rename_i e hw
      obtain ⟨hprev, hchecked⟩ := h.writing _ hw
      refine ⟨⟨?_, ?_, ?_, fun w hnone => (by cases hnone)⟩, List.prefix_append _ _⟩
      · rw [ChainFormat.head_append_singleton]
        rfl
      · rw [List.length_append, h.len]
        rfl
      · rw [ChainFormat.linked_append_singleton]
        exact ⟨h.linked, hprev.trans h.head, hchecked⟩
    · exact ⟨h, List.prefix_refl _⟩
  | abandon =>
    exact ⟨{ h with writing := fun w hnone => (by cases hnone) }, List.prefix_refl _⟩

/-- `FileAuditLog`: an append holds the lock from its first step to its last. -/
def fileLog (P : Primitives) (codec : LineCodec) : ChainLog P FileState AppendStep where
  init := {}
  next s l := s.next P codec l.fileStep
  currentHead s := if s.writer.isNone then some (.ok s.head) else none
  len s := if s.writer.isNone then some (.ok s.len) else none
  events s := s.returned
  Holds s := s.Cached P
  init_holds := ⟨rfl, rfl, trivial, fun w hnone => by cases hnone⟩
  next_holds _ l h := (h.next l).1
  events_next _ l h := (h.next l).2
  linked _ h := h.linked
  head_eq s r h hr := by
    split_ifs at hr
    cases hr
    rw [h.head]
  len_eq s r h hr := by
    split_ifs at hr
    cases hr
    rw [h.len]

/-- Over either log, in every interleaving of appends and submissions the pairs handed to the
submitter are heads of the chain exactly when no append returns between the two reads. -/
theorem anchored_heads_real_iff {P : Primitives} (codec : LineCodec)
    (hsha : Function.Injective P.sha256)
    (hgenesis : ∀ bytes, hexEncode (P.sha256 bytes) ≠ genesisHead) :
    (∀ steps, (∀ done, done <+: steps → (Machine.run (AnchorState.next (memoryLog P))
          ⟨{}, [], []⟩ done).Real (memoryLog P)) ↔
        Machine.Along (AnchorState.next (memoryLog P))
          (fun s l => l.Uninterrupted (memoryLog P) s) ⟨{}, [], []⟩ steps) ∧
    ∀ steps, (∀ done, done <+: steps → (Machine.run (AnchorState.next (fileLog P codec))
          ⟨{}, [], []⟩ done).Real (fileLog P codec)) ↔
        Machine.Along (AnchorState.next (fileLog P codec))
          (fun s l => l.Uninterrupted (fileLog P codec) s) ⟨{}, [], []⟩ steps :=
  ⟨anchored_iff hsha hgenesis, anchored_iff hsha hgenesis⟩

/-- An append returns between the two reads of a submission. -/
def tornSubmission : List (AnchorStep AppendCall) :=
  [.submit .submitNow, .readHead 0, .log (sampleCall samplePayload "evt_1"), .readLen 0]

theorem sample_appendOrKeep : MemoryAuditLog.appendOrKeep samplePrimitives {}
    (sampleCall samplePayload "evt_1") = ⟨[sampleStored samplePayload "evt_1"]⟩ :=
  MemoryAuditLog.appendOrKeep_of_hash {} (sampleCall samplePayload "evt_1") sampleCall_hash

/-- The genesis head is anchored as the head after one event. -/
theorem torn_submission_unreal :
    (Machine.run (AnchorState.next (memoryLog samplePrimitives)) ⟨{}, [], []⟩
        tornSubmission).submitted = [(genesisHead, 1)] ∧
      ¬(Machine.run (AnchorState.next (memoryLog samplePrimitives)) ⟨{}, [], []⟩
        tornSubmission).Real (memoryLog samplePrimitives) := by
  have hrun : Machine.run (AnchorState.next (memoryLog samplePrimitives)) ⟨{}, [], []⟩
      tornSubmission = ⟨⟨[sampleStored samplePayload "evt_1"]⟩, [.ended], [(genesisHead, 1)]⟩ := by
    have hread : Machine.run (AnchorState.next (memoryLog samplePrimitives)) ⟨{}, [], []⟩
        [.submit .submitNow, .readHead 0] =
          ⟨{}, [.hasHead .submitNow genesisHead 0], []⟩ := rfl
    have hlog : AnchorState.next (memoryLog samplePrimitives)
        ⟨{}, [.hasHead .submitNow genesisHead 0], []⟩
        (.log (sampleCall samplePayload "evt_1")) =
          ⟨⟨[sampleStored samplePayload "evt_1"]⟩, [.hasHead .submitNow genesisHead 0], []⟩ :=
      congrArg (fun log => (⟨log, _, _⟩ : AnchorState MemoryAuditLog)) sample_appendOrKeep
    have hsplit : tornSubmission = [.submit .submitNow, .readHead 0] ++
        [.log (sampleCall samplePayload "evt_1"), .readLen 0] := rfl
    rw [hsplit, Machine.run_append, hread, Machine.run_cons, hlog]
    rfl
  rw [hrun]
  refine ⟨rfl, fun hreal => ?_⟩
  obtain ⟨-, hhead⟩ := hreal genesisHead 1 (List.mem_singleton_self _)
  change sampleHash = genesisHead at hhead
  exact absurd hhead (by decide)

def quietSubmission : List (AnchorStep AppendCall) :=
  [.log (sampleCall samplePayload "evt_1"), .submit .tick, .readHead 0, .readLen 0]

theorem anchored_heads_real_iff_quiet :
    Function.Injective samplePrimitives.sha256 ∧
      (∀ bytes, hexEncode (samplePrimitives.sha256 bytes) ≠ genesisHead) ∧
      (Machine.run (AnchorState.next (memoryLog samplePrimitives)) ⟨{}, [], []⟩
        quietSubmission).Real (memoryLog samplePrimitives) := by
  refine ⟨samplePrimitives_injective, samplePrimitives_ne_genesis,
    ((anchored_heads_real_iff sampleCodec samplePrimitives_injective
      samplePrimitives_ne_genesis).1 quietSubmission).mpr ?_ quietSubmission (List.prefix_refl _)⟩
  have hlog : AnchorState.next (memoryLog samplePrimitives) ⟨{}, [], []⟩
      (.log (sampleCall samplePayload "evt_1")) =
        ⟨⟨[sampleStored samplePayload "evt_1"]⟩, [], []⟩ :=
    congrArg (fun log => (⟨log, _, _⟩ : AnchorState MemoryAuditLog)) sample_appendOrKeep
  refine ⟨trivial, ?_⟩
  rw [hlog]
  refine ⟨trivial, trivial, ?_, trivial⟩
  rintro origin head count hcall -
  cases hcall
  rfl

end AgentExchange.Audit
