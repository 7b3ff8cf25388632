import AgentExchange.Audit.Log
import AgentExchange.Core.Crypto

/-!
# What the chain head commits to

Both verifiers walk a hash chain. A head that verifies fixes the events behind it,
up to the two fields no hash covers and no verifier looks at: the identifier and
the position of a stored event.
-/
namespace AgentExchange.Audit

open Library

section Chain

variable (P : Primitives)

/-- Stored events as a hash chain. -/
def auditChain : ChainFormat StoredEvent String where
  prev := StoredEvent.prevHash
  hash := StoredEvent.thisHash
  Checked e := e.event.computeHash P e.timestamp e.prevHash = .ok e.thisHash

/-- Events that agree, with one timestamp. -/
def StoredEvent.SaysSame (a b : StoredEvent) : Prop :=
  a.event.Agrees b.event ∧ a.timestamp = b.timestamp

/-- Equal in everything a verifier can see. -/
def StoredEvent.SameContent (a b : StoredEvent) : Prop :=
  a.SaysSame b ∧ a.prevHash = b.prevHash ∧ a.thisHash = b.thisHash

/-- Equal in every field; payloads are maps, so their key order is no field. -/
def StoredEvent.Same (a b : StoredEvent) : Prop :=
  a.SameContent b ∧ a.eventId = b.eventId ∧ a.position = b.position

variable {P}

theorem auditChain_binding (hsha : Function.Injective P.sha256) :
    (auditChain P).Binding StoredEvent.SameContent := by
  intro a b ha hb hhash
  change a.thisHash = b.thisHash at hhash
  change a.event.computeHash P a.timestamp a.prevHash = .ok a.thisHash at ha
  change b.event.computeHash P b.timestamp b.prevHash = .ok b.thisHash at hb
  rw [hhash] at ha
  obtain ⟨hevent, hts, hprev⟩ := Event.agrees_of_computeHash P hsha ha hb
  exact ⟨⟨⟨hevent, hts⟩, hprev, hhash⟩, hprev⟩

/-- No digest spells the genesis head, so no event does. -/
theorem checked_ne_genesis (hgenesis : ∀ bytes, hexEncode (P.sha256 bytes) ≠ genesisHead)
    {e : StoredEvent} (h : (auditChain P).Checked e) : (auditChain P).hash e ≠ genesisHead := by
  obtain ⟨bytes, -, hhash⟩ := (Event.computeHash_eq_ok P).mp h
  change e.thisHash ≠ genesisHead
  rw [← hhash]
  exact hgenesis bytes

/-- An event stays checked when only what no verifier sees is changed. -/
theorem StoredEvent.SameContent.keeps {a b : StoredEvent} (h : a.SameContent b) :
    (auditChain P).prev a = (auditChain P).prev b ∧
      (auditChain P).hash a = (auditChain P).hash b ∧
      ((auditChain P).Checked a → (auditChain P).Checked b) := by
  obtain ⟨⟨hevent, hts⟩, hprev, hhash⟩ := h
  refine ⟨hprev, hhash, fun ha => ?_⟩
  change b.event.computeHash P b.timestamp b.prevHash = .ok b.thisHash
  rw [← Event.computeHash_congr P hevent, ← hts, ← hprev, ← hhash]
  exact ha

theorem StoredEvent.verifyHash_eq_ok {e : StoredEvent} :
    e.verifyHash P = .ok () ↔ (auditChain P).Checked e := by
  change e.verifyHash P = .ok () ↔ e.event.computeHash P e.timestamp e.prevHash = .ok e.thisHash
  unfold verifyHash
  cases hc : e.event.computeHash P e.timestamp e.prevHash with
  | error err => simp [bind, Except.bind]
  | ok recomputed =>
    by_cases hr : recomputed = e.thisHash <;>
      simp [bind, Except.bind, hr, throw, throwThe, MonadExceptOf.throw, pure, Except.pure]

theorem AppendCall.stored_eq_ok {call : AppendCall} {position : ℕ} {prev : String}
    {e : StoredEvent} (h : call.stored P position prev = .ok e) :
    (auditChain P).Checked e ∧ e.prevHash = prev := by
  rw [AppendCall.stored, except_bind_eq_ok] at h
  obtain ⟨hash, hhash, he⟩ := h
  cases he
  exact ⟨hhash, rfl⟩

namespace MemoryAuditLog

theorem verifyFrom_eq_ok {prev : String} {i : ℕ} {es : List StoredEvent} :
    verifyFrom P prev i es = .ok () ↔ (auditChain P).Linked prev es := by
  induction es generalizing prev i with
  | nil => simp [verifyFrom, ChainFormat.Linked, pure, Except.pure]
  | cons e es ih =>
    rw [verifyFrom, ChainFormat.Linked]
    by_cases hprev : e.prevHash = prev
    · simp only [hprev, ne_eq, not_true_eq_false, if_false]
      rw [except_bind_eq_ok]
      constructor
      · rintro ⟨⟨⟩, hchecked, hrest⟩
        exact ⟨hprev, StoredEvent.verifyHash_eq_ok.mp hchecked, ih.mp hrest⟩
      · rintro ⟨-, hchecked, hrest⟩
        exact ⟨(), StoredEvent.verifyHash_eq_ok.mpr hchecked, ih.mpr hrest⟩
    · simp only [ne_eq, hprev, not_false_eq_true, if_true]
      constructor
      · intro h
        cases h
      · rintro ⟨h, -⟩
        exact (hprev h).elim

theorem currentHead_eq (log : MemoryAuditLog) :
    log.currentHead = (auditChain P).head genesisHead log.events := by
  rcases List.eq_nil_or_concat' log.events with h | ⟨es, e, h⟩
  · simp [currentHead, h, ChainFormat.head]
  · rw [currentHead, h, ChainFormat.head_append_singleton, List.getLast?_concat]
    rfl

theorem appendOrKeep_of_hash (log : MemoryAuditLog) (call : AppendCall) {hash : String}
    (h : call.event.computeHash P call.timestamp log.currentHead = .ok hash) :
    log.appendOrKeep P call = ⟨log.events ++ [⟨log.events.length, call.eventId, call.timestamp,
      log.currentHead, hash, call.event⟩]⟩ := by
  simp [appendOrKeep, append, AppendCall.stored, h, bind, Except.bind, pure, Except.pure]

/-- An append keeps the chain linked. -/
theorem linked_append {log log' : MemoryAuditLog} {call : AppendCall} {r : EventReceipt}
    (hlog : (auditChain P).Linked genesisHead log.events)
    (h : log.append P call = .ok (r, log')) :
    (auditChain P).Linked genesisHead log'.events := by
  rw [append, except_bind_eq_ok] at h
  obtain ⟨stored, hstored, hout⟩ := h
  cases hout
  obtain ⟨hchecked, hprev⟩ := AppendCall.stored_eq_ok hstored
  rw [ChainFormat.linked_append_singleton]
  exact ⟨hlog, hprev.trans (currentHead_eq log), hchecked⟩

theorem linked_appendOrKeep {log : MemoryAuditLog} (call : AppendCall)
    (hlog : (auditChain P).Linked genesisHead log.events) :
    (auditChain P).Linked genesisHead (log.appendOrKeep P call).events := by
  unfold appendOrKeep
  split
  · rename_i r log' h
    exact linked_append hlog h
  · exact hlog

/-- Every log produced by appends verifies. -/
theorem linked_run (calls : List AppendCall) :
    (auditChain P).Linked genesisHead (run P calls).events := by
  induction calls using List.reverseRecOn with
  | nil => trivial
  | append_singleton calls call ih =>
    rw [run, List.foldl_append]
    exact linked_appendOrKeep call ih

end MemoryAuditLog

/-- The events behind the lines of a file; `none` when a line does not parse. -/
def storedEvents (codec : LineCodec) : List String → Option (List StoredEvent)
  | [] => some []
  | line :: rest =>
    if isBlank line then storedEvents codec rest
    else match codec.fromLine line with
      | .error _ => none
      | .ok e => (storedEvents codec rest).map (e :: ·)

namespace FileAuditLog

variable {codec : LineCodec}

theorem replayFrom_eq_ok {head h : String} {len n : ℕ} {ls : List String} :
    replayFrom P codec head len ls = .ok (h, n) ↔
      ∃ es, storedEvents codec ls = some es ∧ (auditChain P).Linked head es ∧
        h = (auditChain P).head head es ∧ n = len + es.length := by
  induction ls generalizing head len with
  | nil =>
    simp only [replayFrom, storedEvents, pure, Except.pure, Except.ok.injEq, Prod.mk.injEq,
      Option.some.injEq]
    constructor
    · rintro ⟨rfl, rfl⟩
      exact ⟨[], rfl, trivial, rfl, rfl⟩
    · rintro ⟨es, rfl, -, rfl, rfl⟩
      exact ⟨rfl, rfl⟩
  | cons line rest ih =>
    rw [replayFrom, storedEvents]
    split_ifs with hblank
    · exact ih
    · cases hline : codec.fromLine line with
      | error err =>
        simp [Except.mapError, bind, Except.bind]
      | ok e =>
        simp only [Except.mapError, Option.map_eq_some_iff]
        rw [except_bind_eq_ok]
        constructor
        · rintro ⟨e', he, h⟩
          cases he
          split_ifs at h with hprev
          · cases h
          · rw [except_bind_eq_ok] at h
            obtain ⟨⟨⟩, hchecked, hrest⟩ := h
            obtain ⟨es, hes, hlinked, rfl, rfl⟩ := ih.mp hrest
            exact ⟨e :: es, ⟨es, hes, rfl⟩,
              ⟨not_not.mp hprev, StoredEvent.verifyHash_eq_ok.mp hchecked, hlinked⟩, rfl,
              by rw [List.length_cons]; omega⟩
        · rintro ⟨_, ⟨es, hes, rfl⟩, ⟨hprev, hchecked, hlinked⟩, rfl, rfl⟩
          refine ⟨e, rfl, ?_⟩
          change e.prevHash = head at hprev
          simp only [hprev, ne_eq, not_true_eq_false, if_false]
          rw [except_bind_eq_ok]
          exact ⟨(), StoredEvent.verifyHash_eq_ok.mpr hchecked,
            ih.mpr ⟨es, hes, hlinked, rfl, by rw [List.length_cons]; omega⟩⟩

theorem verifyChain_eq_ok {log : FileAuditLog} :
    log.verifyChain P codec = .ok () ↔
      ∃ es, storedEvents codec (lines log.file) = some es ∧
        (auditChain P).Linked genesisHead es ∧
        (auditChain P).head genesisHead es = log.head ∧ es.length = log.len := by
  rw [verifyChain, except_bind_eq_ok]
  constructor
  · rintro ⟨⟨h, n⟩, hreplay, hcompare⟩
    obtain ⟨es, hes, hlinked, rfl, rfl⟩ := replayFrom_eq_ok.mp hreplay
    simp only [ne_eq] at hcompare
    split_ifs at hcompare with hdiff
    push Not at hdiff
    exact ⟨es, hes, hlinked, hdiff.1, by omega⟩
  · rintro ⟨es, hes, hlinked, hhead, hlen⟩
    refine ⟨(log.head, log.len), replayFrom_eq_ok.mpr ⟨es, hes, hlinked, hhead.symm, by omega⟩, ?_⟩
    simp [pure, Except.pure]

/-- The file log caches the head and the length of the log its appends produce in memory. -/
theorem run_eq (calls : List AppendCall) :
    (run P codec calls).head = (MemoryAuditLog.run P calls).currentHead ∧
      (run P codec calls).len = (MemoryAuditLog.run P calls).events.length := by
  induction calls using List.reverseRecOn with
  | nil => exact ⟨rfl, rfl⟩
  | append_singleton calls call ih =>
    obtain ⟨hhead, hlen⟩ := ih
    rw [run, MemoryAuditLog.run, List.foldl_append, List.foldl_append]
    change (appendOrKeep P codec (run P codec calls) call).head =
        (MemoryAuditLog.appendOrKeep P (MemoryAuditLog.run P calls) call).currentHead ∧
      (appendOrKeep P codec (run P codec calls) call).len =
        (MemoryAuditLog.appendOrKeep P (MemoryAuditLog.run P calls) call).events.length
    rw [appendOrKeep, MemoryAuditLog.appendOrKeep, append, MemoryAuditLog.append, hhead, hlen]
    cases call.stored P (MemoryAuditLog.run P calls).events.length
        (MemoryAuditLog.run P calls).currentHead with
    | error err => exact ⟨hhead, hlen⟩
    | ok e =>
      constructor
      · simp [MemoryAuditLog.currentHead, bind, Except.bind, pure, Except.pure]
      · simp [bind, Except.bind, pure, Except.pure]

end FileAuditLog

/-- The primitives on one rejected transfer logged at the Unix epoch: the digest is the real
one, and no float is written. -/
def samplePrimitives : Primitives where
  floatText :=
    { format := fun x => Nat.repr x.bits.toNat ++ ".0"
      format_inj := by
        rintro ⟨x, hx⟩ ⟨y, hy⟩ h
        have hxy := Nat.repr_inj.mp (String.append_left_inj ".0" |>.mp h)
        simpa using UInt64.toNat_inj.mp hxy
      numeral := by
        intro x c hc
        rw [String.toList_append, List.mem_append] at hc
        rcases hc with hc | hc
        · simp [Json.numeralChar, isDigit_of_mem_natRepr hc]
        · rw [show ".0".toList = ['.', '0'] by decide] at hc
          rcases List.mem_pair.mp hc with rfl | rfl <;> decide
      marked := by
        intro x
        left
        rw [String.toList_append]
        exact List.mem_append_right _ (by decide) }
  rfc3339 ts := if ts = ⟨0, 0⟩ then .ok "1970-01-01T00:00:00Z" else .error "not the epoch"
  rfc3339_inj := by
    intro a b text ha hb
    split_ifs at ha hb with h₁ h₂
    rw [h₁, h₂]
  sha256 := tabulated 32
    [(intoBytes ("\x7b\"kind\":\"transfer_rejected\",\"actor\":\"spize:acme/alice:aabbcc\"," ++
        "\"subject\":\"tx_1\",\"payload\":\x7b\"code\":\"size_exceeded\"," ++
        "\"reason\":\"too big\"\x7d,\"ts\":\"1970-01-01T00:00:00Z\",\"prev\":\"" ++
        genesisHead ++ "\"\x7d"),
      [54, 106, 90, 175, 227, 189, 199, 83, 14, 199, 187, 234, 254, 31, 137, 76, 230, 178, 43, 33,
        138, 30, 144, 98, 135, 93, 204, 70, 239, 139, 81, 53])]

def samplePayload : List (String × Json) :=
  [("code", .str "size_exceeded"), ("reason", .str "too big")]

def sampleCall (payload : List (String × Json)) (eventId : String) : AppendCall :=
  ⟨⟨.transferRejected, "spize:acme/alice:aabbcc", "tx_1", .obj payload⟩, ⟨0, 0⟩, eventId⟩

def sampleHash : String := "366a5aafe3bdc7530ec7bbeafe1f894ce6b22b218a1e9062875dcc46ef8b5135"

def sampleStored (payload : List (String × Json)) (eventId : String) : StoredEvent :=
  ⟨0, eventId, ⟨0, 0⟩, genesisHead, sampleHash, (sampleCall payload eventId).event⟩

theorem samplePrimitives_injective : Function.Injective samplePrimitives.sha256 :=
  tabulated_injective (by decide) (by decide)

theorem samplePrimitives_ne_genesis (bytes : Bytes) :
    hexEncode (samplePrimitives.sha256 bytes) ≠ genesisHead := by
  rw [show genesisHead = hexEncode (List.replicate 32 0) by decide]
  intro h
  exact tabulated_ne (by decide) (by decide) bytes (hexEncode_inj h)

theorem sampleCall_hash : (sampleCall samplePayload "evt_1").event.computeHash samplePrimitives
    ⟨0, 0⟩ genesisHead = .ok sampleHash := by decide +kernel

theorem sampleStored_linked : (auditChain samplePrimitives).Linked genesisHead
    [sampleStored samplePayload "evt_1"] :=
  ⟨rfl, sampleCall_hash, trivial⟩

/-- Two verified logs with one head hold the same history, because the canonical bytes of an
event determine it. -/
theorem head_commits_to_history (hsha : Function.Injective P.sha256)
    (hgenesis : ∀ bytes, hexEncode (P.sha256 bytes) ≠ genesisHead) :
    (∀ log log' : MemoryAuditLog, log.verifyChain P = .ok () → log'.verifyChain P = .ok () →
      log.currentHead = log'.currentHead →
      log.events.length = log'.events.length ∧
        List.Forall₂ StoredEvent.SaysSame log.events log'.events) ∧
    ∀ (a b : Event) (ts ts' : OffsetDateTime) (prev prev' : String) (bytes : Bytes),
      a.canonicalBytes P ts prev = .ok bytes → b.canonicalBytes P ts' prev' = .ok bytes →
      a.Agrees b ∧ ts = ts' ∧ prev = prev' := by
  constructor
  · intro log log' hlog hlog' hhead
    replace hlog := MemoryAuditLog.verifyFrom_eq_ok.mp hlog
    replace hlog' := MemoryAuditLog.verifyFrom_eq_ok.mp hlog'
    rw [MemoryAuditLog.currentHead_eq (P := P), MemoryAuditLog.currentHead_eq (P := P)] at hhead
    have hbinding := auditChain_binding hsha
    have hlen := hlog.length_eq hbinding (fun _ => checked_ne_genesis hgenesis) hlog' hhead
    have hall := hlog.agree hbinding hlog' hlen hhead
    exact ⟨hlen, hall.imp fun _ _ h => h.1⟩
  · intro a b ts ts' prev prev' bytes ha hb
    exact Event.agrees_of_canonicalBytes P ha hb

theorem head_commits_to_history_sample :
    Function.Injective samplePrimitives.sha256 ∧
      (∀ bytes, hexEncode (samplePrimitives.sha256 bytes) ≠ genesisHead) ∧
      (MemoryAuditLog.mk [sampleStored samplePayload "evt_1"]).verifyChain samplePrimitives =
        .ok () ∧
      List.Forall₂ StoredEvent.SaysSame [sampleStored samplePayload "evt_1"]
        [sampleStored samplePayload.reverse "evt_2"] := by
  have hfirst : (MemoryAuditLog.mk [sampleStored samplePayload "evt_1"]).verifyChain
      samplePrimitives = .ok () := MemoryAuditLog.verifyFrom_eq_ok.mpr sampleStored_linked
  have hsecond : (MemoryAuditLog.mk [sampleStored samplePayload.reverse "evt_2"]).verifyChain
      samplePrimitives = .ok () := by decide +kernel
  exact ⟨samplePrimitives_injective, samplePrimitives_ne_genesis, hfirst,
    ((head_commits_to_history samplePrimitives_injective samplePrimitives_ne_genesis).1 _ _ hfirst
      hsecond rfl).2⟩

/-- A log checked against a head and a length recorded before. -/
def MemoryAuditLog.Passes (P : Primitives) (recordedHead : String) (recordedLen : ℕ)
    (log : MemoryAuditLog) : Prop :=
  log.verifyChain P = .ok () ∧ log.currentHead = recordedHead ∧ log.len = recordedLen

theorem MemoryAuditLog.passes_iff (hsha : Function.Injective P.sha256) (calls : List AppendCall)
    (altered : List StoredEvent) :
    Passes P (run P calls).currentHead (run P calls).len ⟨altered⟩ ↔
      List.Forall₂ StoredEvent.SameContent (run P calls).events altered := by
  rw [Passes, currentHead_eq (P := P), currentHead_eq (P := P), verifyChain, verifyFrom_eq_ok]
  constructor
  · rintro ⟨hlinked, hhead, hlen⟩
    exact (linked_run calls).agree (auditChain_binding hsha) hlinked hlen.symm hhead.symm
  · intro h
    obtain ⟨hlinked, hhead⟩ := (linked_run calls).congr h fun _ _ => StoredEvent.SameContent.keeps
    exact ⟨hlinked, hhead, h.length_eq.symm⟩

theorem FileAuditLog.passes_iff (hsha : Function.Injective P.sha256) {codec : LineCodec}
    (calls : List AppendCall) {altered : List StoredEvent} {file : String}
    (hfile : storedEvents codec (lines file) = some altered) :
    verifyChain P codec { run P codec calls with file := file } = .ok () ↔
      List.Forall₂ StoredEvent.SameContent (MemoryAuditLog.run P calls).events altered := by
  obtain ⟨hhead, hlen⟩ := @run_eq P codec calls
  rw [← MemoryAuditLog.passes_iff hsha, verifyChain_eq_ok, MemoryAuditLog.Passes,
    MemoryAuditLog.verifyChain, MemoryAuditLog.verifyFrom_eq_ok,
    MemoryAuditLog.currentHead_eq (P := P) ⟨altered⟩]
  simp only [hhead, hlen, hfile, Option.some.injEq, exists_eq_left']
  rfl

/-- Some difference between the two lists, if there is any, lies in what the hash covers. -/
def HashedDifference (original altered : List StoredEvent) : Prop :=
  List.Forall₂ StoredEvent.SameContent original altered →
    List.Forall₂ StoredEvent.Same original altered

/-- Tampering is noticed exactly when it touches more than identifiers and positions. -/
theorem tampering_noticed_iff (hsha : Function.Injective P.sha256) (codec : LineCodec)
    (calls : List AppendCall) (altered : List StoredEvent) :
    ((MemoryAuditLog.Passes P (MemoryAuditLog.run P calls).currentHead
          (MemoryAuditLog.run P calls).len ⟨altered⟩ ↔
        List.Forall₂ StoredEvent.Same (MemoryAuditLog.run P calls).events altered) ↔
      HashedDifference (MemoryAuditLog.run P calls).events altered) ∧
    ∀ file, storedEvents codec (lines file) = some altered →
      ((FileAuditLog.verifyChain P codec { FileAuditLog.run P codec calls with file := file } =
            .ok () ↔
          List.Forall₂ StoredEvent.Same (MemoryAuditLog.run P calls).events altered) ↔
        HashedDifference (MemoryAuditLog.run P calls).events altered) := by
  have hsame : List.Forall₂ StoredEvent.Same (MemoryAuditLog.run P calls).events altered →
      List.Forall₂ StoredEvent.SameContent (MemoryAuditLog.run P calls).events altered :=
    fun h => h.imp fun _ _ h => h.1
  refine ⟨?_, fun file hfile => ?_⟩
  · rw [MemoryAuditLog.passes_iff hsha]
    exact ⟨fun h => h.mp, fun h => ⟨h, hsame⟩⟩
  · rw [FileAuditLog.passes_iff hsha calls hfile]
    exact ⟨fun h => h.mp, fun h => ⟨h, hsame⟩⟩

/-- The line `serde_json` writes for the sample event. -/
def sampleLine (eventId : String) : String :=
  "\x7b\"position\":0,\"event_id\":\"" ++ eventId ++
    "\",\"timestamp\":\"1970-01-01T00:00:00Z\",\"prev_hash\":\"" ++ genesisHead ++
    "\",\"this_hash\":\"" ++ sampleHash ++
    "\",\"kind\":\"transfer_rejected\",\"actor\":\"spize:acme/alice:aabbcc\"," ++
    "\"subject\":\"tx_1\",\"payload\":\x7b\"code\":\"size_exceeded\"," ++
    "\"reason\":\"too big\"\x7d\x7d"

def sampleCodec : LineCodec where
  toLine e := sampleLine e.eventId
  fromLine line :=
    if line = sampleLine "evt_1" then .ok (sampleStored samplePayload "evt_1")
    else if line = sampleLine "evt_2" then .ok (sampleStored samplePayload "evt_2")
    else .error "not a stored event"

theorem sample_run :
    MemoryAuditLog.run samplePrimitives [sampleCall samplePayload "evt_1"] =
      ⟨[sampleStored samplePayload "evt_1"]⟩ :=
  MemoryAuditLog.appendOrKeep_of_hash {} (sampleCall samplePayload "evt_1") sampleCall_hash

theorem sample_differs : ¬List.Forall₂ StoredEvent.Same [sampleStored samplePayload "evt_1"]
    [sampleStored samplePayload "evt_2"] := by
  intro h
  obtain ⟨⟨-, hid, -⟩, -⟩ := List.forall₂_cons.mp h
  exact absurd hid (by decide)

theorem sample_sameContent : List.Forall₂ StoredEvent.SameContent
    [sampleStored samplePayload "evt_1"] [sampleStored samplePayload "evt_2"] :=
  .cons ⟨⟨⟨rfl, rfl, rfl, rfl⟩, rfl⟩, rfl, rfl⟩ .nil

/-- A log in which an event's identifier was replaced still verifies against its head. -/
theorem eventId_change_unnoticed :
    Function.Injective samplePrimitives.sha256 ∧
      MemoryAuditLog.Passes samplePrimitives
        (MemoryAuditLog.run samplePrimitives [sampleCall samplePayload "evt_1"]).currentHead
        (MemoryAuditLog.run samplePrimitives [sampleCall samplePayload "evt_1"]).len
        ⟨[sampleStored samplePayload "evt_2"]⟩ ∧
      ¬List.Forall₂ StoredEvent.Same
        (MemoryAuditLog.run samplePrimitives [sampleCall samplePayload "evt_1"]).events
        [sampleStored samplePayload "evt_2"] := by
  refine ⟨samplePrimitives_injective, ?_, ?_⟩
  · rw [MemoryAuditLog.passes_iff samplePrimitives_injective, sample_run]
    exact sample_sameContent
  · rw [sample_run]
    exact sample_differs

theorem tampering_noticed_iff_sample :
    Function.Injective samplePrimitives.sha256 ∧
      ((MemoryAuditLog.Passes samplePrimitives
          (MemoryAuditLog.run samplePrimitives [sampleCall samplePayload "evt_1"]).currentHead
          (MemoryAuditLog.run samplePrimitives [sampleCall samplePayload "evt_1"]).len ⟨[]⟩ ↔
        List.Forall₂ StoredEvent.Same
          (MemoryAuditLog.run samplePrimitives [sampleCall samplePayload "evt_1"]).events []) ↔
      HashedDifference
        (MemoryAuditLog.run samplePrimitives [sampleCall samplePayload "evt_1"]).events []) :=
  ⟨samplePrimitives_injective,
    (tampering_noticed_iff samplePrimitives_injective sampleCodec
      [sampleCall samplePayload "evt_1"] []).1⟩

end Chain

end AgentExchange.Audit
