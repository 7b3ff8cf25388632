import AgentExchange.Audit.Refinement
import AgentExchange.Library.Machine

/-!
# Writes that fail

An append holds the lock while the bytes of its line reach the file, and only then
updates the cached head and length. `FileState` follows the file byte by byte: the
write may fail, or its future be dropped, after any number of bytes, and the file
may be opened again at any time.
-/
namespace AgentExchange.Audit

open Library

/-! ## Replaying bytes -/

/-- `AsyncBufReadExt::lines` before the text is decoded. -/
def byteLinesFrom (acc : Bytes) : Bytes → List Bytes
  | [] => if acc = [] then [] else [acc.reverse]
  | b :: rest =>
    if b = 10 then
      (match acc with
        | 13 :: acc' => acc'.reverse
        | _ => acc.reverse) :: byteLinesFrom [] rest
    else byteLinesFrom (b :: acc) rest

def byteLines (file : Bytes) : List Bytes := byteLinesFrom [] file

variable (P : Primitives) (codec : LineCodec)

/-- The loop of `replay`: a line that is no UTF-8 is an I/O error of `next_line`. -/
def replayLines (head : String) (len : ℕ) : List Bytes → Except AuditError (String × ℕ)
  | [] => pure (head, len)
  | line :: rest => do
    let text ← (fromUtf8 line).mapError fun _ => .io "stream did not contain valid UTF-8"
    if isBlank text then
      replayLines head len rest
    else
      let stored ← (codec.fromLine text).mapError .serialization
      if stored.prevHash ≠ head then
        throw (.chainBroken len head stored.prevHash)
      stored.verifyHash P
      replayLines stored.thisHash (len + 1) rest

/-- `replay` on the bytes of the file (none when it does not exist). -/
def replayBytes (file : Bytes) : Except AuditError (String × ℕ) :=
  replayLines P codec genesisHead 0 (byteLines file)

/-- `verify_chain` against the cached head and length. -/
def verifyBytes (file : Bytes) (head : String) (len : ℕ) : Except AuditError Unit := do
  let (found, count) ← replayBytes P codec file
  if found ≠ head ∨ count ≠ len then
    throw (.chainBroken count head found)

/-- The bytes an append writes. -/
def lineBytes (e : StoredEvent) : Bytes := intoBytes (codec.toLine e) ++ [10]

/-- An append that holds the lock, with the bytes it has still to write. -/
structure Writing where
  stored : StoredEvent
  rest : Bytes

/-- The file and the log opened on it. `returned` lists the events whose append returned `Ok`. -/
structure FileState where
  file : Bytes := []
  opened : Bool := true
  head : String := genesisHead
  len : ℕ := 0
  writer : Option Writing := none
  returned : List StoredEvent := []

inductive FileStep where
  /-- takes the lock and hashes the event -/
  | append (call : AppendCall)
  /-- the next bytes of the line reach the file -/
  | write (n : ℕ)
  /-- `write_all` and `flush` returned: the cache is updated and the lock released -/
  | finish
  /-- `write_all` or `flush` failed, or the call was cancelled there -/
  | abandon
  | reopen

def FileState.next (s : FileState) : FileStep → FileState
  | .append call =>
    if s.opened && s.writer.isNone then
      match call.stored P s.len s.head with
      | .ok e => { s with writer := some ⟨e, lineBytes codec e⟩ }
      | .error _ => s
    else s
  | .write n =>
    match s.writer with
    | some w =>
      { s with file := s.file ++ w.rest.take n, writer := some { w with rest := w.rest.drop n } }
    | none => s
  | .finish =>
    match s.writer with
    | some ⟨e, []⟩ =>
      { s with head := e.thisHash, len := s.len + 1, writer := none, returned := s.returned ++ [e] }
    | _ => s
  | .abandon => { s with writer := none }
  | .reopen =>
    match replayBytes P codec s.file with
    | .ok (head, len) => { s with opened := true, head := head, len := len, writer := none }
    | .error _ => { s with opened := false, writer := none }

/-! ## Lines and their bytes -/

variable {P codec}

theorem newline_not_mem_intoBytes {text : String} (h : '\n' ∉ text.toList) :
    10 ∉ intoBytes text := by
  rw [intoBytes_eq_flatMap, List.mem_flatMap]
  rintro ⟨c, hc, hten⟩
  cases hascii : isAscii c with
  | true =>
    rw [utf8EncodeChar_of_isAscii hascii, List.mem_singleton] at hten
    have hlt : c.toNat < 128 := by simpa [isAscii] using hascii
    have hnat := congrArg UInt8.toNat hten
    rw [UInt8.toNat_ofNat', Nat.mod_eq_of_lt (by omega)] at hnat
    have hnewline : c = '\n' := Char.toNat_inj.mp hnat.symm
    exact h (hnewline ▸ hc)
  | false =>
    have hle := le_of_mem_utf8EncodeChar hascii hten
    exact absurd hle (by decide)

/-- The bytes of a written line lie between braces. -/
theorem LineCodec.Keeps.bytes {e : StoredEvent} (h : codec.Keeps e) :
    ∃ body, intoBytes (codec.toLine e) = 123 :: body ++ [125] := by
  obtain ⟨body, hbody⟩ := h.object
  refine ⟨body.flatMap String.utf8EncodeChar, ?_⟩
  rw [intoBytes_eq_flatMap, hbody]
  simp only [List.cons_append, List.flatMap_cons, List.flatMap_append, List.flatMap_nil,
    List.append_nil]
  rfl

theorem byteLinesFrom_append {acc bytes rest : Bytes} (h : 10 ∉ bytes) :
    byteLinesFrom acc (bytes ++ rest) = byteLinesFrom (bytes.reverse ++ acc) rest := by
  induction bytes generalizing acc with
  | nil => rfl
  | cons b bytes ih =>
    rw [List.mem_cons, not_or] at h
    have hstep : byteLinesFrom acc (b :: (bytes ++ rest)) = byteLinesFrom (b :: acc) (bytes ++ rest) :=
      if_neg (Ne.symm h.1)
    rw [List.cons_append, hstep, ih h.2, List.reverse_cons, List.append_assoc,
      List.singleton_append]

theorem byteLinesFrom_newline {acc rest : Bytes} {b : UInt8} (h : b ≠ 13) :
    byteLinesFrom (b :: acc) (10 :: rest) = (b :: acc).reverse :: byteLinesFrom [] rest := by
  rw [byteLinesFrom, if_pos rfl]
  intro acc' heq
  exact h (List.head_eq_of_cons_eq heq)

/-- Bytes without a line feed are one line. -/
theorem byteLines_of_not_mem {bytes : Bytes} (h : 10 ∉ bytes) (hne : bytes ≠ []) :
    byteLines bytes = [bytes] := by
  have hsplit := @byteLinesFrom_append [] bytes [] h
  rw [List.append_nil, List.append_nil] at hsplit
  rw [byteLines, hsplit, byteLinesFrom, if_neg (by simpa using hne), List.reverse_reverse]

theorem LineCodec.Keeps.byteLines {e : StoredEvent} (h : codec.Keeps e) (rest : Bytes) :
    byteLines (lineBytes codec e ++ rest) = intoBytes (codec.toLine e) :: byteLines rest := by
  obtain ⟨body, hbody⟩ := h.bytes
  have hrev : (intoBytes (codec.toLine e)).reverse = 125 :: (body.reverse ++ [123]) := by
    rw [hbody]
    simp
  rw [Audit.byteLines, lineBytes, List.append_assoc, List.singleton_append,
    byteLinesFrom_append (newline_not_mem_intoBytes h.oneLine), List.append_nil, hrev,
    byteLinesFrom_newline (by decide), ← hrev, List.reverse_reverse]
  rfl

/-! ## Replaying what was written -/

theorem replayLines_cons {head : String} {len : ℕ} {e : StoredEvent} {rest : List Bytes}
    (hkeeps : codec.Keeps e) (hprev : e.prevHash = head) (hchecked : (auditChain P).Checked e) :
    replayLines P codec head len (intoBytes (codec.toLine e) :: rest) =
      replayLines P codec e.thisHash (len + 1) rest := by
  rw [replayLines, fromUtf8_intoBytes]
  have hverify : e.verifyHash P = .ok () := StoredEvent.verifyHash_eq_ok.mpr hchecked
  simp [Except.mapError, hkeeps.not_blank, hkeeps.roundtrip, hprev, hverify, bind, Except.bind]

/-- The bytes of the file after the events were written. -/
def writtenBytes (codec : LineCodec) (es : List StoredEvent) : Bytes :=
  es.flatMap (lineBytes codec)

theorem writtenBytes_snoc (es : List StoredEvent) (e : StoredEvent) :
    writtenBytes codec (es ++ [e]) = writtenBytes codec es ++ lineBytes codec e := by
  simp [writtenBytes]

theorem replayLines_written {g : String} {n : ℕ} {es : List StoredEvent} {tail : Bytes}
    (hkeeps : ∀ e ∈ es, codec.Keeps e) (hlinked : (auditChain P).Linked g es) :
    replayLines P codec g n (byteLines (writtenBytes codec es ++ tail)) =
      replayLines P codec ((auditChain P).head g es) (n + es.length) (byteLines tail) := by
  induction es generalizing g n with
  | nil => rfl
  | cons e es ih =>
    obtain ⟨he, hes⟩ := List.forall_mem_cons.mp hkeeps
    obtain ⟨hprev, hchecked, hrest⟩ := hlinked
    have hfile : writtenBytes codec (e :: es) ++ tail =
        lineBytes codec e ++ (writtenBytes codec es ++ tail) := by
      simp [writtenBytes]
    have hlater := @ih _ (n + 1) hes hrest
    have hlen : n + (e :: es).length = n + 1 + es.length := by
      rw [List.length_cons]
      omega
    rw [hfile, he.byteLines, replayLines_cons he hprev hchecked, hlen]
    exact hlater

theorem replayBytes_written {es : List StoredEvent} (hkeeps : ∀ e ∈ es, codec.Keeps e)
    (hlinked : (auditChain P).Linked genesisHead es) :
    replayBytes P codec (writtenBytes codec es) =
      .ok ((auditChain P).head genesisHead es, es.length) := by
  have hreplay := @replayLines_written P codec genesisHead 0 es [] hkeeps hlinked
  rw [List.append_nil, Nat.zero_add] at hreplay
  exact hreplay

/-- No text cut off inside an object is JSON. -/
def LineCodec.Truncates (codec : LineCodec) (e : StoredEvent) : Prop :=
  ∀ text : String, text ≠ "" → intoBytes text <+: intoBytes (codec.toLine e) →
    text ≠ codec.toLine e → ∃ message, codec.fromLine text = .error message

theorem fromUtf8_eq_ok {bytes : Bytes} {text : String} (h : fromUtf8 bytes = .ok text) :
    intoBytes text = bytes := by
  unfold fromUtf8 at h
  split at h
  · rename_i s hs
    cases h
    rw [String.fromUTF8?] at hs
    split_ifs at hs with hvalid
    cases hs
    simp [intoBytes, String.fromUTF8]
  · cases h

/-- A text whose bytes start with a brace is not blank. -/
theorem not_blank_of_brace {text : String} {rest : Bytes} (h : intoBytes text = 123 :: rest) :
    isBlank text = false := by
  rw [intoBytes_eq_flatMap] at h
  cases hchars : text.toList with
  | nil => simp [hchars] at h
  | cons c cs =>
    rw [hchars, List.flatMap_cons] at h
    cases hascii : isAscii c with
    | true =>
      rw [utf8EncodeChar_of_isAscii hascii, List.singleton_append] at h
      have hlt : c.toNat < 128 := by simpa [isAscii] using hascii
      have hnat := congrArg UInt8.toNat (List.head_eq_of_cons_eq h)
      rw [UInt8.toNat_ofNat', Nat.mod_eq_of_lt (by omega)] at hnat
      have hbrace : c = '\x7b' := Char.toNat_inj.mp hnat
      rw [isBlank, hchars, hbrace]
      rfl
    | false =>
      cases henc : String.utf8EncodeChar c with
      | nil => exact absurd henc String.utf8EncodeChar_ne_nil
      | cons b bs =>
        rw [henc, List.cons_append] at h
        have hle := le_of_mem_utf8EncodeChar hascii (b := b) (by simp [henc])
        rw [List.head_eq_of_cons_eq h] at hle
        exact absurd hle (by decide)

/-- A line cut off inside its text is refused. -/
theorem replayLines_cut {head : String} {len : ℕ} {e : StoredEvent} {part more : Bytes}
    (hkeeps : codec.Keeps e) (htruncates : codec.Truncates e)
    (hcut : part ++ more = intoBytes (codec.toLine e)) (hpart : part ≠ []) (hmore : more ≠ []) :
    ∃ err, replayLines P codec head len (byteLines part) = .error err := by
  have hnewline : 10 ∉ part := by
    intro h
    exact newline_not_mem_intoBytes hkeeps.oneLine (hcut ▸ List.mem_append_left _ h)
  obtain ⟨body, hbody⟩ := hkeeps.bytes
  obtain ⟨b, bs, rfl⟩ := List.exists_cons_of_ne_nil hpart
  have hbrace : b = 123 := by
    rw [hbody, List.cons_append, List.cons_append] at hcut
    exact List.head_eq_of_cons_eq hcut
  rw [byteLines_of_not_mem hnewline hpart, replayLines]
  cases htext : fromUtf8 (b :: bs) with
  | error message => exact ⟨_, rfl⟩
  | ok text =>
    have hbytes : intoBytes text = b :: bs := fromUtf8_eq_ok htext
    obtain ⟨message, herror⟩ := htruncates text
      (by rintro rfl; exact absurd hbytes (by simp [intoBytes]))
      (by rw [hbytes]; exact ⟨more, hcut⟩)
      (by
        rintro rfl
        rw [hbytes] at hcut
        exact hmore (List.self_eq_append_right.mp hcut.symm))
    have hblank : isBlank text = false := not_blank_of_brace (hbrace ▸ hbytes)
    refine ⟨.serialization message, ?_⟩
    simp [Except.mapError, hblank, herror, bind, Except.bind]

/-- A line whose text is complete counts, with its line feed or without. -/
theorem replayLines_whole {head : String} {len : ℕ} {e : StoredEvent} {part : Bytes}
    (hkeeps : codec.Keeps e) (hprev : e.prevHash = head) (hchecked : (auditChain P).Checked e)
    (hpart : part = intoBytes (codec.toLine e) ∨ part = lineBytes codec e) :
    replayLines P codec head len (byteLines part) = .ok (e.thisHash, len + 1) := by
  have hlines : byteLines part = [intoBytes (codec.toLine e)] := by
    rcases hpart with rfl | rfl
    · obtain ⟨body, hbody⟩ := hkeeps.bytes
      exact byteLines_of_not_mem (newline_not_mem_intoBytes hkeeps.oneLine) (by simp [hbody])
    · have hline := hkeeps.byteLines []
      rw [List.append_nil] at hline
      exact hline
  rw [hlines, replayLines_cons hkeeps hprev hchecked]
  rfl

/-- Bytes of a line are nothing, a part of its text, or all of it. -/
theorem part_cases {e : StoredEvent} {part rest : Bytes} (h : part ++ rest = lineBytes codec e) :
    part = [] ∨ (part ≠ [] ∧ ∃ more ≠ [], part ++ more = intoBytes (codec.toLine e)) ∨
      part = intoBytes (codec.toLine e) ∨ part = lineBytes codec e := by
  by_cases hnil : part = []
  · exact .inl hnil
  rcases List.append_eq_append_iff.mp h with ⟨more, hline, hrest⟩ | ⟨extra, hextra, hrest⟩
  · by_cases hmore : more = []
    · rw [hmore, List.append_nil] at hline
      exact .inr (.inr (.inl hline.symm))
    · exact .inr (.inl ⟨hnil, more, hmore, hline.symm⟩)
  · cases extra with
    | nil =>
      rw [List.append_nil] at hextra
      exact .inr (.inr (.inl hextra))
    | cons b extra =>
      obtain ⟨rfl, htail⟩ := List.cons_eq_cons.mp hrest
      rw [hextra, (List.append_eq_nil_iff.mp htail.symm).1]
      exact .inr (.inr (.inr rfl))

/-- What is left of a torn line is either no event or one more than was confirmed. -/
theorem replayLines_torn {head : String} {len : ℕ} {e : StoredEvent} {part rest : Bytes}
    (hkeeps : codec.Keeps e) (htruncates : codec.Truncates e) (hprev : e.prevHash = head)
    (hchecked : (auditChain P).Checked e) (hpart : part ++ rest = lineBytes codec e)
    (hne : part ≠ []) (found : String) :
    replayLines P codec head len (byteLines part) ≠ .ok (found, len) := by
  intro h
  rcases part_cases hpart with hnil | ⟨-, more, hmore, hcut⟩ | hwhole
  · exact hne hnil
  · obtain ⟨err, herr⟩ := @replayLines_cut P codec head len e part more hkeeps htruncates hcut hne
      hmore
    rw [herr] at h
    cases h
  · rw [replayLines_whole hkeeps hprev hchecked hwhole] at h
    injection h with h
    have hlen := congrArg Prod.snd h
    simp only at hlen
    omega

/-! ## Runs -/

/-- The state shows the log of the sequential model, with no append under way. -/
def FileState.Shows (s : FileState) (log : FileAuditLog) : Prop :=
  s.opened = true ∧ s.writer = none ∧ s.file = intoBytes log.file ∧ s.head = log.head ∧
    s.len = log.len

/-- An append that nothing interrupts does what `FileAuditLog.append` does. -/
theorem FileState.Shows.append {s : FileState} {log log' : FileAuditLog} {call : AppendCall}
    {receipt : EventReceipt} (h : s.Shows log)
    (happend : log.append P codec call = .ok (receipt, log')) :
    ∃ n, (Machine.run (FileState.next P codec) s [.append call, .write n, .finish]).Shows log' := by
  obtain ⟨hopened, hwriter, hfile, hhead, hlen⟩ := h
  rw [FileAuditLog.append, except_bind_eq_ok] at happend
  obtain ⟨e, hstored, hout⟩ := happend
  cases hout
  have hfirst : s.next P codec (.append call) =
      { s with writer := some ⟨e, lineBytes codec e⟩ } := by
    rw [FileState.next, hopened, hwriter, hlen, hhead, hstored]
    rfl
  refine ⟨(lineBytes codec e).length, ?_⟩
  rw [Machine.run_cons, hfirst]
  simp only [Machine.run_cons, Machine.run_nil, FileState.next, List.take_length, List.drop_length]
  refine ⟨hopened, rfl, ?_, rfl, by rw [hlen]⟩
  simp only [hfile, lineBytes, intoBytes_eq_flatMap, String.toList_append, List.flatMap_append,
    List.append_assoc]
  rfl

/-- The events behind the lines of the file. -/
def fileEvents (codec : LineCodec) (file : Bytes) : Option (List StoredEvent) := do
  let texts ← (byteLines file).mapM fun line => (fromUtf8 line).toOption
  storedEvents codec texts

/-- Once no append is under way, opening the file finds exactly the events whose append returned
`Ok`, and the chain verifies. -/
def FileState.Recovered (P : Primitives) (codec : LineCodec) (s : FileState) : Prop :=
  s.writer = none → ∃ head, replayBytes P codec s.file = .ok (head, s.returned.length) ∧
    verifyBytes P codec s.file head s.returned.length = .ok () ∧
    fileEvents codec s.file = some s.returned

/-- `serde_json` reads back what an append hands it, and nothing cut off. -/
def FileStep.Serialised (P : Primitives) (codec : LineCodec) (s : FileState) : FileStep → Prop
  | .append call =>
    ∀ e, call.stored P s.len s.head = .ok e → codec.Keeps e ∧ codec.Truncates e
  | _ => True

/-- An append that ends without its receipt has written nothing. -/
def FileStep.LeavesNoBytes (codec : LineCodec) (s : FileState) : FileStep → Prop
  | .abandon | .reopen =>
    ∀ w ∈ s.writer, w.rest.length = (lineBytes codec w.stored).length
  | _ => True

/-- The file holds the confirmed events, and after them what the append under way has written. -/
structure FileState.Sound (P : Primitives) (codec : LineCodec) (s : FileState) : Prop where
  opened : s.opened = true
  head : s.head = (auditChain P).head genesisHead s.returned
  len : s.len = s.returned.length
  linked : (auditChain P).Linked genesisHead s.returned
  keeps : ∀ e ∈ s.returned, codec.Keeps e
  quiet : s.writer = none → s.file = writtenBytes codec s.returned
  writing : ∀ w, s.writer = some w →
    (∃ part, part ++ w.rest = lineBytes codec w.stored ∧
      s.file = writtenBytes codec s.returned ++ part) ∧
    w.stored.prevHash = s.head ∧ (auditChain P).Checked w.stored ∧
    codec.Keeps w.stored ∧ codec.Truncates w.stored

theorem byteLines_written {es : List StoredEvent} (h : ∀ e ∈ es, codec.Keeps e) :
    byteLines (writtenBytes codec es) = es.map fun e => intoBytes (codec.toLine e) := by
  induction es with
  | nil => rfl
  | cons e es ih =>
    obtain ⟨he, hes⟩ := List.forall_mem_cons.mp h
    have hfile : writtenBytes codec (e :: es) = lineBytes codec e ++ writtenBytes codec es := by
      simp [writtenBytes]
    rw [hfile, he.byteLines, ih hes, List.map_cons]

theorem fileEvents_written {es : List StoredEvent} (h : ∀ e ∈ es, codec.Keeps e) :
    fileEvents codec (writtenBytes codec es) = some es := by
  have htexts : (es.map fun e => intoBytes (codec.toLine e)).mapM
      (fun line => (fromUtf8 line).toOption) = some (es.map codec.toLine) := by
    clear h
    induction es with
    | nil => rfl
    | cons e es ih =>
      rw [List.map_cons, List.mapM_cons, fromUtf8_intoBytes, ih]
      rfl
  rw [fileEvents, byteLines_written h, htexts]
  exact storedEvents_toLine h

theorem FileState.Sound.recovered {s : FileState} (h : s.Sound P codec) : s.Recovered P codec := by
  intro hquiet
  have hreplay := replayBytes_written h.keeps h.linked
  rw [h.quiet hquiet]
  refine ⟨_, hreplay, ?_, fileEvents_written h.keeps⟩
  rw [verifyBytes, hreplay]
  simp [bind, Except.bind, pure, Except.pure]

/-- A state whose last line is torn is not recovered, whatever was confirmed before. -/
theorem FileState.Sound.torn {s t : FileState} {w : Writing} (h : s.Sound P codec)
    (hw : s.writer = some w) (hsome : w.rest.length ≠ (lineBytes codec w.stored).length)
    (hfile : t.file = s.file) (hwriter : t.writer = none) (hreturned : t.returned = s.returned) :
    ¬t.Recovered P codec := by
  intro hrecovered
  obtain ⟨⟨part, hpart, htail⟩, hprev, hchecked, hkeeps, htruncates⟩ := h.writing w hw
  obtain ⟨found, hreplay, -⟩ := hrecovered hwriter
  have hne : part ≠ [] := by
    rintro rfl
    exact hsome (congrArg List.length hpart)
  rw [hfile, htail, hreturned, replayBytes, replayLines_written h.keeps h.linked,
    Nat.zero_add] at hreplay
  rw [h.head] at hprev
  exact replayLines_torn hkeeps htruncates hprev hchecked hpart hne found hreplay

theorem FileState.Sound.next {s : FileState} {l : FileStep} (h : s.Sound P codec)
    (hserialised : l.Serialised P codec s) (hclean : l.LeavesNoBytes codec s) :
    (s.next P codec l).Sound P codec := by
  have hfile : l = .abandon ∨ l = .reopen → s.file = writtenBytes codec s.returned := by
    intro hl
    cases hw : s.writer with
    | none => exact h.quiet hw
    | some w =>
      obtain ⟨⟨part, hpart, htail⟩, -⟩ := h.writing w hw
      have hlen : w.rest.length = (lineBytes codec w.stored).length := by
        rcases hl with rfl | rfl <;> exact hclean w hw
      have hnil : part = [] := by
        rw [← List.length_eq_zero_iff]
        have := congrArg List.length hpart
        rw [List.length_append] at this
        omega
      rw [htail, hnil, List.append_nil]
  cases l with
  | append call =>
    rw [FileState.next]
    split_ifs with hfree
    · rw [Bool.and_eq_true, Option.isNone_iff_eq_none] at hfree
      split
      · rename_i e hstored
        obtain ⟨hchecked, hprev⟩ := AppendCall.stored_eq_ok hstored
        obtain ⟨hkeeps, htruncates⟩ := hserialised e hstored
        refine { h with quiet := fun hnone => (by cases hnone), writing := ?_ }
        rintro w hw
        cases hw
        exact ⟨⟨[], rfl, by rw [List.append_nil]; exact h.quiet hfree.2⟩, hprev, hchecked, hkeeps,
          htruncates⟩
      · exact h
    · exact h
  | write n =>
    rw [FileState.next]
    split
    · rename_i w hw
      obtain ⟨⟨part, hpart, htail⟩, hrest⟩ := h.writing w hw
      refine { h with quiet := fun hnone => (by cases hnone), writing := ?_ }
      rintro w' hw'
      cases hw'
      refine ⟨⟨part ++ w.rest.take n, ?_, ?_⟩, hrest⟩
      · rw [List.append_assoc, List.take_append_drop, hpart]
      · rw [htail, List.append_assoc]
    · exact h
  | finish =>
    rw [FileState.next]
    split
    · rename_i e hw
      obtain ⟨⟨part, hpart, htail⟩, hprev, hchecked, hkeeps, -⟩ := h.writing _ hw
      rw [List.append_nil] at hpart
      refine ⟨h.opened, ?_, ?_, ?_, ?_, fun _ => ?_, fun w hnone => (by cases hnone)⟩
      · rw [ChainFormat.head_append_singleton]
        rfl
      · rw [List.length_append, h.len]
        rfl
      · rw [ChainFormat.linked_append_singleton]
        exact ⟨h.linked, hprev.trans h.head, hchecked⟩
      · intro d hd
        rcases List.mem_append.mp hd with hd | hd
        · exact h.keeps d hd
        · rw [List.mem_singleton.mp hd]
          exact hkeeps
      · rw [writtenBytes_snoc, ← hpart]
        exact htail
    · exact h
  | abandon =>
    exact { h with quiet := fun _ => hfile (.inl rfl), writing := fun w hnone => (by cases hnone) }
  | reopen =>
    have hreplay := replayBytes_written h.keeps h.linked
    rw [FileState.next, hfile (.inr rfl), hreplay]
    exact ⟨rfl, rfl, rfl, h.linked, h.keeps, fun _ => rfl, fun w hnone => (by cases hnone)⟩

/-- Every run leaves, at each of its points, a file that opens with exactly the confirmed events,
if and only if no append that fails or is cancelled has written a byte. -/
theorem failed_appends_harmless_iff (steps : List FileStep)
    (hserialised : Machine.Along (FileState.next P codec) (fun s l => l.Serialised P codec s) {}
      steps) :
    (∀ done, done <+: steps →
        (Machine.run (FileState.next P codec) {} done).Recovered P codec) ↔
      Machine.Along (FileState.next P codec) (fun s l => l.LeavesNoBytes codec s) {} steps := by
  refine Machine.everywhere_iff_along hserialised (I := FileState.Sound P codec) ?_
    (fun s hs => hs.recovered) (fun s l hs hl hclean => hs.next hl hclean) ?_
  · exact ⟨rfl, rfl, rfl, trivial, by simp, fun _ => rfl, fun w hnone => by cases hnone⟩
  · intro s l hs _ hdirty
    cases l with
    | append call => exact (hdirty trivial).elim
    | write n => exact (hdirty trivial).elim
    | finish => exact (hdirty trivial).elim
    | abandon =>
      simp only [FileStep.LeavesNoBytes, not_forall] at hdirty
      obtain ⟨w, hw, hsome⟩ := hdirty
      exact hs.torn hw hsome rfl rfl rfl
    | reopen =>
      simp only [FileStep.LeavesNoBytes, not_forall] at hdirty
      obtain ⟨w, hw, hsome⟩ := hdirty
      refine hs.torn hw hsome ?_ ?_ ?_
      all_goals
        rw [FileState.next]
        split <;> rfl

theorem sampleCodec_unreadable {text : String} (h₁ : text ≠ sampleLine "evt_1")
    (h₂ : text ≠ sampleLine "evt_2") : sampleCodec.fromLine text = .error "not a stored event" := by
  simp only [sampleCodec, if_neg h₁, if_neg h₂]

theorem utf8ByteSize_sampleLine {a b : String} (h : a.utf8ByteSize = b.utf8ByteSize) :
    (sampleLine a).utf8ByteSize = (sampleLine b).utf8ByteSize := by
  have happend : ∀ {s t : String} (u : String), s.utf8ByteSize = t.utf8ByteSize →
      (s ++ u).utf8ByteSize = (t ++ u).utf8ByteSize := by
    intro s t u hst
    rw [String.utf8ByteSize_append, String.utf8ByteSize_append, hst]
  unfold sampleLine
  iterate 7 apply happend
  rw [String.utf8ByteSize_append, String.utf8ByteSize_append, h]

theorem sampleCodec_truncates : sampleCodec.Truncates (sampleStored samplePayload "evt_1") := by
  intro text _ hcut hne
  refine ⟨_, sampleCodec_unreadable hne ?_⟩
  rintro rfl
  -- the other line is as long as this one
  obtain ⟨more, hmore⟩ := hcut
  change intoBytes (sampleLine "evt_2") ++ more = intoBytes (sampleLine "evt_1") at hmore
  have hsize : (intoBytes (sampleLine "evt_2")).length = (intoBytes (sampleLine "evt_1")).length :=
    utf8ByteSize_sampleLine (by decide)
  have hlen := congrArg List.length hmore
  rw [List.length_append] at hlen
  have hnil : more = [] := List.eq_nil_of_length_eq_zero (by omega)
  rw [hnil, List.append_nil, intoBytes_inj] at hmore
  exact hne hmore

theorem sampleCall_serialised {s : FileState} (hlen : s.len = 0) (hhead : s.head = genesisHead) :
    (FileStep.append (sampleCall samplePayload "evt_1")).Serialised samplePrimitives sampleCodec
      s := by
  intro e he
  rw [hlen, hhead, sampleCall_stored] at he
  cases he
  exact ⟨sampleCodec_keeps, sampleCodec_truncates⟩

/-- The bytes of the sample event's line. -/
def sampleBytes : Bytes := lineBytes sampleCodec (sampleStored samplePayload "evt_1")

theorem sampleCall_next {s : FileState} (hopened : s.opened = true) (hwriter : s.writer = none)
    (hlen : s.len = 0) (hhead : s.head = genesisHead) :
    s.next samplePrimitives sampleCodec (.append (sampleCall samplePayload "evt_1")) =
      { s with writer := some ⟨sampleStored samplePayload "evt_1", sampleBytes⟩ } := by
  rw [FileState.next, hopened, hwriter, hlen, hhead, sampleCall_stored]
  rfl

/-- An append is cancelled after `n` bytes of its line; the next append succeeds. -/
def retrySteps (n : ℕ) : List FileStep :=
  [.append (sampleCall samplePayload "evt_1"), .write n, .abandon,
    .append (sampleCall samplePayload "evt_1"), .write sampleBytes.length, .finish]

theorem retrySteps_run (n : ℕ) :
    Machine.run (FileState.next samplePrimitives sampleCodec) {} (retrySteps n) =
      { file := sampleBytes.take n ++ sampleBytes, head := sampleHash, len := 1
        returned := [sampleStored samplePayload "evt_1"] } := by
  simp only [retrySteps, Machine.run_cons, Machine.run_nil]
  rw [sampleCall_next rfl rfl rfl rfl]
  simp only [FileState.next.eq_2, FileState.next.eq_4]
  rw [sampleCall_next rfl rfl rfl rfl]
  simp only [FileState.next, List.take_length, List.drop_length]
  rfl

theorem retrySteps_serialised (n : ℕ) :
    Machine.Along (FileState.next samplePrimitives sampleCodec)
      (fun s l => l.Serialised samplePrimitives sampleCodec s) {} (retrySteps n) := by
  refine ⟨sampleCall_serialised rfl rfl, trivial, trivial, ?_, trivial, trivial, trivial⟩
  rw [sampleCall_next rfl rfl rfl rfl]
  exact sampleCall_serialised rfl rfl

theorem brace_sampleLine_ne {eventId : String} (h : eventId.utf8ByteSize = 5) :
    "\x7b" ++ sampleLine "evt_1" ≠ sampleLine eventId := by
  intro heq
  have hsize := congrArg String.utf8ByteSize heq
  have hid : (sampleLine eventId).utf8ByteSize = (sampleLine "evt_1").utf8ByteSize :=
    utf8ByteSize_sampleLine h
  have hbrace : "\x7b".utf8ByteSize = 1 := by decide
  rw [String.utf8ByteSize_append, hid, hbrace] at hsize
  omega

/-- A first line between braces that is not JSON is refused. -/
theorem replayBytes_unreadable {text message : String} {body : Bytes}
    (hbody : intoBytes text = 123 :: body ++ [125]) (hnewline : 10 ∉ intoBytes text)
    (hread : codec.fromLine text = .error message) :
    replayBytes P codec (intoBytes text ++ [10]) = .error (.serialization message) := by
  have hrev : (intoBytes text).reverse = 125 :: (body.reverse ++ [123]) := by
    rw [hbody]
    simp
  have hlines : byteLines (intoBytes text ++ [10]) = [intoBytes text] := by
    rw [byteLines, byteLinesFrom_append hnewline, List.append_nil, hrev,
      byteLinesFrom_newline (by decide), ← hrev, List.reverse_reverse]
    rfl
  rw [replayBytes, hlines, replayLines, fromUtf8_intoBytes]
  simp [Except.mapError, not_blank_of_brace hbody, hread, bind, Except.bind]

/-- A line glued to the first byte of another is no JSON. -/
theorem replayBytes_glued : replayBytes samplePrimitives sampleCodec
    (sampleBytes.take 1 ++ sampleBytes) = .error (.serialization "not a stored event") := by
  obtain ⟨body, hbody⟩ := sampleCodec_keeps.bytes
  have hline := newline_not_mem_intoBytes sampleCodec_keeps.oneLine
  change intoBytes (sampleLine "evt_1") = _ at hbody
  change 10 ∉ intoBytes (sampleLine "evt_1") at hline
  have hglued : intoBytes ("\x7b" ++ sampleLine "evt_1") = 123 :: intoBytes (sampleLine "evt_1") := by
    have hbrace : "\x7b".toList.flatMap String.utf8EncodeChar = [123] := by decide
    rw [intoBytes_eq_flatMap, intoBytes_eq_flatMap, String.toList_append, List.flatMap_append,
      hbrace, List.singleton_append]
  have hfile : sampleBytes.take 1 ++ sampleBytes =
      intoBytes ("\x7b" ++ sampleLine "evt_1") ++ [10] := by
    change (intoBytes (sampleLine "evt_1") ++ [10]).take 1 ++
      (intoBytes (sampleLine "evt_1") ++ [10]) = _
    rw [hglued, hbody]
    rfl
  rw [hfile]
  refine @replayBytes_unreadable _ _ _ _ (123 :: body) (by rw [hglued, hbody]; rfl) ?_ ?_
  · rw [hglued, List.mem_cons, not_or]
    exact ⟨by decide, hline⟩
  · exact sampleCodec_unreadable (brace_sampleLine_ne (by decide)) (brace_sampleLine_ne (by decide))

/-- After one byte of a cancelled append, an append that returned `Ok` is followed by a file that
no longer opens. -/
theorem torn_line_blocks_open :
    Machine.Along (FileState.next samplePrimitives sampleCodec)
        (fun s l => l.Serialised samplePrimitives sampleCodec s) {} (retrySteps 1) ∧
      (Machine.run (FileState.next samplePrimitives sampleCodec) {}
        (retrySteps 1)).returned.length = 1 ∧
      replayBytes samplePrimitives sampleCodec
          (Machine.run (FileState.next samplePrimitives sampleCodec) {} (retrySteps 1)).file =
        .error (.serialization "not a stored event") := by
  rw [retrySteps_run]
  exact ⟨retrySteps_serialised 1, rfl, replayBytes_glued⟩

theorem failed_appends_harmless_iff_retry :
    Machine.Along (FileState.next samplePrimitives sampleCodec)
        (fun s l => l.Serialised samplePrimitives sampleCodec s) {} (retrySteps 0) ∧
      (Machine.run (FileState.next samplePrimitives sampleCodec) {}
        (retrySteps 0)).Recovered samplePrimitives sampleCodec := by
  have hclean : Machine.Along (FileState.next samplePrimitives sampleCodec)
      (fun s l => l.LeavesNoBytes sampleCodec s) {} (retrySteps 0) := by
    refine ⟨trivial, trivial, ?_, trivial, trivial, trivial, trivial⟩
    rw [sampleCall_next rfl rfl rfl rfl]
    rintro w hw
    cases hw
    rfl
  exact ⟨retrySteps_serialised 0,
    (failed_appends_harmless_iff (retrySteps 0) (retrySteps_serialised 0)).mpr hclean _
      (List.prefix_refl _)⟩

end AgentExchange.Audit
