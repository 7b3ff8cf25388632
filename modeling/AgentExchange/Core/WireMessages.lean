import AgentExchange.Core.Wire

/-!
# The canonical formats are injective and pairwise disjoint

A call of an encoder is a `Message`. Encoding succeeds only on fields without a
line feed, so the bytes split back into the header and the `key=value` lines; the
header names the encoder, and for a fixed encoder the lines name every argument.
-/
namespace AgentExchange.Wire

/-- The twelve encoders, with the arguments of one call. -/
inductive Message where
  | registrationChallengeBytes (publicKeyHex org name nonce : String) (issuedAtUnix : Int64)
  | transferIntentBytes (senderAgentId recipient : String) (sizeBytes : UInt64)
      (declaredMime filename nonce : String) (issuedAtUnix : Int64)
  | dataTicketBytes (transferId recipientAgentId dataPlaneUrl : String) (expiresUnix : Int64)
      (nonce : String)
  | rotateKeyChallengeBytes (agentId oldPublicKeyHex newPublicKeyHex nonce : String)
      (issuedAtUnix : Int64)
  | transferReceiptBytes (recipientAgentId transferId action nonce : String)
      (issuedAtUnix : Int64)
  | registrationChallengeBytesV2 (publicKeyHex org name nonce : String) (issuedAtUnix : Int64)
  | transferIntentBytesV2 (senderAgentId recipient : String) (sizeBytes : UInt64)
      (declaredMime filename nonce : String) (issuedAtUnix : Int64)
  | dataTicketBytesV2 (transferId recipientAgentId dataPlaneUrl : String) (expiresUnix : Int64)
      (nonce : String)
  | rotateKeyChallengeBytesV2 (agentId oldPublicKeyHex newPublicKeyHex nonce : String)
      (issuedAtUnix : Int64)
  | transferReceiptBytesV2 (recipientAgentId transferId action nonce : String)
      (issuedAtUnix : Int64)
  | decisionRequestBytesV2 (recipientAgentId transferId decisionId : String)
      (etaSeconds : UInt64) (nonce : String) (issuedAtUnix : Int64)
  | decisionResponseBytesV2 (recipientAgentId transferId decisionId outcome reason nonce : String)
      (issuedAtUnix : Int64)
  deriving DecidableEq, Repr

namespace Message

def encode : Message → Except Error Bytes
  | registrationChallengeBytes p o n c t => Wire.registrationChallengeBytes p o n c t
  | transferIntentBytes s r z m f c t => Wire.transferIntentBytes s r z m f c t
  | dataTicketBytes x r u e c => Wire.dataTicketBytes x r u e c
  | rotateKeyChallengeBytes a o n c t => Wire.rotateKeyChallengeBytes a o n c t
  | transferReceiptBytes r x a c t => Wire.transferReceiptBytes r x a c t
  | registrationChallengeBytesV2 p o n c t => Wire.registrationChallengeBytesV2 p o n c t
  | transferIntentBytesV2 s r z m f c t => Wire.transferIntentBytesV2 s r z m f c t
  | dataTicketBytesV2 x r u e c => Wire.dataTicketBytesV2 x r u e c
  | rotateKeyChallengeBytesV2 a o n c t => Wire.rotateKeyChallengeBytesV2 a o n c t
  | transferReceiptBytesV2 r x a c t => Wire.transferReceiptBytesV2 r x a c t
  | decisionRequestBytesV2 r x d e c t => Wire.decisionRequestBytesV2 r x d e c t
  | decisionResponseBytesV2 r x d o w c t => Wire.decisionResponseBytesV2 r x d o w c t

/-- The header line of the encoder that was called. -/
def header : Message → String
  | registrationChallengeBytes .. => "spize-register:v1"
  | transferIntentBytes .. => "spize-transfer-intent:v1"
  | dataTicketBytes .. => "spize-data-ticket:v1"
  | rotateKeyChallengeBytes .. => "spize-rotate-key:v1"
  | transferReceiptBytes .. => "spize-transfer-receipt:v1"
  | registrationChallengeBytesV2 .. => "aex-register:v2"
  | transferIntentBytesV2 .. => "aex-transfer-intent:v2"
  | dataTicketBytesV2 .. => "aex-data-ticket:v2"
  | rotateKeyChallengeBytesV2 .. => "aex-rotate-key:v2"
  | transferReceiptBytesV2 .. => "aex-transfer-receipt:v2"
  | decisionRequestBytesV2 .. => "aex-decision-request:v2"
  | decisionResponseBytesV2 .. => "aex-decision-response:v2"

/-- The `key=value` pairs that follow the header. -/
def fields : Message → List (String × String)
  | registrationChallengeBytes p o n c t | registrationChallengeBytesV2 p o n c t =>
    [("pub", p), ("org", o), ("name", n), ("nonce", c), ("ts", toString t)]
  | transferIntentBytes s r z m f c t | transferIntentBytesV2 s r z m f c t =>
    [("sender", s), ("recipient", r), ("size", toString z), ("mime", m), ("filename", f),
      ("nonce", c), ("ts", toString t)]
  | dataTicketBytes x r u e c | dataTicketBytesV2 x r u e c =>
    [("transfer", x), ("recipient", r), ("data_plane", u), ("expires", toString e), ("nonce", c)]
  | rotateKeyChallengeBytes a o n c t | rotateKeyChallengeBytesV2 a o n c t =>
    [("agent", a), ("old_pub", o), ("new_pub", n), ("nonce", c), ("ts", toString t)]
  | transferReceiptBytes r x a c t | transferReceiptBytesV2 r x a c t =>
    [("recipient", r), ("transfer", x), ("action", a), ("nonce", c), ("ts", toString t)]
  | decisionRequestBytesV2 r x d e c t =>
    [("recipient", r), ("transfer", x), ("decision", d), ("eta_secs", toString e), ("nonce", c),
      ("ts", toString t)]
  | decisionResponseBytesV2 r x d o w c t =>
    [("recipient", r), ("transfer", x), ("decision", d), ("outcome", o), ("reason", w),
      ("nonce", c), ("ts", toString t)]

end Message

/-- A text that occupies one line. -/
def OneLine (s : String) : Prop := '\n' ∉ s.toList

theorem oneLine_of_validateAsciiLine {s field : String} {u : Unit}
    (h : validateAsciiLine s field = .ok u) : OneLine s := by
  unfold validateAsciiLine at h
  split at h
  · cases h
  · split at h
    · cases h
    · rename_i hnone
      intro hm
      simpa using firstBadChar_eq_none hnone _ hm

theorem oneLine_of_validateAsciiLineOpt {s field : String} {u : Unit}
    (h : validateAsciiLineOpt s field = .ok u) : OneLine s := by
  unfold validateAsciiLineOpt at h
  split_ifs at h with he
  · have hs : s = "" := by simpa using he
    simp [OneLine, hs]
  · exact oneLine_of_validateAsciiLine h

theorem oneLine_of_validateNonce {nonce : String} {u : Unit} (h : validateNonce nonce = .ok u) :
    OneLine nonce := by
  unfold validateNonce at h
  split_ifs at h with hlen hhex
  intro hm
  exact absurd (List.all_eq_true.mp hhex _ hm) (by decide)

theorem oneLine_uint64 (n : UInt64) : OneLine (toString n) :=
  Library.not_mem_natRepr (by decide)

theorem oneLine_int64 (i : Int64) : OneLine (toString i) :=
  Library.not_mem_intRepr (by decide) (by decide)

theorem toString_uint64_inj {m n : UInt64} (h : toString m = toString n) : m = n :=
  UInt64.toNat_inj.mp (Nat.repr_inj.mp h)

theorem toString_int64_inj {i j : Int64} (h : toString i = toString j) : i = j :=
  Int64.toInt_inj.mp (Int.repr_inj.mp h)

/-- What a successful encoder returns: its header and fields, each on one line. -/
structure Framed (bytes : Bytes) (header : String) (fields : List (String × String)) : Prop where
  bytes_eq : bytes = canonicalMessage header fields
  values : ∀ f ∈ fields, OneLine f.2

theorem Framed.of_pure {bytes : Bytes} {header : String} {fields : List (String × String)}
    (h : (pure (canonicalMessage header fields) : Except Error Bytes) = .ok bytes)
    (values : ∀ f ∈ fields, OneLine f.2) : Framed bytes header fields := by
  cases h
  exact ⟨rfl, values⟩

theorem registrationChallenge_framed {header p o n c : String} {t : Int64} {bytes : Bytes}
    (h : registrationChallenge header p o n c t = .ok bytes) :
    Framed bytes header [("pub", p), ("org", o), ("name", n), ("nonce", c), ("ts", toString t)] := by
  simp only [registrationChallenge, Library.except_bind_eq_ok] at h
  obtain ⟨_, hp, _, ho, _, hn, _, hc, h⟩ := h
  apply Framed.of_pure h
  simp [oneLine_of_validateAsciiLine hp, oneLine_of_validateAsciiLine ho,
    oneLine_of_validateAsciiLine hn, oneLine_of_validateNonce hc, oneLine_int64]

theorem transferIntent_framed {header s r m f c : String} {z : UInt64} {t : Int64} {bytes : Bytes}
    (h : transferIntent header s r z m f c t = .ok bytes) :
    Framed bytes header [("sender", s), ("recipient", r), ("size", toString z), ("mime", m),
      ("filename", f), ("nonce", c), ("ts", toString t)] := by
  simp only [transferIntent, Library.except_bind_eq_ok] at h
  obtain ⟨_, hs, _, hr, _, hm, _, hf, _, hc, h⟩ := h
  apply Framed.of_pure h
  simp [oneLine_of_validateAsciiLine hs, oneLine_of_validateAsciiLine hr,
    oneLine_of_validateAsciiLineOpt hm, oneLine_of_validateAsciiLineOpt hf,
    oneLine_of_validateNonce hc, oneLine_int64, oneLine_uint64]

theorem dataTicket_framed {header x r u c : String} {e : Int64} {bytes : Bytes}
    (h : dataTicket header x r u e c = .ok bytes) :
    Framed bytes header [("transfer", x), ("recipient", r), ("data_plane", u),
      ("expires", toString e), ("nonce", c)] := by
  simp only [dataTicket, Library.except_bind_eq_ok] at h
  obtain ⟨_, hx, _, hr, _, hu, _, hc, h⟩ := h
  apply Framed.of_pure h
  simp [oneLine_of_validateAsciiLine hx, oneLine_of_validateAsciiLine hr,
    oneLine_of_validateAsciiLine hu, oneLine_of_validateNonce hc, oneLine_int64]

theorem rotateKeyChallenge_framed {header a o n c : String} {t : Int64} {bytes : Bytes}
    (h : rotateKeyChallenge header a o n c t = .ok bytes) :
    Framed bytes header [("agent", a), ("old_pub", o), ("new_pub", n), ("nonce", c),
      ("ts", toString t)] := by
  simp only [rotateKeyChallenge, Library.except_bind_eq_ok] at h
  obtain ⟨_, ha, _, ho, _, hn, _, hc, h⟩ := h
  split_ifs at h with hsame
  · cases h
  · apply Framed.of_pure h
    simp [oneLine_of_validateAsciiLine ha, oneLine_of_validateAsciiLine ho,
      oneLine_of_validateAsciiLine hn, oneLine_of_validateNonce hc, oneLine_int64]

theorem transferReceipt_framed {header r x a c : String} {t : Int64} {bytes : Bytes}
    (h : transferReceipt header r x a c t = .ok bytes) :
    Framed bytes header [("recipient", r), ("transfer", x), ("action", a), ("nonce", c),
      ("ts", toString t)] := by
  simp only [transferReceipt, Library.except_bind_eq_ok] at h
  obtain ⟨_, hr, _, hx, _, ha, _, hc, h⟩ := h
  split_ifs at h with hact
  · apply Framed.of_pure h
    simp [oneLine_of_validateAsciiLine hr, oneLine_of_validateAsciiLine hx,
      oneLine_of_validateAsciiLine ha, oneLine_of_validateNonce hc, oneLine_int64]
  · cases h

theorem decisionRequestBytesV2_framed {r x d c : String} {e : UInt64} {t : Int64} {bytes : Bytes}
    (h : decisionRequestBytesV2 r x d e c t = .ok bytes) :
    Framed bytes "aex-decision-request:v2" [("recipient", r), ("transfer", x), ("decision", d),
      ("eta_secs", toString e), ("nonce", c), ("ts", toString t)] := by
  simp only [decisionRequestBytesV2, Library.except_bind_eq_ok] at h
  obtain ⟨_, hr, _, hx, _, hd, _, hc, h⟩ := h
  apply Framed.of_pure h
  simp [oneLine_of_validateAsciiLine hr, oneLine_of_validateAsciiLine hx,
    oneLine_of_validateAsciiLine hd, oneLine_of_validateNonce hc, oneLine_int64, oneLine_uint64]

theorem decisionResponseBytesV2_framed {r x d o w c : String} {t : Int64} {bytes : Bytes}
    (h : decisionResponseBytesV2 r x d o w c t = .ok bytes) :
    Framed bytes "aex-decision-response:v2" [("recipient", r), ("transfer", x), ("decision", d),
      ("outcome", o), ("reason", w), ("nonce", c), ("ts", toString t)] := by
  simp only [decisionResponseBytesV2, Library.except_bind_eq_ok] at h
  obtain ⟨_, hr, _, hx, _, hd, _, ho, _, hw, _, hc, h⟩ := h
  split_ifs at h with hout
  · apply Framed.of_pure h
    simp [oneLine_of_validateAsciiLine hr, oneLine_of_validateAsciiLine hx,
      oneLine_of_validateAsciiLine hd, oneLine_of_validateAsciiLine ho,
      oneLine_of_validateAsciiLineOpt hw, oneLine_of_validateNonce hc, oneLine_int64]
  · cases h

theorem Message.encode_framed {m : Message} {bytes : Bytes} (h : m.encode = .ok bytes) :
    Framed bytes m.header m.fields := by
  cases m with
  | registrationChallengeBytes | registrationChallengeBytesV2 =>
    exact registrationChallenge_framed h
  | transferIntentBytes | transferIntentBytesV2 => exact transferIntent_framed h
  | dataTicketBytes | dataTicketBytesV2 => exact dataTicket_framed h
  | rotateKeyChallengeBytes | rotateKeyChallengeBytesV2 => exact rotateKeyChallenge_framed h
  | transferReceiptBytes | transferReceiptBytesV2 => exact transferReceipt_framed h
  | decisionRequestBytesV2 => exact decisionRequestBytesV2_framed h
  | decisionResponseBytesV2 => exact decisionResponseBytesV2_framed h

theorem Message.encode_eq_ok_iff {m : Message} (h : m.encode.isOk = true) {bytes : Bytes} :
    m.encode = .ok bytes ↔ bytes = canonicalMessage m.header m.fields := by
  cases hencode : m.encode with
  | error e =>
    rw [hencode] at h
    cases h
  | ok text =>
    rw [Except.ok.injEq, (Message.encode_framed hencode).bytes_eq]
    exact eq_comm

theorem Message.header_oneLine (m : Message) : OneLine m.header := by
  cases m <;> simp [OneLine, header]

theorem Message.keys_oneLine (m : Message) : ∀ f ∈ m.fields, OneLine f.1 := by
  cases m <;> simp [fields, OneLine]

theorem Message.lines_oneLine {m : Message} {bytes : Bytes} (h : m.encode = .ok bytes) :
    ∀ l ∈ m.header :: m.fields.map (fun f => f.1 ++ "=" ++ f.2), OneLine l := by
  intro l hl
  rcases List.mem_cons.mp hl with rfl | hl
  · exact m.header_oneLine
  · obtain ⟨f, hf, rfl⟩ := List.mem_map.mp hl
    have hk := m.keys_oneLine f hf
    have hv := (encode_framed h).values f hf
    simp [OneLine] at hk hv ⊢
    exact ⟨hk, hv⟩

/-- Equal bytes give equal headers and equal field lines. -/
theorem Message.encode_lines {m m' : Message} {bytes : Bytes} (h : m.encode = .ok bytes)
    (h' : m'.encode = .ok bytes) :
    m.header = m'.header ∧ m.fields.map (fun f => f.1 ++ "=" ++ f.2) =
      m'.fields.map (fun f => f.1 ++ "=" ++ f.2) := by
  apply Library.lineText_inj (lines_oneLine h) (lines_oneLine h')
  apply intoBytes_inj.mp
  exact (encode_framed h).bytes_eq.symm.trans (encode_framed h').bytes_eq

/-- The header and the field lines name the encoder and all its arguments, the decimal
integers included. -/
theorem Message.eq_of_lines {m m' : Message} (hh : m.header = m'.header)
    (hf : m.fields.map (fun f => f.1 ++ "=" ++ f.2) =
      m'.fields.map (fun f => f.1 ++ "=" ++ f.2)) : m = m' := by
  -- The header singles out the encoder; what is left are the twelve equal pairs.
  cases m <;> cases m' <;> simp only [header, String.reduceEq] at hh
  all_goals
    simp only [fields, List.map_cons, List.map_nil, List.cons.injEq, String.append_right_inj,
      and_true] at hf
  case registrationChallengeBytes.registrationChallengeBytes =>
    obtain ⟨rfl, rfl, rfl, rfl, ht⟩ := hf
    rw [toString_int64_inj ht]
  case transferIntentBytes.transferIntentBytes =>
    obtain ⟨rfl, rfl, hz, rfl, rfl, rfl, ht⟩ := hf
    rw [toString_uint64_inj hz, toString_int64_inj ht]
  case dataTicketBytes.dataTicketBytes =>
    obtain ⟨rfl, rfl, rfl, he, rfl⟩ := hf
    rw [toString_int64_inj he]
  case rotateKeyChallengeBytes.rotateKeyChallengeBytes =>
    obtain ⟨rfl, rfl, rfl, rfl, ht⟩ := hf
    rw [toString_int64_inj ht]
  case transferReceiptBytes.transferReceiptBytes =>
    obtain ⟨rfl, rfl, rfl, rfl, ht⟩ := hf
    rw [toString_int64_inj ht]
  case registrationChallengeBytesV2.registrationChallengeBytesV2 =>
    obtain ⟨rfl, rfl, rfl, rfl, ht⟩ := hf
    rw [toString_int64_inj ht]
  case transferIntentBytesV2.transferIntentBytesV2 =>
    obtain ⟨rfl, rfl, hz, rfl, rfl, rfl, ht⟩ := hf
    rw [toString_uint64_inj hz, toString_int64_inj ht]
  case dataTicketBytesV2.dataTicketBytesV2 =>
    obtain ⟨rfl, rfl, rfl, he, rfl⟩ := hf
    rw [toString_int64_inj he]
  case rotateKeyChallengeBytesV2.rotateKeyChallengeBytesV2 =>
    obtain ⟨rfl, rfl, rfl, rfl, ht⟩ := hf
    rw [toString_int64_inj ht]
  case transferReceiptBytesV2.transferReceiptBytesV2 =>
    obtain ⟨rfl, rfl, rfl, rfl, ht⟩ := hf
    rw [toString_int64_inj ht]
  case decisionRequestBytesV2.decisionRequestBytesV2 =>
    obtain ⟨rfl, rfl, rfl, he, rfl, ht⟩ := hf
    rw [toString_uint64_inj he, toString_int64_inj ht]
  case decisionResponseBytesV2.decisionResponseBytesV2 =>
    obtain ⟨rfl, rfl, rfl, rfl, rfl, rfl, ht⟩ := hf
    rw [toString_int64_inj ht]

/-- A canonical byte string determines the encoder it came from and every argument: no two
calls, of any two of the twelve encoders, return the same bytes. -/
theorem Message.eq_of_encode_ok {m m' : Message} {bytes : Bytes} (h : m.encode = .ok bytes)
    (h' : m'.encode = .ok bytes) : m = m' := by
  obtain ⟨hh, hf⟩ := encode_lines h h'
  exact eq_of_lines hh hf

/-- Two calls that build the same download receipt, one from the parts of its transfer id. -/
theorem Message.eq_of_encode_ok_receipt :
    (transferReceiptBytes "spize:acme/bob:ddeeff" "tx_abc123" "download"
      "0123456789abcdef0123456789abcdef" 1700000000).encode =
      .ok (intoBytes ("spize-transfer-receipt:v1\nrecipient=spize:acme/bob:ddeeff\n" ++
        "transfer=tx_abc123\naction=download\nnonce=0123456789abcdef0123456789abcdef\n" ++
        "ts=1700000000")) ∧
    transferReceiptBytes "spize:acme/bob:ddeeff" "tx_abc123" "download"
      "0123456789abcdef0123456789abcdef" 1700000000 =
    transferReceiptBytes "spize:acme/bob:ddeeff" ("tx_" ++ "abc" ++ toString 123) "download"
      "0123456789abcdef0123456789abcdef" 1700000000 := by
  have h : (transferReceiptBytes "spize:acme/bob:ddeeff" "tx_abc123" "download"
      "0123456789abcdef0123456789abcdef" 1700000000).encode =
      .ok (intoBytes ("spize-transfer-receipt:v1\nrecipient=spize:acme/bob:ddeeff\n" ++
        "transfer=tx_abc123\naction=download\nnonce=0123456789abcdef0123456789abcdef\n" ++
        "ts=1700000000")) := by decide +kernel
  exact ⟨h, eq_of_encode_ok h (by decide +kernel)⟩

end AgentExchange.Wire
