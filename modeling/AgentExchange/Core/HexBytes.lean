import AgentExchange.Core.Text

/-!
# The hexadecimal text of a signature

The codec in `signature.rs` is not the one of the `hex` crate. It cuts the text every two bytes
and hands each slice to `u8::from_str_radix`, which takes a `+` in front of a digit; a slice
that does not end between two characters panics.
-/
namespace AgentExchange.HexBytes

/-- How decoding fails. -/
inductive DecodeFailure where
  | error (message : String)
  | panic
  deriving DecidableEq

def hexEncode (bytes : Bytes) : String :=
  String.ofList (bytes.flatMap fun b => [hexDigit (b.toNat / 16), hexDigit (b.toNat % 16)])

/-- `char::to_digit(16)`. -/
def toDigit (c : Char) : Option ℕ :=
  if '0' ≤ c && c ≤ '9' then some (c.toNat - 48)
  else if 'a' ≤ c && c ≤ 'f' then some (c.toNat - 87)
  else if 'A' ≤ c && c ≤ 'F' then some (c.toNat - 55)
  else none

/-- The value of the digits, most significant first. -/
def digits (value : ℕ) : List Char → Except String UInt8
  | [] => .ok (UInt8.ofNat value)
  | c :: rest =>
    match toDigit c with
    | none => .error "invalid digit found in string"
    | some d =>
      if 255 < 16 * value + d then .error "number too large to fit in target type"
      else digits (16 * value + d) rest

/-- `u8::from_str_radix(_, 16)`. -/
def fromStrRadix : List Char → Except String UInt8
  | [] => .error "cannot parse integer from empty string"
  | ['+'] => .error "invalid digit found in string"
  | '+' :: rest => digits 0 rest
  | text => digits 0 text

/-- The text up to a byte index and the rest; `none` where the index is inside a character or
past the end. -/
def splitAtByte : ℕ → List Char → Option (List Char × List Char)
  | 0, cs => some ([], cs)
  | _ + 1, [] => none
  | n + 1, c :: cs =>
    if c.utf8Size ≤ n + 1 then
      (splitAtByte (n + 1 - c.utf8Size) cs).map fun p => (c :: p.1, p.2)
    else none

/-- The loop, from byte `i` on. -/
def decodePairs : ℕ → ℕ → List Char → Except DecodeFailure Bytes
  | 0, _, _ => .ok []
  | n + 1, i, cs =>
    match splitAtByte 2 cs with
    | none => .error .panic
    | some (pair, rest) =>
      match fromStrRadix pair with
      | .error e => .error (.error ("invalid hex at " ++ toString i ++ ": " ++ e))
      | .ok byte => (decodePairs n (i + 2) rest).map fun bytes => byte :: bytes

def hexDecode (s : String) : Except DecodeFailure Bytes :=
  if s.utf8ByteSize % 2 ≠ 0 then
    .error (.error ("odd hex length: " ++ toString s.utf8ByteSize))
  else decodePairs (s.utf8ByteSize / 2) 0 s.toList

example : hexDecode "deadBEEF" = .ok [0xde, 0xad, 0xbe, 0xef] := by decide +kernel

/-! ## What is hexadecimal -/

/-- An even number of hexadecimal digits. -/
def IsHex (s : String) : Prop :=
  s.toList.length % 2 = 0 ∧ ∀ c ∈ s.toList, isAsciiHexdigit c = true

def lowercase (s : String) : String := String.ofList (s.toList.map Char.toLower)

/-- The codec is exact at a text: what is hexadecimal is decoded and comes back in lower case,
anything else is an error. -/
def ExactAt (s : String) : Prop :=
  (IsHex s → ∃ bytes, hexDecode s = .ok bytes ∧ hexEncode bytes = lowercase s) ∧
    (¬IsHex s → ∃ message, hexDecode s = .error (.error message))

/-- A slice that is taken: a digit, or a `+`, and a digit. -/
def isPair (a b : Char) : Bool := (isAsciiHexdigit a || a = '+') && isAsciiHexdigit b

/-- What is left after the slices that are taken. -/
def afterPairs : List Char → List Char
  | a :: b :: rest => if isPair a b then afterPairs rest else a :: b :: rest
  | cs => cs

/-- Where every slice is taken, none has a `+`, and otherwise the first that is not ends between
two characters. -/
def Regular (s : String) : Prop :=
  s.utf8ByteSize % 2 = 0 →
    if afterPairs s.toList = [] then '+' ∉ s.toList
    else splitAtByte 2 (afterPairs s.toList) ≠ none

instance (s : String) : Decidable (Regular s) := inferInstanceAs (Decidable (_ → _))

/-! ## Slices -/

def byteLength (cs : List Char) : ℕ := (cs.map Char.utf8Size).sum

theorem utf8ByteSize_eq (s : String) : s.utf8ByteSize = byteLength s.toList := by
  change (intoBytes s).length = byteLength s.toList
  rw [intoBytes_eq_flatMap, List.length_flatMap, byteLength]
  simp [String.length_utf8EncodeChar]

theorem utf8Size_of_isAscii {c : Char} (h : isAscii c = true) : c.utf8Size = 1 := by
  rw [← String.length_utf8EncodeChar, utf8EncodeChar_of_isAscii h]
  rfl

/-- A slice of two bytes is two ASCII characters or one of two bytes. -/
theorem splitAtByte_two {cs pair rest : List Char} (h : splitAtByte 2 cs = some (pair, rest)) :
    (∃ a b, cs = a :: b :: rest ∧ pair = [a, b]) ∨
      ∃ a, cs = a :: rest ∧ pair = [a] ∧ a.utf8Size = 2 := by
  cases cs with
  | nil => cases h
  | cons a cs =>
    have hpos := a.utf8Size_pos
    rw [splitAtByte] at h
    split_ifs at h with ha
    by_cases htwo : a.utf8Size = 2
    · rw [htwo, Nat.sub_self, splitAtByte] at h
      cases h
      exact .inr ⟨a, rfl, rfl, htwo⟩
    · have hone : a.utf8Size = 1 := by omega
      rw [hone, Nat.add_sub_cancel] at h
      cases cs with
      | nil => cases h
      | cons b cs =>
        rw [splitAtByte] at h
        split_ifs at h with hb
        · have hbpos := b.utf8Size_pos
          have hbone : b.utf8Size = 1 := by omega
          rw [hbone, Nat.sub_self, splitAtByte] at h
          cases h
          exact .inl ⟨a, b, rfl, rfl⟩
        · cases h

theorem splitAtByte_ascii {a b : Char} (ha : isAscii a = true) (hb : isAscii b = true)
    (rest : List Char) : splitAtByte 2 (a :: b :: rest) = some ([a, b], rest) := by
  simp [splitAtByte, utf8Size_of_isAscii ha, utf8Size_of_isAscii hb]

/-! ## Digits -/

theorem toDigit_of_hex {c : Char} (h : isAsciiHexdigit c = true) :
    ∃ d < 16, toDigit c = some d ∧ hexDigit d = c.toLower := by
  have htable : ∀ n < 128, isAsciiHexdigit (Char.ofNat n) = true →
      ∃ d < 16, toDigit (Char.ofNat n) = some d ∧ hexDigit d = (Char.ofNat n).toLower := by
    decide +kernel
  have hlt : c.toNat < 128 := by simpa [isAscii] using isAscii_of_isAsciiHexdigit h
  have hc := htable c.toNat hlt
  rw [Char.ofNat_toNat] at hc
  exact hc h

theorem toDigit_of_not_hex {c : Char} (h : isAsciiHexdigit c = false) : toDigit c = none := by
  simp only [isAsciiHexdigit, Bool.or_eq_false_iff] at h
  simp [toDigit, h]

theorem isAscii_of_isPair {a b : Char} (h : isPair a b = true) :
    isAscii a = true ∧ isAscii b = true := by
  simp only [isPair, Bool.and_eq_true, Bool.or_eq_true, decide_eq_true_eq] at h
  obtain ⟨ha | rfl, hb⟩ := h
  · exact ⟨isAscii_of_isAsciiHexdigit ha, isAscii_of_isAsciiHexdigit hb⟩
  · exact ⟨rfl, isAscii_of_isAsciiHexdigit hb⟩

theorem digits_of_not_hex {value : ℕ} {cs : List Char}
    (h : ∃ c ∈ cs, isAsciiHexdigit c = false) : ∃ e, digits value cs = .error e := by
  induction cs generalizing value with
  | nil => simp at h
  | cons c cs ih =>
    rw [digits]
    cases hc : isAsciiHexdigit c with
    | false =>
      rw [toDigit_of_not_hex hc]
      exact ⟨_, rfl⟩
    | true =>
      obtain ⟨d, -, hd, -⟩ := toDigit_of_hex hc
      rw [hd]
      dsimp only
      split_ifs
      · exact ⟨_, rfl⟩
      · apply ih
        simpa [hc] using h

/-- A slice that is not taken. -/
theorem fromStrRadix_of_not_isPair {a b : Char} (h : isPair a b = false) :
    ∃ e, fromStrRadix [a, b] = .error e := by
  by_cases hplus : a = '+'
  · subst hplus
    apply digits_of_not_hex
    simpa [isPair] using h
  · have htext : fromStrRadix [a, b] = digits 0 [a, b] := by
      unfold fromStrRadix
      split <;> simp_all
    rw [htext]
    apply digits_of_not_hex
    simp only [isPair, hplus, decide_false, Bool.or_false, Bool.and_eq_false_iff] at h
    rcases h with h | h
    · exact ⟨a, List.mem_cons_self, h⟩
    · exact ⟨b, List.mem_cons_of_mem _ List.mem_cons_self, h⟩

theorem fromStrRadix_singleton {a : Char} (h : isAsciiHexdigit a = false) :
    ∃ e, fromStrRadix [a] = .error e := by
  by_cases hplus : a = '+'
  · subst hplus
    exact ⟨_, rfl⟩
  · have htext : fromStrRadix [a] = digits 0 [a] := by
      unfold fromStrRadix
      split <;> simp_all
    rw [htext]
    exact digits_of_not_hex ⟨a, List.mem_cons_self, h⟩

/-- Two digits are their byte, and its text is theirs in lower case. -/
theorem fromStrRadix_of_hex {a b : Char} (ha : isAsciiHexdigit a = true)
    (hb : isAsciiHexdigit b = true) :
    ∃ byte, fromStrRadix [a, b] = .ok byte ∧
      [hexDigit (byte.toNat / 16), hexDigit (byte.toNat % 16)] = [a.toLower, b.toLower] := by
  have hplus : a ≠ '+' := by
    rintro rfl
    cases ha
  have htext : fromStrRadix [a, b] = digits 0 [a, b] := by
    unfold fromStrRadix
    split <;> simp_all
  obtain ⟨d, hd, hda, hla⟩ := toDigit_of_hex ha
  obtain ⟨e, he, heb, hlb⟩ := toDigit_of_hex hb
  refine ⟨UInt8.ofNat (16 * d + e), ?_, ?_⟩
  · have hsmall : ¬255 < 16 * (16 * 0 + d) + e := by omega
    rw [htext, digits, hda]
    dsimp only
    rw [if_neg (by omega), digits, heb]
    dsimp only
    rw [if_neg hsmall, digits]
    simp
  · have hbyte : (UInt8.ofNat (16 * d + e)).toNat = 16 * d + e :=
      UInt8.toNat_ofNat_of_lt (by simp only [UInt8.size]; omega)
    have hdiv : (16 * d + e) / 16 = d := by omega
    have hmod : (16 * d + e) % 16 = e := by omega
    rw [hbyte, hdiv, hmod, hla, hlb]

theorem fromStrRadix_plus {b : Char} (hb : isAsciiHexdigit b = true) :
    ∃ byte, fromStrRadix ['+', b] = .ok byte := by
  obtain ⟨e, he, heb, -⟩ := toDigit_of_hex hb
  refine ⟨UInt8.ofNat e, ?_⟩
  rw [fromStrRadix, digits, heb]
  · dsimp only
    rw [if_neg (by omega), digits]
    simp
  · simp

theorem fromStrRadix_of_isPair {a b : Char} (h : isPair a b = true) :
    ∃ byte, fromStrRadix [a, b] = .ok byte := by
  simp only [isPair, Bool.and_eq_true, Bool.or_eq_true, decide_eq_true_eq] at h
  obtain ⟨ha | rfl, hb⟩ := h
  · obtain ⟨byte, hbyte, -⟩ := fromStrRadix_of_hex ha hb
    exact ⟨byte, hbyte⟩
  · exact fromStrRadix_plus hb

/-! ## The loop -/

theorem decodePairs_cons {a b : Char} {byte : UInt8} (ha : isAscii a = true)
    (hb : isAscii b = true) (hbyte : fromStrRadix [a, b] = .ok byte) (n i : ℕ)
    (rest : List Char) :
    decodePairs (n + 1) i (a :: b :: rest) =
      (decodePairs n (i + 2) rest).map fun bytes => byte :: bytes := by
  rw [decodePairs, splitAtByte_ascii ha hb]
  dsimp only
  rw [hbyte]

theorem byteLength_cons_cons {a b : Char} (ha : isAscii a = true) (hb : isAscii b = true)
    (rest : List Char) : byteLength (a :: b :: rest) = byteLength rest + 2 := by
  simp only [byteLength, List.map_cons, List.sum_cons, utf8Size_of_isAscii ha,
    utf8Size_of_isAscii hb]
  omega

theorem eq_nil_of_byteLength {cs : List Char} (h : byteLength cs = 0) : cs = [] := by
  cases cs with
  | nil => rfl
  | cons c cs =>
    have hpos := c.utf8Size_pos
    simp only [byteLength, List.map_cons, List.sum_cons] at h
    omega

/-- The loop takes the slices it takes and goes on with what is left. -/
theorem decodePairs_afterPairs (cs : List Char) :
    ∀ n i, byteLength cs = 2 * n → ∃ m j taken, byteLength (afterPairs cs) = 2 * m ∧
      decodePairs n i cs = (decodePairs m j (afterPairs cs)).map (taken ++ ·) := by
  induction cs using afterPairs.induct with
  | case1 a b rest hpair ih =>
    intro n i hlen
    obtain ⟨ha, hb⟩ := isAscii_of_isPair hpair
    rw [byteLength_cons_cons ha hb] at hlen
    obtain ⟨n, rfl⟩ : ∃ k, n = k + 1 := ⟨n - 1, by omega⟩
    obtain ⟨byte, hbyte⟩ := fromStrRadix_of_isPair hpair
    obtain ⟨m, j, taken, hm, hloop⟩ := ih n (i + 2) (by omega)
    refine ⟨m, j, byte :: taken, ?_, ?_⟩
    · rw [afterPairs, if_pos hpair]
      exact hm
    · rw [decodePairs_cons ha hb hbyte, hloop, afterPairs, if_pos hpair]
      cases decodePairs m j (afterPairs rest) <;> rfl
  | case2 a b rest hpair =>
    intro n i hlen
    have hstop : afterPairs (a :: b :: rest) = a :: b :: rest := by
      rw [afterPairs, if_neg hpair]
    rw [hstop]
    refine ⟨n, i, [], hlen, ?_⟩
    cases decodePairs n i (a :: b :: rest) <;> rfl
  | case3 cs hcs =>
    intro n i hlen
    have hstop : afterPairs cs = cs := by
      unfold afterPairs
      split
      · exact absurd rfl (hcs _ _ _)
      · rfl
    rw [hstop]
    refine ⟨n, i, [], hlen, ?_⟩
    cases decodePairs n i cs <;> rfl

/-- The first two characters left are no slice that is taken. -/
theorem not_isPair_afterPairs {cs rest : List Char} {a b : Char}
    (h : afterPairs cs = a :: b :: rest) : isPair a b = false := by
  induction cs using afterPairs.induct with
  | case1 c d tail hpair ih =>
    rw [afterPairs, if_pos hpair] at h
    exact ih h
  | case2 c d tail hpair =>
    rw [afterPairs, if_neg hpair] at h
    cases h
    simpa using hpair
  | case3 cs hcs =>
    unfold afterPairs at h
    split at h
    · exact absurd rfl (hcs _ _ _)
    · exact absurd h (hcs _ _ _)

theorem hexDecode_afterPairs {s : String} (heven : s.utf8ByteSize % 2 = 0) :
    ∃ m j taken, byteLength (afterPairs s.toList) = 2 * m ∧
      hexDecode s = (decodePairs m j (afterPairs s.toList)).map (taken ++ ·) := by
  rw [hexDecode, if_neg (by omega)]
  apply decodePairs_afterPairs
  rw [← utf8ByteSize_eq]
  omega

theorem hexDecode_of_taken {s : String} (heven : s.utf8ByteSize % 2 = 0)
    (h : afterPairs s.toList = []) : ∃ bytes, hexDecode s = .ok bytes := by
  obtain ⟨m, j, taken, hm, hdecode⟩ := hexDecode_afterPairs heven
  rw [h] at hm hdecode
  have hzero : m = 0 := by
    change 0 = 2 * m at hm
    omega
  rw [hdecode, hzero]
  exact ⟨_, rfl⟩

theorem hexDecode_of_inside {s : String} (heven : s.utf8ByteSize % 2 = 0)
    (h : afterPairs s.toList ≠ []) (hsplit : splitAtByte 2 (afterPairs s.toList) = none) :
    hexDecode s = .error .panic := by
  obtain ⟨m, j, taken, hm, hdecode⟩ := hexDecode_afterPairs heven
  cases m with
  | zero => exact absurd (eq_nil_of_byteLength hm) h
  | succ m =>
    rw [hdecode, decodePairs, hsplit]
    rfl

theorem hexDecode_of_between {s : String} (heven : s.utf8ByteSize % 2 = 0)
    (h : afterPairs s.toList ≠ []) (hsplit : splitAtByte 2 (afterPairs s.toList) ≠ none) :
    ∃ message, hexDecode s = .error (.error message) := by
  obtain ⟨m, j, taken, hm, hdecode⟩ := hexDecode_afterPairs heven
  cases m with
  | zero => exact absurd (eq_nil_of_byteLength hm) h
  | succ m =>
    obtain ⟨⟨pair, rest⟩, hpair⟩ := Option.ne_none_iff_exists'.mp hsplit
    have herror : ∃ e, fromStrRadix pair = .error e := by
      rcases splitAtByte_two hpair with ⟨a, b, hcs, rfl⟩ | ⟨a, -, rfl, htwo⟩
      · exact fromStrRadix_of_not_isPair (not_isPair_afterPairs hcs)
      · apply fromStrRadix_singleton
        rw [Bool.eq_false_iff]
        intro hhex
        have hone := utf8Size_of_isAscii (isAscii_of_isAsciiHexdigit hhex)
        omega
    obtain ⟨e, he⟩ := herror
    rw [hdecode, decodePairs, hpair]
    dsimp only
    rw [he]
    exact ⟨_, rfl⟩

/-! ## Exact texts -/

theorem afterPairs_of_hex {cs : List Char} (heven : cs.length % 2 = 0)
    (h : ∀ c ∈ cs, isAsciiHexdigit c = true) : afterPairs cs = [] := by
  induction cs using afterPairs.induct with
  | case1 a b rest hpair ih =>
    rw [afterPairs, if_pos hpair]
    simp only [List.length_cons] at heven
    apply ih
    · omega
    · intro c hc
      exact h c (List.mem_cons_of_mem _ (List.mem_cons_of_mem _ hc))
  | case2 a b rest hpair =>
    have ha := h a List.mem_cons_self
    have hb := h b (List.mem_cons_of_mem _ List.mem_cons_self)
    simp [isPair, ha, hb] at hpair
  | case3 cs hcs =>
    cases cs with
    | nil => rfl
    | cons a cs =>
      cases cs with
      | nil => simp at heven
      | cons b cs => exact absurd rfl (hcs a b cs)

/-- A text that is taken whole has digits and plus signs only. -/
theorem of_afterPairs_eq_nil {cs : List Char} (h : afterPairs cs = []) :
    cs.length % 2 = 0 ∧ ∀ c ∈ cs, isAsciiHexdigit c = true ∨ c = '+' := by
  induction cs using afterPairs.induct with
  | case1 a b rest hpair ih =>
    rw [afterPairs, if_pos hpair] at h
    obtain ⟨heven, hrest⟩ := ih h
    simp only [isPair, Bool.and_eq_true, Bool.or_eq_true, decide_eq_true_eq] at hpair
    constructor
    · simp only [List.length_cons]
      omega
    · intro c hc
      rcases List.mem_cons.mp hc with rfl | hc
      · exact hpair.1
      · rcases List.mem_cons.mp hc with rfl | hc
        · exact .inl hpair.2
        · exact hrest c hc
  | case2 a b rest hpair =>
    rw [afterPairs, if_neg hpair] at h
    cases h
  | case3 cs hcs =>
    unfold afterPairs at h
    split at h
    · exact absurd rfl (hcs _ _ _)
    · subst h
      simp

theorem isHex_of_taken {s : String} (h : afterPairs s.toList = []) (hplus : '+' ∉ s.toList) :
    IsHex s := by
  obtain ⟨heven, hmem⟩ := of_afterPairs_eq_nil h
  refine ⟨heven, ?_⟩
  intro c hc
  rcases hmem c hc with hc' | rfl
  · exact hc'
  · exact absurd hc hplus

theorem IsHex.utf8ByteSize {s : String} (h : IsHex s) : s.utf8ByteSize = s.toList.length := by
  apply utf8ByteSize_of_isAscii
  intro c hc
  exact isAscii_of_isAsciiHexdigit (h.2 c hc)

/-- Digits are decoded, and the text of their bytes is theirs in lower case. -/
theorem decodePairs_of_hex {cs : List Char} (h : ∀ c ∈ cs, isAsciiHexdigit c = true) :
    ∀ n i, cs.length = 2 * n → ∃ bytes, decodePairs n i cs = .ok bytes ∧
      (bytes.flatMap fun b => [hexDigit (b.toNat / 16), hexDigit (b.toNat % 16)]) =
        cs.map Char.toLower := by
  intro n
  induction n generalizing cs with
  | zero =>
    intro i hlen
    cases List.length_eq_zero_iff.mp hlen
    exact ⟨[], rfl, rfl⟩
  | succ n ih =>
    intro i hlen
    match cs, h, hlen with
    | a :: b :: rest, h, hlen =>
      have ha := h a List.mem_cons_self
      have hb := h b (List.mem_cons_of_mem _ List.mem_cons_self)
      have hrest : ∀ c ∈ rest, isAsciiHexdigit c = true := by
        intro c hc
        exact h c (List.mem_cons_of_mem _ (List.mem_cons_of_mem _ hc))
      have hlength : rest.length = 2 * n := by
        simp only [List.length_cons] at hlen
        omega
      obtain ⟨bytes, hloop, htext⟩ := ih hrest (i + 2) hlength
      obtain ⟨byte, hbyte, hpair⟩ := fromStrRadix_of_hex ha hb
      refine ⟨byte :: bytes, ?_, ?_⟩
      · rw [decodePairs_cons (isAscii_of_isAsciiHexdigit ha) (isAscii_of_isAsciiHexdigit hb) hbyte,
          hloop]
        rfl
      · rw [List.flatMap_cons, hpair, htext]
        rfl

theorem hexDecode_of_isHex {s : String} (h : IsHex s) :
    ∃ bytes, hexDecode s = .ok bytes ∧ hexEncode bytes = lowercase s := by
  have heven := h.1
  rw [hexDecode, h.utf8ByteSize, if_neg (by omega)]
  obtain ⟨bytes, hloop, htext⟩ := decodePairs_of_hex h.2 (s.toList.length / 2) 0 (by omega)
  refine ⟨bytes, hloop, ?_⟩
  rw [hexEncode, htext, lowercase]

/-- The codec is exact at the regular texts and at no other. -/
theorem exactAt_iff (s : String) : ExactAt s ↔ Regular s := by
  constructor
  · intro hexact heven
    split_ifs with htaken
    · intro hplus
      have hnot : ¬IsHex s := by
        intro hhex
        cases hhex.2 '+' hplus
      obtain ⟨message, hmessage⟩ := hexact.2 hnot
      obtain ⟨bytes, hbytes⟩ := hexDecode_of_taken heven htaken
      cases hmessage.symm.trans hbytes
    · intro hinside
      have hnot : ¬IsHex s := by
        intro hhex
        exact htaken (afterPairs_of_hex hhex.1 hhex.2)
      obtain ⟨message, hmessage⟩ := hexact.2 hnot
      cases hmessage.symm.trans (hexDecode_of_inside heven htaken hinside)
  · intro hregular
    refine ⟨hexDecode_of_isHex, ?_⟩
    intro hnot
    by_cases heven : s.utf8ByteSize % 2 = 0
    · have hr := hregular heven
      split_ifs at hr with htaken
      · exact absurd (isHex_of_taken htaken hr) hnot
      · exact hexDecode_of_between heven htaken hr
    · rw [hexDecode, if_pos heven]
      exact ⟨_, rfl⟩

/-- An exact codec accepts what is hexadecimal. -/
theorem accepts_iff_of_exactAt {s : String} (h : ExactAt s) :
    (∃ bytes, hexDecode s = .ok bytes) ↔ IsHex s := by
  constructor
  · rintro ⟨bytes, hbytes⟩
    by_contra hnot
    obtain ⟨message, hmessage⟩ := h.2 hnot
    cases hmessage.symm.trans hbytes
  · intro hhex
    obtain ⟨bytes, hbytes, -⟩ := h.1 hhex
    exact ⟨bytes, hbytes⟩

/-! ## Round trip -/

theorem isHex_hexEncode (bytes : Bytes) : IsHex (hexEncode bytes) := by
  have hdigit : ∀ n < 16, isAsciiHexdigit (hexDigit n) = true := by decide
  constructor
  · simp [hexEncode, List.length_flatMap]
  · intro c hc
    rw [hexEncode, String.toList_ofList, List.mem_flatMap] at hc
    obtain ⟨b, -, hc⟩ := hc
    have hb := b.toNat_lt
    rcases List.mem_pair.mp hc with rfl | rfl
    · exact hdigit _ (by omega)
    · exact hdigit _ (by omega)

theorem lowercase_hexEncode (bytes : Bytes) : lowercase (hexEncode bytes) = hexEncode bytes := by
  have hdigit : ∀ n < 16, (hexDigit n).toLower = hexDigit n := by decide
  rw [lowercase, hexEncode, String.toList_ofList, List.map_flatMap]
  congr 1
  apply List.flatMap_congr
  intro b _
  have hb := b.toNat_lt
  simp [hdigit (b.toNat / 16) (by omega), hdigit (b.toNat % 16) (by omega)]

theorem hexDecode_hexEncode (bytes : Bytes) : hexDecode (hexEncode bytes) = .ok bytes := by
  obtain ⟨decoded, hdecode, htext⟩ := hexDecode_of_isHex (isHex_hexEncode bytes)
  rw [lowercase_hexEncode] at htext
  rw [hdecode, hexEncode_inj htext]

/-! ## The `hex` crate -/

def isHexByte (b : UInt8) : Bool := isAsciiHexdigit (Char.ofNat b.toNat)

theorem hexVal_eq_ok (b : UInt8) (index : ℕ) :
    (∃ n, hexVal b index = .ok n) ↔ isHexByte b = true := by
  have htable : ∀ n < 256, isAsciiHexdigit (Char.ofNat n) = true ↔
      (65 ≤ n ∧ n ≤ 70) ∨ (97 ≤ n ∧ n ≤ 102) ∨ (48 ≤ n ∧ n ≤ 57) := by
    decide +kernel
  rw [isHexByte, htable b.toNat b.toNat_lt, hexVal]
  split_ifs <;> simp <;> omega

/-- The crate decodes an even number of digits. -/
theorem hexDecodePairs_eq_ok {bytes : Bytes} (heven : bytes.length % 2 = 0) (index : ℕ) :
    (∃ decoded, hexDecodePairs index bytes = .ok decoded) ↔
      ∀ b ∈ bytes, isHexByte b = true := by
  induction index, bytes using hexDecodePairs.induct with
  | case1 index hi lo rest ih =>
    simp only [List.length_cons] at heven
    have hrest := ih (by omega)
    have hsplit : (∃ decoded, hexDecodePairs index (hi :: lo :: rest) = .ok decoded) ↔
        (∃ h, hexVal hi index = .ok h) ∧ (∃ l, hexVal lo (index + 1) = .ok l) ∧
          ∃ tail, hexDecodePairs (index + 2) rest = .ok tail := by
      rw [hexDecodePairs]
      cases hexVal hi index <;> cases hexVal lo (index + 1) <;>
        cases hexDecodePairs (index + 2) rest <;> simp [bind, Except.bind, pure, Except.pure]
    rw [hsplit, hexVal_eq_ok, hexVal_eq_ok, hrest]
    simp
  | case2 bytes index hshort =>
    cases bytes with
    | nil => simp [hexDecodePairs]
    | cons a bytes =>
      cases bytes with
      | nil => simp at heven
      | cons b bytes => exact absurd rfl (hshort a b bytes)

theorem isHexByte_utf8 {c : Char} :
    (∀ b ∈ String.utf8EncodeChar c, isHexByte b = true) ↔ isAsciiHexdigit c = true := by
  cases hc : isAscii c with
  | true =>
    have hlt : c.toNat < 128 := by simpa [isAscii] using hc
    have hbyte : (UInt8.ofNat c.toNat).toNat = c.toNat :=
      UInt8.toNat_ofNat_of_lt (by simp only [UInt8.size]; omega)
    rw [utf8EncodeChar_of_isAscii hc]
    simp [isHexByte, hbyte, Char.ofNat_toNat]
  | false =>
    have hnot : isAsciiHexdigit c = false := by
      rw [Bool.eq_false_iff]
      intro hhex
      rw [isAscii_of_isAsciiHexdigit hhex] at hc
      cases hc
    constructor
    · intro h
      obtain ⟨b, hb⟩ := List.exists_mem_of_ne_nil _ (String.utf8EncodeChar_ne_nil (c := c))
      have hlow := isAscii_of_isAsciiHexdigit (h b hb)
      have hbyte := le_of_mem_utf8EncodeChar hc hb
      have hb256 := b.toNat_lt
      have htable : ∀ n < 256, isAscii (Char.ofNat n) = true → n < 128 := by decide +kernel
      have := htable b.toNat hb256 hlow
      omega
    · intro hhex
      rw [hhex] at hnot
      cases hnot

/-- The crate accepts what is hexadecimal. -/
theorem crate_accepts_iff (s : String) :
    (∃ bytes, AgentExchange.hexDecode s = .ok bytes) ↔ IsHex s := by
  have hmem : (∀ b ∈ intoBytes s, isHexByte b = true) ↔
      ∀ c ∈ s.toList, isAsciiHexdigit c = true := by
    rw [intoBytes_eq_flatMap, List.forall_mem_flatMap]
    exact forall₂_congr fun c _ => isHexByte_utf8
  have hsize : (intoBytes s).length = s.utf8ByteSize := rfl
  rw [AgentExchange.hexDecode]
  split_ifs with hodd
  · constructor
    · rintro ⟨bytes, h⟩
      cases h
    · intro h
      have heven := h.1
      rw [hsize, h.utf8ByteSize] at hodd
      omega
  · rw [hexDecodePairs_eq_ok (by omega), hmem]
    constructor
    · intro h
      refine ⟨?_, h⟩
      rw [← utf8ByteSize_of_isAscii fun c hc => isAscii_of_isAsciiHexdigit (h c hc), ← hsize]
      omega
    · exact And.right

end AgentExchange.HexBytes
