import AgentExchange.Library.Text

/-!
# Strings, bytes and hexadecimal text

Rust's `String` is a sequence of Unicode scalar values stored as UTF-8, which is
also Lean's `String`; `len` counts bytes. A `Vec<u8>` is a list of bytes. The
hexadecimal codec follows the `hex` crate: it encodes in lower case, decodes
both cases, and reports an odd length before it looks at any digit.
-/
namespace AgentExchange

/-- `Vec<u8>`. -/
abbrev Bytes := List UInt8

/-- `String::into_bytes`: the UTF-8 encoding. -/
def intoBytes (s : String) : Bytes := s.toByteArray.data.toList

theorem intoBytes_inj {s t : String} : intoBytes s = intoBytes t ↔ s = t := by
  constructor
  · intro h
    apply String.toByteArray_inj.mp
    exact ByteArray.ext (Array.toList_inj.mp h)
  · intro h
    rw [h]

theorem intoBytes_eq_flatMap (s : String) :
    intoBytes s = s.toList.flatMap String.utf8EncodeChar := by
  obtain ⟨l, rfl⟩ : ∃ l, s = String.ofList l := ⟨s.toList, String.ofList_toList.symm⟩
  simp [intoBytes, List.utf8Encode]

def startsWith (pre s : String) : Bool := pre.toList.isPrefixOf s.toList

/-- `char::is_ascii`. -/
def isAscii (c : Char) : Bool := c.toNat < 128

theorem utf8EncodeChar_of_isAscii {c : Char} (h : isAscii c = true) :
    String.utf8EncodeChar c = [UInt8.ofNat c.toNat] := by
  have hc : c.toNat < 128 := by simpa [isAscii] using h
  have hsize : c.utf8Size = 1 := by
    rw [Char.utf8Size_eq_one_iff]
    exact UInt32.le_iff_toNat_le.mpr (by change c.toNat ≤ 127; omega)
  rw [String.utf8EncodeChar_eq_singleton hsize]
  rfl

theorem le_of_mem_utf8EncodeChar {c : Char} (h : isAscii c = false) {b : UInt8}
    (hb : b ∈ String.utf8EncodeChar c) : 128 ≤ b.toNat := by
  have hc : ¬c.val.toNat ≤ 127 := by
    change ¬c.toNat ≤ 127
    simp only [isAscii, decide_eq_false_iff_not, not_lt] at h
    omega
  have hbyte : ∀ n, 128 ≤ n → n < 256 → 128 ≤ (UInt8.ofNat n).toNat := by
    intro n hn hlt
    rw [UInt8.toNat_ofNat']
    omega
  rw [String.utf8EncodeChar, if_neg hc] at hb
  split_ifs at hb
  all_goals
    simp only [List.mem_cons, List.not_mem_nil, or_false] at hb
    rcases hb with rfl | hb
    · exact hbyte _ (by omega) (by omega)
  · rw [hb]
    exact hbyte _ (by omega) (by omega)
  · rcases hb with rfl | rfl <;> exact hbyte _ (by omega) (by omega)
  · rcases hb with rfl | rfl | rfl <;> exact hbyte _ (by omega) (by omega)

/-- An ASCII text has one byte for each character. -/
theorem intoBytes_of_isAscii {s : String} (h : ∀ c ∈ s.toList, isAscii c = true) :
    intoBytes s = s.toList.map fun c => UInt8.ofNat c.toNat := by
  rw [intoBytes_eq_flatMap, List.flatMap_congr fun c hc => utf8EncodeChar_of_isAscii (h c hc),
    ← List.map_eq_flatMap]

theorem intoBytes_ofList_map {bytes : Bytes} (h : ∀ b ∈ bytes, b.toNat < 128) :
    intoBytes (String.ofList (bytes.map fun b => Char.ofNat b.toNat)) = bytes := by
  have hchar : ∀ b ∈ bytes, (Char.ofNat b.toNat).toNat = b.toNat := by
    intro b hb
    rw [Char.toNat_ofNat, if_pos (Or.inl ((h b hb).trans (by decide)))]
  rw [intoBytes_of_isAscii, String.toList_ofList, List.map_map]
  · conv_rhs => rw [← List.map_id bytes]
    apply List.map_congr_left
    intro b hb
    rw [Function.comp_apply, hchar b hb, UInt8.ofNat_toNat, id]
  · intro c hc
    rw [String.toList_ofList] at hc
    obtain ⟨b, hb, rfl⟩ := List.mem_map.mp hc
    rw [isAscii, hchar b hb]
    exact decide_eq_true (h b hb)

/-- The characters of an ASCII text, read off its bytes; on a long text this is far faster to
evaluate. -/
theorem toList_of_ascii {s : String} (h : ∀ b ∈ intoBytes s, b.toNat < 128) :
    s.toList = (intoBytes s).map fun b => Char.ofNat b.toNat := by
  have hs := intoBytes_inj.mp (intoBytes_ofList_map h)
  conv_lhs => rw [← hs]
  rw [String.toList_ofList]

theorem utf8ByteSize_of_isAscii {s : String} (h : ∀ c ∈ s.toList, isAscii c = true) :
    s.utf8ByteSize = s.toList.length := by
  change (intoBytes s).length = s.toList.length
  rw [intoBytes_of_isAscii h, List.length_map]

/-- `char::is_ascii_control`. -/
def isAsciiControl (c : Char) : Bool := c.toNat < 32 || c.toNat == 127

/-- `char::is_ascii_hexdigit`. -/
def isAsciiHexdigit (c : Char) : Bool :=
  ('0' ≤ c && c ≤ '9') || ('a' ≤ c && c ≤ 'f') || ('A' ≤ c && c ≤ 'F')

/-- `char::is_ascii_alphanumeric`. -/
def isAsciiAlphanumeric (c : Char) : Bool :=
  ('0' ≤ c && c ≤ '9') || ('a' ≤ c && c ≤ 'z') || ('A' ≤ c && c ≤ 'Z')

theorem isAscii_of_isAsciiHexdigit {c : Char} (h : isAsciiHexdigit c = true) : isAscii c = true := by
  simp only [isAsciiHexdigit, isAscii, Bool.or_eq_true, Bool.and_eq_true, decide_eq_true_eq,
    Char.le_def, UInt32.le_iff_toNat_le] at h ⊢
  simp only [Char.toNat] at *
  rcases h with (⟨-, h⟩ | ⟨-, h⟩) | ⟨-, h⟩ <;>
    exact lt_of_le_of_lt h (by decide)

def hexDigit (n : ℕ) : Char :=
  if n < 10 then Char.ofNat (48 + n) else Char.ofNat (87 + n)

/-- `hex::encode`. -/
def hexEncode (bytes : Bytes) : String :=
  String.ofList (bytes.flatMap fun b => [hexDigit (b.toNat / 16), hexDigit (b.toNat % 16)])

theorem hexDigit_inj {m n : ℕ} (hm : m < 16) (hn : n < 16) (h : hexDigit m = hexDigit n) :
    m = n := by
  have hall : ∀ m < 16, ∀ n < 16, hexDigit m = hexDigit n → m = n := by decide
  exact hall m hm n hn h

theorem hexEncode_inj {a b : Bytes} (h : hexEncode a = hexEncode b) : a = b := by
  have hl := String.ofList_injective h
  induction a generalizing b with
  | nil =>
    cases b with
    | nil => rfl
    | cons y b => simp at hl
  | cons x a ih =>
    cases b with
    | nil => simp at hl
    | cons y b =>
      simp only [List.flatMap_cons, List.cons_append, List.nil_append, List.cons.injEq] at hl
      obtain ⟨hhi, hlo, hrest⟩ := hl
      have hx := x.toNat_lt
      have hy := y.toNat_lt
      have hdiv := hexDigit_inj (by omega) (by omega) hhi
      have hmod := hexDigit_inj (by omega) (by omega) hlo
      have hxy : x = y := by
        apply UInt8.toNat_inj.mp
        omega
      rw [hxy, ih (congrArg String.ofList hrest) hrest]

/-- `hex::FromHexError`. -/
inductive FromHexError where
  | invalidHexCharacter (c : Char) (index : ℕ)
  | oddLength
  | invalidStringLength
  deriving DecidableEq, Repr

/-- The `Debug` text of a character, as it appears inside error messages. Control
characters are escaped; every other character is shown as it is. -/
def charDebug (c : Char) : String :=
  let body :=
    if c = '\x00' then "\\0"
    else if c = '\t' then "\\t"
    else if c = '\r' then "\\r"
    else if c = '\n' then "\\n"
    else if c = '\'' then "\\'"
    else if c = '\\' then "\\\\"
    else if c.toNat < 32 || (127 ≤ c.toNat && c.toNat < 160) then
      "\\u\x7b" ++ String.ofList (Nat.toDigits 16 c.toNat) ++ "\x7d"
    else String.ofList [c]
  "'" ++ body ++ "'"

def FromHexError.display : FromHexError → String
  | .invalidHexCharacter c index =>
    "Invalid character " ++ charDebug c ++ " at position " ++ toString index
  | .oddLength => "Odd number of digits"
  | .invalidStringLength => "Invalid string length"

def hexVal (b : UInt8) (index : ℕ) : Except FromHexError ℕ :=
  let n := b.toNat
  if 65 ≤ n ∧ n ≤ 70 then .ok (n - 65 + 10)
  else if 97 ≤ n ∧ n ≤ 102 then .ok (n - 97 + 10)
  else if 48 ≤ n ∧ n ≤ 57 then .ok (n - 48)
  else .error (.invalidHexCharacter (Char.ofNat n) index)

def hexDecodePairs : ℕ → Bytes → Except FromHexError Bytes
  | index, hi :: lo :: rest => do
    let h ← hexVal hi index
    let l ← hexVal lo (index + 1)
    let tail ← hexDecodePairs (index + 2) rest
    pure (UInt8.ofNat (16 * h + l) :: tail)
  | _, _ => .ok []

/-- `hex::decode`. -/
def hexDecode (s : String) : Except FromHexError Bytes :=
  let bytes := intoBytes s
  if bytes.length % 2 ≠ 0 then .error .oddLength else hexDecodePairs 0 bytes

theorem isAscii_hexDigit {n : ℕ} (hn : n < 16) : isAscii (hexDigit n) = true := by
  have hall : ∀ n < 16, isAscii (hexDigit n) = true := by decide
  exact hall n hn

theorem hexVal_hexDigit {n : ℕ} (hn : n < 16) (index : ℕ) :
    hexVal (UInt8.ofNat (hexDigit n).toNat) index = .ok n := by
  interval_cases n <;> rfl

theorem hexDecodePairs_hexEncode (bytes : Bytes) (index : ℕ) :
    hexDecodePairs index (bytes.flatMap fun b => [UInt8.ofNat (hexDigit (b.toNat / 16)).toNat,
      UInt8.ofNat (hexDigit (b.toNat % 16)).toNat]) = .ok bytes := by
  induction bytes generalizing index with
  | nil => rfl
  | cons b bytes ih =>
    have hb := b.toNat_lt
    have hjoin : UInt8.ofNat (16 * (b.toNat / 16) + b.toNat % 16) = b := by
      rw [Nat.div_add_mod, UInt8.ofNat_toNat]
    simp only [List.flatMap_cons, List.cons_append, List.nil_append, hexDecodePairs,
      hexVal_hexDigit (show b.toNat / 16 < 16 by omega),
      hexVal_hexDigit (show b.toNat % 16 < 16 by omega), ih]
    change Except.ok (UInt8.ofNat (16 * (b.toNat / 16) + b.toNat % 16) :: bytes) = _
    rw [hjoin]

theorem isAscii_hexEncode (bytes : Bytes) : ∀ c ∈ (hexEncode bytes).toList, isAscii c = true := by
  intro c hc
  rw [hexEncode, String.toList_ofList, List.mem_flatMap] at hc
  obtain ⟨b, -, hc⟩ := hc
  have hb := b.toNat_lt
  rcases List.mem_pair.mp hc with rfl | rfl
  · exact isAscii_hexDigit (by omega)
  · exact isAscii_hexDigit (by omega)

/-- What was encoded decodes to itself. -/
theorem intoBytes_hexEncode (bytes : Bytes) : intoBytes (hexEncode bytes) =
    bytes.flatMap fun b => [UInt8.ofNat (hexDigit (b.toNat / 16)).toNat,
      UInt8.ofNat (hexDigit (b.toNat % 16)).toNat] := by
  rw [intoBytes_of_isAscii (isAscii_hexEncode bytes), hexEncode, String.toList_ofList,
    List.map_flatMap]
  rfl

theorem hexDecode_hexEncode (bytes : Bytes) : hexDecode (hexEncode bytes) = .ok bytes := by
  have heven : (bytes.flatMap fun b => [UInt8.ofNat (hexDigit (b.toNat / 16)).toNat,
      UInt8.ofNat (hexDigit (b.toNat % 16)).toNat]).length % 2 = 0 := by
    simp [List.length_flatMap]
  simp only [hexDecode, intoBytes_hexEncode, heven, ne_eq, not_true_eq_false, if_false,
    hexDecodePairs_hexEncode]

/-- A digit as `hex::encode` writes it. -/
def isWrittenDigit (b : UInt8) : Bool :=
  (48 ≤ b.toNat && b.toNat ≤ 57) || (97 ≤ b.toNat && b.toNat ≤ 102)

theorem exists_hexDigit {b : UInt8} (h : isWrittenDigit b = true) :
    ∃ n < 16, UInt8.ofNat (hexDigit n).toNat = b := by
  simp only [isWrittenDigit, Bool.or_eq_true, Bool.and_eq_true, decide_eq_true_eq] at h
  obtain ⟨n, hn, hb⟩ : ∃ n < 16, (UInt8.ofNat (hexDigit n).toNat).toNat = b.toNat := by
    generalize b.toNat = digit at h ⊢
    rcases h with h | h <;> obtain ⟨hlow, hhigh⟩ := h <;> interval_cases digit <;> decide
  exact ⟨n, hn, UInt8.toNat_inj.mp hb⟩

/-- Every pair of such digits is a byte. -/
theorem exists_hexEncode {text : Bytes} (heven : text.length % 2 = 0)
    (h : ∀ b ∈ text, isWrittenDigit b = true) : ∃ bytes, intoBytes (hexEncode bytes) = text := by
  induction text using List.twoStepInduction with
  | nil => exact ⟨[], rfl⟩
  | singleton b => simp at heven
  | cons_cons b c text ih _ =>
    have hrest : text.length % 2 = 0 := by
      simp only [List.length_cons] at heven
      omega
    obtain ⟨bytes, hbytes⟩ := ih hrest fun x hx => h x (by simp [hx])
    obtain ⟨hi, hhi, rfl⟩ := exists_hexDigit (h b (by simp))
    obtain ⟨lo, hlo, rfl⟩ := exists_hexDigit (h c (by simp))
    have hbyte : (UInt8.ofNat (16 * hi + lo)).toNat = 16 * hi + lo :=
      UInt8.toNat_ofNat_of_lt (by change _ < 256; omega)
    refine ⟨UInt8.ofNat (16 * hi + lo) :: bytes, ?_⟩
    rw [intoBytes_hexEncode] at hbytes ⊢
    rw [List.flatMap_cons, hbytes, hbyte, show (16 * hi + lo) / 16 = hi by omega,
      show (16 * hi + lo) % 16 = lo by omega]
    rfl

/-- Digits in pairs, as `hex::encode` writes them. -/
def isWritten (text : String) : Bool :=
  (intoBytes text).length % 2 = 0 && (intoBytes text).all isWrittenDigit

/-- Comparing with such a text is comparing with the bytes it is written for. -/
theorem hexEncode_eq_iff {text : String} (h : isWritten text = true) {bytes : Bytes} :
    hexEncode bytes = text ↔ bytes = (hexDecode text).toOption.getD [] := by
  simp only [isWritten, Bool.and_eq_true, decide_eq_true_eq, List.all_eq_true] at h
  obtain ⟨written, hwritten⟩ := exists_hexEncode h.1 h.2
  have htext := intoBytes_inj.mp hwritten
  rw [← htext, hexDecode_hexEncode]
  exact ⟨hexEncode_inj, congrArg hexEncode⟩

example : hexDecode "00fFa" = .error .oddLength := by decide
example : hexDecode "00fF" = .ok [0, 255] := by decide

/-! ## Cutting strings -/

/-- `str::strip_prefix`. -/
def dropStart (pre s : String) : Option String :=
  if startsWith pre s then some (String.ofList (s.toList.drop pre.toList.length)) else none

theorem dropStart_eq_some {pre s rest : String} :
    dropStart pre s = some rest ↔ s = pre ++ rest := by
  unfold dropStart startsWith
  constructor
  · intro h
    split_ifs at h with hpre
    obtain ⟨tail, htail⟩ := List.isPrefixOf_iff_prefix.mp hpre
    cases h
    apply String.toList_inj.mp
    rw [String.toList_append, String.toList_ofList, ← htail, List.drop_left]
  · intro h
    have hpre : pre.toList.isPrefixOf s.toList = true := by
      apply List.isPrefixOf_iff_prefix.mpr
      rw [h, String.toList_append]
      exact List.prefix_append _ _
    rw [if_pos hpre, h, String.toList_append, List.drop_left, String.ofList_toList]

theorem startsWith_iff {pre s : String} : startsWith pre s = true ↔ ∃ rest, s = pre ++ rest := by
  constructor
  · intro h
    exact ⟨_, dropStart_eq_some.mp (if_pos h)⟩
  · intro h
    obtain ⟨rest, rfl⟩ := h
    apply List.isPrefixOf_iff_prefix.mpr
    rw [String.toList_append]
    exact List.prefix_append _ _

/-- `str::split` at a character: the pieces between its occurrences, so at least one. -/
def splitAt (c : Char) (s : String) : List String := (s.toList.splitOn c).map String.ofList

theorem splitAt_of_not_mem {c : Char} {s : String} (h : c ∉ s.toList) : splitAt c s = [s] := by
  have hsplit : s.toList.splitOn c = [s.toList] := by
    refine List.splitOnP_eq_singleton ?_
    intro x hx
    rw [beq_eq_false_iff_ne]
    rintro rfl
    exact h hx
  rw [splitAt, hsplit, List.map_singleton, String.ofList_toList]

theorem splitAt_append {c : Char} {a s : String} (h : c ∉ a.toList) :
    splitAt c (a ++ String.singleton c ++ s) = a :: splitAt c s := by
  have hsplit : (a ++ String.singleton c ++ s).toList.splitOn c =
      a.toList :: s.toList.splitOn c := by
    rw [String.toList_append, String.toList_append, String.toList_singleton, List.append_assoc]
    refine List.splitOnP_append_cons_of_forall_mem (p := (· == c)) ?_ c (by simp) s.toList
    intro x hx
    rw [beq_eq_false_iff_ne]
    rintro rfl
    exact h hx
  rw [splitAt, hsplit, List.map_cons, String.ofList_toList]
  rfl

/-- The first piece ends at the first separator, and the rest is split alike. -/
theorem splitAt_eq_cons_cons {c : Char} {s a b : String} {rest : List String} :
    splitAt c s = a :: b :: rest ↔
      c ∉ a.toList ∧ ∃ t, s = a ++ String.singleton c ++ t ∧ splitAt c t = b :: rest := by
  constructor
  · intro h
    by_cases hmem : c ∈ s.toList
    · obtain ⟨first, t, hs, hfirst⟩ := List.eq_append_cons_of_mem hmem
      have hs' : s = String.ofList first ++ String.singleton c ++ String.ofList t := by
        apply String.toList_inj.mp
        simp [hs]
      have hnot : c ∉ (String.ofList first).toList := by
        simpa using hfirst
      rw [hs', splitAt_append hnot] at h
      obtain ⟨rfl, ht⟩ := List.cons.inj h
      exact ⟨hnot, String.ofList t, hs', ht⟩
    · rw [splitAt_of_not_mem hmem] at h
      cases h
  · rintro ⟨ha, t, rfl, ht⟩
    rw [splitAt_append ha, ht]

theorem splitAt_ne_nil {c : Char} {s : String} : splitAt c s ≠ [] := by
  simp [splitAt]

theorem splitAt_eq_singleton {c : Char} {s a : String} :
    splitAt c s = [a] ↔ s = a ∧ c ∉ a.toList := by
  constructor
  · intro h
    by_cases hmem : c ∈ s.toList
    · obtain ⟨first, t, hs, hfirst⟩ := List.eq_append_cons_of_mem hmem
      have hs' : s = String.ofList first ++ String.singleton c ++ String.ofList t := by
        apply String.toList_inj.mp
        simp [hs]
      rw [hs', splitAt_append (by simpa using hfirst)] at h
      exact absurd (List.cons.inj h).2 splitAt_ne_nil
    · rw [splitAt_of_not_mem hmem] at h
      cases h
      exact ⟨rfl, hmem⟩
  · rintro ⟨rfl, ha⟩
    exact splitAt_of_not_mem ha

/-- `str::split_once` at a character. -/
def splitOnce (c : Char) (s : String) : Option (String × String) :=
  if c ∈ s.toList then
    some (String.ofList (s.toList.takeWhile (· ≠ c)),
      String.ofList ((s.toList.dropWhile (· ≠ c)).drop 1))
  else none

theorem splitOnce_eq_none {c : Char} {s : String} : splitOnce c s = none ↔ c ∉ s.toList := by
  unfold splitOnce
  split_ifs with h <;> simp [h]

/-- The first part has none of the character. -/
theorem splitOnce_eq_some {c : Char} {s a b : String} :
    splitOnce c s = some (a, b) ↔ c ∉ a.toList ∧ s = a ++ String.singleton c ++ b := by
  have hcut {first rest : List Char} (hfirst : c ∉ first) (hs : s.toList = first ++ c :: rest) :
      splitOnce c s = some (String.ofList first, String.ofList rest) := by
    have hbefore : ∀ d ∈ first, decide (d ≠ c) = true := by
      intro d hd
      simp only [decide_eq_true_eq]
      rintro rfl
      exact hfirst hd
    rw [splitOnce, hs, if_pos (by simp), List.takeWhile_append_of_pos hbefore,
      List.dropWhile_append_of_pos hbefore]
    simp
  constructor
  · intro h
    have hmem : c ∈ s.toList := by
      by_contra hmem
      rw [splitOnce_eq_none.mpr hmem] at h
      cases h
    obtain ⟨first, rest, hs, hfirst⟩ := List.eq_append_cons_of_mem hmem
    rw [hcut hfirst hs] at h
    cases h
    refine ⟨by simpa using hfirst, ?_⟩
    apply String.toList_inj.mp
    simp [hs]
  · intro h
    obtain ⟨ha, rfl⟩ := h
    have hs : (a ++ String.singleton c ++ b).toList = a.toList ++ c :: b.toList := by simp
    rw [hcut ha hs, String.ofList_toList, String.ofList_toList]

/-- `char::is_whitespace`, the Unicode `White_Space` property. -/
def isWhitespace (c : Char) : Bool :=
  let n := c.toNat
  (9 ≤ n && n ≤ 13) || n == 0x20 || n == 0x85 || n == 0xa0 || n == 0x1680 ||
    (0x2000 ≤ n && n ≤ 0x200a) || n == 0x2028 || n == 0x2029 || n == 0x202f || n == 0x205f ||
    n == 0x3000

/-- `str::trim`. -/
def trim (s : String) : String :=
  String.ofList (((s.toList.dropWhile isWhitespace).reverse.dropWhile isWhitespace).reverse)

theorem trim_eq_self {s : String} (h : ∀ c ∈ s.toList, isWhitespace c = false) : trim s = s := by
  have hdrop {l : List Char} (hl : ∀ c ∈ l, isWhitespace c = false) :
      l.dropWhile isWhitespace = l := by
    cases l with
    | nil => rfl
    | cons c l => simp [hl c (by simp)]
  unfold trim
  rw [hdrop h, hdrop (by simpa using h), List.reverse_reverse, String.ofList_toList]

/-! ## UTF-8 -/

def isContinuation (b : UInt8) : Bool := 0x80 ≤ b && b ≤ 0xbf

/-- The second bytes that may follow the first byte of a longer sequence. -/
def secondByte (first second : UInt8) : Bool :=
  if first = 0xe0 then 0xa0 ≤ second && second ≤ 0xbf
  else if first = 0xed then 0x80 ≤ second && second ≤ 0x9f
  else if first = 0xf0 then 0x90 ≤ second && second ≤ 0xbf
  else if first = 0xf4 then 0x80 ≤ second && second ≤ 0x8f
  else isContinuation second

/-- How many bytes a first byte announces; `0` where it announces none. -/
def charWidth (first : UInt8) : ℕ :=
  if first < 0x80 then 1
  else if 0xc2 ≤ first && first ≤ 0xdf then 2
  else if 0xe0 ≤ first && first ≤ 0xef then 3
  else if 0xf0 ≤ first && first ≤ 0xf4 then 4
  else 0

/-- The length of the sequence at the head: `error none` where the input ends inside it,
`error (some n)` where `n` bytes cannot be continued. -/
def sequenceLength : Bytes → Except (Option ℕ) ℕ
  | [] => .ok 0
  | first :: rest =>
    match charWidth first, rest with
    | 0, _ => .error (some 1)
    | 1, _ => .ok 1
    | _, [] => .error none
    | width, second :: rest =>
      if !secondByte first second then .error (some 1)
      else if width = 2 then .ok 2
      else
        match rest with
        | [] => .error none
        | third :: rest =>
          if !isContinuation third then .error (some 2)
          else if width = 3 then .ok 3
          else
            match rest with
            | [] => .error none
            | fourth :: _ => if !isContinuation fourth then .error (some 3) else .ok 4

/-- The text of a `Utf8Error`: where the first bad sequence starts and how long it is. -/
def utf8ErrorText (bytes : Bytes) (index : ℕ) : ℕ → String
  | 0 => ""
  | fuel + 1 =>
    match sequenceLength (bytes.drop index) with
    | .ok n => utf8ErrorText bytes (index + n) fuel
    | .error (some n) =>
      "invalid utf-8 sequence of " ++ toString n ++ " bytes from index " ++ toString index
    | .error none => "incomplete utf-8 byte sequence from index " ++ toString index

/-- `std::str::from_utf8`. -/
def fromUtf8 (bytes : Bytes) : Except String String :=
  match String.fromUTF8? ⟨bytes.toArray⟩ with
  | some s => .ok s
  | none => .error (utf8ErrorText bytes 0 (bytes.length + 1))

theorem fromUtf8_intoBytes (s : String) : fromUtf8 (intoBytes s) = .ok s := by
  unfold fromUtf8 intoBytes
  have h : String.fromUTF8? ⟨s.toByteArray.data.toList.toArray⟩ = some s := by
    rw [Array.toArray_toList]
    exact dif_pos s.isValidUTF8
  rw [h]

example : fromUtf8 [0x61, 0xe2, 0x82] =
    .error "incomplete utf-8 byte sequence from index 1" := by decide

end AgentExchange
