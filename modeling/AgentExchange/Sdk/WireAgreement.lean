import AgentExchange.Core.WireMessages
import AgentExchange.Sdk.Python
import AgentExchange.Sdk.TypeScript

/-!
# The three implementations of the wire formats agree

Every validator of an SDK accepts exactly the texts its Rust counterpart accepts,
although they count and classify code points, UTF-16 units and bytes. Past the
validators all three write the same ASCII text, so for the same arguments they all
reject or all return the same bytes.
-/
namespace AgentExchange.Sdk

open Library Wire
open TypeScript (js JsNumber)

/-- The results are the same up to the kind of error. -/
def Agrees {ε ε' α : Type} (x : Except ε α) (y : Except ε' α) : Prop := x.toOption = y.toOption

section Agrees

variable {ε ε' α β : Type}

theorem Agrees.symm {x : Except ε α} {y : Except ε' α} (h : Agrees x y) : Agrees y x := Eq.symm h

theorem Agrees.eq_ok {x : Except ε α} {y : Except ε' α} (h : Agrees x y) {a : α} (hx : x = .ok a) :
    y = .ok a := by
  cases y with
  | error e => rw [hx] at h; cases h
  | ok b => rw [hx] at h; cases h; rfl

theorem Agrees.eq_error {x : Except ε α} {y : Except ε' α} (h : Agrees x y) {e : ε}
    (hx : x = .error e) : ∃ e', y = .error e' := by
  cases y with
  | error e' => exact ⟨e', rfl⟩
  | ok b => rw [hx] at h; cases h

/-- Two programs agree if their first steps do, and what follows agrees where these succeed. -/
theorem Agrees.bind {x : Except ε α} {y : Except ε' α} {f : α → Except ε β} {g : α → Except ε' β}
    (h : Agrees x y) (hfg : ∀ a, x = .ok a → Agrees (f a) (g a)) : Agrees (x >>= f) (y >>= g) := by
  cases x with
  | error e =>
    cases y with
    | error e' => rfl
    | ok b => cases h
  | ok a =>
    cases y with
    | error e' => cases h
    | ok b =>
      cases h
      exact hfg a rfl

/-- A check that both make. -/
theorem Agrees.throwIf {c c' : Prop} [Decidable c] [Decidable c'] (hc : c ↔ c') {e : ε} {e' : ε'}
    {f : Unit → Except ε α} {g : Unit → Except ε' α} (h : ¬c → Agrees (f ()) (g ())) :
    Agrees (if c then throw e >>= f else f ()) (if c' then throw e' >>= g else g ()) := by
  by_cases hcase : c
  · rw [if_pos hcase, if_pos (hc.mp hcase)]
    rfl
  · rw [if_neg hcase, if_neg fun hcase' => hcase (hc.mpr hcase')]
    exact h hcase

/-- Two checks with nothing to return agree if they succeed together. -/
theorem agrees_of_iff {x : Except ε Unit} {y : Except ε' Unit} (h : x = .ok () ↔ y = .ok ()) :
    Agrees x y := by
  cases x with
  | ok u =>
    rw [h.mp rfl]
    rfl
  | error e =>
    cases y with
    | ok u => cases h.mpr rfl
    | error e' => rfl

end Agrees

/-! ## Texts -/

/-- A text of ASCII characters. -/
def AsciiText (s : String) : Prop := ∀ c ∈ s.toList, isAscii c = true

theorem AsciiText.append {s t : String} (hs : AsciiText s) (ht : AsciiText t) :
    AsciiText (s ++ t) := by
  intro c hc
  rw [String.toList_append, List.mem_append] at hc
  exact hc.elim (hs c) (ht c)

theorem asciiText_toString (n : ℤ) : AsciiText (toString n) := by
  intro c hc
  rcases isDigit_or_minus_of_mem_intRepr hc with hdigit | rfl
  · have hbounds : c.val ≥ 48 ∧ c.val ≤ 57 := by simpa [Char.isDigit] using hdigit
    have hle : c.toNat ≤ 57 := UInt32.le_iff_toNat_le.mp hbounds.2
    simp only [isAscii, decide_eq_true_eq]
    omega
  · rfl

theorem find?_zipIdx_eq_none {α : Type} {bad : α → Bool} {l : List α} :
    (l.zipIdx.find? fun p => bad p.1) = none ↔ ∀ x ∈ l, bad x = false := by
  rw [List.find?_eq_none]
  constructor
  · intro h x hx
    obtain ⟨i, hi, rfl⟩ := List.mem_iff_getElem.mp hx
    have hz : (l[i], i) ∈ l.zipIdx := by
      rw [List.mem_zipIdx_iff_getElem?]
      exact List.getElem?_eq_getElem hi
    simpa using h _ hz
  · intro h p hp
    have hmem : p.1 ∈ l := List.fst_mem_of_mem_zipIdx hp
    simp [h p.1 hmem]

theorem firstBadChar_eq_none_iff {bad : Char → Bool} {s : String} :
    firstBadChar bad s = none ↔ ∀ c ∈ s.toList, bad c = false :=
  @find?_zipIdx_eq_none _ bad _

theorem encodeAscii_eq {s : String} (h : AsciiText s) :
    Python.encodeAscii s = .ok (intoBytes s) := by
  have hnone : firstBadChar (fun c => c.toNat > 127) s = none := by
    rw [firstBadChar_eq_none_iff]
    intro c hc
    have hlt : c.toNat < 128 := by simpa [isAscii] using h c hc
    simp only [decide_eq_false_iff_not]
    omega
  rw [Python.encodeAscii, hnone, intoBytes_of_isAscii h]

@[simp] theorem usvString_js (s : String) : TypeScript.usvString (js s) = s := by
  simp [TypeScript.usvString, Utf16.decode_encode, Function.comp_def]

/-- `TextEncoder` writes UTF-8. -/
theorem textEncode_js (s : String) : TypeScript.textEncode (js s) = intoBytes s := by
  rw [TypeScript.textEncode, usvString_js]

section Units

theorem encodeChar_of_isAscii {c : Char} (h : isAscii c = true) :
    Utf16.encodeChar c = [UInt16.ofNat c.toNat] := by
  have hlt : c.toNat < 128 := by simpa [isAscii] using h
  exact Utf16.encodeChar_ascii hlt

/-- A test of units and a test of characters that say the same of ASCII and fail on the rest. -/
theorem forall_units_iff {q : UInt16 → Bool} {p : Char → Bool} {s : String}
    (hascii : ∀ n < 128, q (UInt16.ofNat n) = p (Char.ofNat n))
    (hunit : ∀ u : UInt16, 128 ≤ u.toNat → q u = false)
    (hchar : ∀ c, isAscii c = false → p c = false) :
    (∀ u ∈ js s, q u = true) ↔ ∀ c ∈ s.toList, p c = true := by
  have hpoint (c : Char) : (∀ u ∈ Utf16.encodeChar c, q u = true) ↔ p c = true := by
    cases hc : isAscii c with
    | true =>
      have hone := hascii c.toNat (by simpa [isAscii] using hc)
      rw [Char.ofNat_toNat] at hone
      simp [encodeChar_of_isAscii hc, hone]
    | false =>
      have hge : 128 ≤ c.toNat := by simpa [isAscii] using hc
      obtain ⟨u, hu⟩ := List.exists_mem_of_ne_nil _ (Utf16.encodeChar_ne_nil c)
      rw [hchar c hc]
      simp only [Bool.false_eq_true, iff_false, not_forall]
      use u, hu
      rw [hunit u (Utf16.toNat_of_mem_encodeChar hge hu)]
      exact Bool.false_ne_true
  simp only [TypeScript.js, Utf16.encode, List.mem_flatMap, forall_exists_index, and_imp]
  constructor
  · exact fun h c hc => (hpoint c).mp fun u hu => h u c hc hu
  · exact fun h u c hc hu => (hpoint c).mpr (h c hc) u hu

theorem js_length {s : String} (h : AsciiText s) :
    (js s).length = s.toList.length := by
  have hmap : js s = s.toList.map fun c => UInt16.ofNat c.toNat := by
    rw [TypeScript.js, Utf16.encode,
      List.flatMap_congr fun c hc => encodeChar_of_isAscii (h c hc), ← List.map_eq_flatMap]
  rw [hmap, List.length_map]

theorem js_eq_nil {s : String} : js s = [] ↔ s = "" := by
  rw [← Utf16.encode_inj]
  rfl

end Units

/-! ## The validators -/

/-- The characters a line may have. -/
def isLineChar (c : Char) : Bool := isAscii c && c != '\n' && c != '\r' && c != '\x00'

/-- What every validator of lines asks for, apart from emptiness. -/
def IsLine (s : String) : Prop := ∀ c ∈ s.toList, isLineChar c = true

theorem isAscii_of_isLineChar {c : Char} (h : isLineChar c = true) : isAscii c = true := by
  simp only [isLineChar, Bool.and_eq_true] at h
  exact h.1.1.1

theorem IsLine.asciiText {s : String} (h : IsLine s) : AsciiText s :=
  fun c hc => isAscii_of_isLineChar (h c hc)

theorem isLine_empty : IsLine "" := nofun

/-- What every validator of nonces asks for. -/
def IsNonce (s : String) : Prop :=
  (32 ≤ s.toList.length ∧ s.toList.length ≤ 128) ∧ ∀ c ∈ s.toList, isAsciiHexdigit c = true

theorem IsNonce.asciiText {s : String} (h : IsNonce s) : AsciiText s :=
  fun c hc => isAscii_of_isAsciiHexdigit (h.2 c hc)

theorem wire_validateAsciiLine_iff {s field : String} :
    Wire.validateAsciiLine s field = .ok () ↔ s ≠ "" ∧ IsLine s := by
  unfold Wire.validateAsciiLine
  by_cases hempty : s = ""
  · simp [hempty]
  · rw [if_neg (by simpa using hempty)]
    have hbad : firstBadChar (fun c => !isAscii c || c == '\n' || c == '\r' || c == '\x00') s = none ↔
        IsLine s := by
      rw [firstBadChar_eq_none_iff]
      simp [IsLine, isLineChar, and_assoc]
    rw [← hbad]
    split
    · simp_all
    · simp_all

theorem wire_validateAsciiLineOpt_iff {s field : String} :
    Wire.validateAsciiLineOpt s field = .ok () ↔ IsLine s := by
  unfold Wire.validateAsciiLineOpt
  split_ifs with hempty
  · have hs : s = "" := by simpa using hempty
    simp [hs, isLine_empty]
  · rw [wire_validateAsciiLine_iff]
    exact and_iff_right (by simpa using hempty)

theorem python_validateAsciiLine_iff {s field : String} {allowEmpty : Bool} :
    Python.validateAsciiLine s field allowEmpty = .ok () ↔
      (allowEmpty = true ∨ s ≠ "") ∧ IsLine s := by
  unfold Python.validateAsciiLine
  by_cases hempty : s = ""
  · cases allowEmpty <;> simp [hempty, isLine_empty]
  · rw [if_neg (by simpa using hempty)]
    have hbad : firstBadChar (fun c => c.toNat > 127 || c ∈ ['\n', '\r', '\x00']) s = none ↔
        IsLine s := by
      rw [firstBadChar_eq_none_iff]
      simp [IsLine, isLineChar, isAscii, and_assoc, Nat.lt_succ_iff]
    rw [← hbad]
    split
    · simp_all
    · simp_all

theorem firstBadUnit_eq_none_iff {s : String} :
    TypeScript.firstBadUnit (js s) = none ↔ IsLine s := by
  unfold TypeScript.firstBadUnit
  rw [@find?_zipIdx_eq_none _ fun u : UInt16 => u > 0x7f || u == 0x0a || u == 0x0d || u == 0x00]
  have hunits : (∀ u ∈ js s,
      (!(u > 0x7f || u == 0x0a || u == 0x0d || u == 0x00)) = true) ↔ IsLine s := by
    refine forall_units_iff (by decide) (fun u hu => ?_) fun c hc => ?_
    · have hlt : (0x7f : UInt16) < u := UInt16.lt_iff_toNat_lt.mpr hu
      simp [hlt]
    · simp [isLineChar, hc]
  rw [← hunits]
  simp only [Bool.not_eq_true']

theorem js_validateAsciiLine_iff {s field : String} {allowEmpty : Bool} :
    TypeScript.validateAsciiLine (js s) field allowEmpty = .ok () ↔
      (allowEmpty = true ∨ s ≠ "") ∧ IsLine s := by
  unfold TypeScript.validateAsciiLine
  by_cases hempty : s = ""
  · cases allowEmpty <;> simp [hempty, isLine_empty, Utf16.encode]
  · rw [if_neg fun hlen => hempty (js_eq_nil.mp (List.length_eq_zero_iff.mp hlen))]
    rw [← firstBadUnit_eq_none_iff]
    split
    · simp_all
    · simp_all

theorem wire_validateNonce_iff {nonce : String} :
    Wire.validateNonce nonce = .ok () ↔ IsNonce nonce := by
  unfold Wire.validateNonce IsNonce
  by_cases hhex : ∀ c ∈ nonce.toList, isAsciiHexdigit c = true
  · have hascii : AsciiText nonce := fun c hc => isAscii_of_isAsciiHexdigit (hhex c hc)
    rw [utf8ByteSize_of_isAscii hascii, if_pos (List.all_eq_true.mpr hhex)]
    split_ifs with hlen
    · simp only [false_iff, minNonceLen, maxNonceLen] at hlen ⊢
      omega
    · simp only [minNonceLen, maxNonceLen] at hlen
      simp only [true_iff]
      exact ⟨by omega, hhex⟩
  · rw [if_neg fun hall => hhex (List.all_eq_true.mp hall)]
    split_ifs <;> simp [hhex]

theorem python_hexdigit (c : Char) :
    c ∈ "0123456789abcdefABCDEF".toList ↔ isAsciiHexdigit c = true := by
  constructor
  · intro h
    have hall : ("0123456789abcdefABCDEF".toList.all isAsciiHexdigit) = true := by decide +kernel
    exact List.all_eq_true.mp hall c h
  · intro h
    have htable : ∀ n < 128, isAsciiHexdigit (Char.ofNat n) = true →
        Char.ofNat n ∈ "0123456789abcdefABCDEF".toList := by decide +kernel
    have hlt : c.toNat < 128 := by simpa [isAscii] using isAscii_of_isAsciiHexdigit h
    have hc := htable c.toNat hlt
    rw [Char.ofNat_toNat] at hc
    exact hc h

theorem python_validateNonce_iff {nonce : String} :
    Python.validateNonce nonce = .ok () ↔ IsNonce nonce := by
  unfold Python.validateNonce IsNonce
  simp only [Python.len, Python.minNonceLen, Python.maxNonceLen, List.all_eq_true,
    decide_eq_true_eq, python_hexdigit]
  split_ifs <;> simp_all

theorem js_validateNonce_iff {nonce : String} :
    TypeScript.validateNonce (js nonce) = .ok () ↔ IsNonce nonce := by
  have hunits : (∀ u ∈ js nonce, TypeScript.isHexUnit u = true) ↔
      ∀ c ∈ nonce.toList, isAsciiHexdigit c = true := by
    refine forall_units_iff (by decide) (fun u hu => ?_) fun c hc => ?_
    · have hlt : ∀ v : UInt16, v.toNat < 128 → ¬u ≤ v := fun v hv => by
        rw [UInt16.le_iff_toNat_le]
        omega
      simp [TypeScript.isHexUnit, hlt 0x39 (by decide), hlt 0x66 (by decide), hlt 0x46 (by decide)]
    · exact Bool.eq_false_iff.mpr fun hhex => by
        rw [isAscii_of_isAsciiHexdigit hhex] at hc
        cases hc
  unfold TypeScript.validateNonce IsNonce
  simp only [List.all_eq_true, TypeScript.minNonceLen, TypeScript.maxNonceLen, hunits]
  by_cases hhex : ∀ c ∈ nonce.toList, isAsciiHexdigit c = true
  · have hascii : AsciiText nonce := fun c hc => isAscii_of_isAsciiHexdigit (hhex c hc)
    rw [js_length hascii]
    split_ifs with hlen hne
    · simp only [false_iff]
      omega
    · simp only [true_iff]
      exact ⟨by omega, hhex⟩
    · exact absurd ⟨fun hnil => by simp [js_eq_nil.mp hnil] at hlen, hhex⟩ hne
  · split_ifs <;> simp_all

theorem line_python (s field field' : String) :
    Agrees (Wire.validateAsciiLine s field) (Python.validateAsciiLine s field') := by
  apply agrees_of_iff
  rw [wire_validateAsciiLine_iff, python_validateAsciiLine_iff]
  simp

theorem lineOpt_python (s field field' : String) :
    Agrees (Wire.validateAsciiLineOpt s field) (Python.validateAsciiLine s field' true) := by
  apply agrees_of_iff
  rw [wire_validateAsciiLineOpt_iff, python_validateAsciiLine_iff]
  simp

theorem nonce_python (nonce : String) :
    Agrees (Wire.validateNonce nonce) (Python.validateNonce nonce) := by
  apply agrees_of_iff
  rw [wire_validateNonce_iff, python_validateNonce_iff]

theorem line_js (s field field' : String) :
    Agrees (Wire.validateAsciiLine s field)
      (TypeScript.validateAsciiLine (js s) field') := by
  apply agrees_of_iff
  rw [wire_validateAsciiLine_iff, js_validateAsciiLine_iff]
  simp

theorem lineOpt_js (s field field' : String) :
    Agrees (Wire.validateAsciiLineOpt s field)
      (TypeScript.validateAsciiLine (js s) field' true) := by
  apply agrees_of_iff
  rw [wire_validateAsciiLineOpt_iff, js_validateAsciiLine_iff]
  simp

theorem nonce_js (nonce : String) :
    Agrees (Wire.validateNonce nonce) (TypeScript.validateNonce (js nonce)) := by
  apply agrees_of_iff
  rw [wire_validateNonce_iff, js_validateNonce_iff]

/-! ## The texts -/

theorem asciiText_line {s field : String} {u : Unit}
    (h : Wire.validateAsciiLine s field = .ok u) : AsciiText s :=
  (wire_validateAsciiLine_iff.mp h).2.asciiText

theorem asciiText_lineOpt {s field : String} {u : Unit}
    (h : Wire.validateAsciiLineOpt s field = .ok u) : AsciiText s :=
  (wire_validateAsciiLineOpt_iff.mp h).asciiText

theorem asciiText_nonce {nonce : String} {u : Unit} (h : Wire.validateNonce nonce = .ok u) :
    AsciiText nonce :=
  (wire_validateNonce_iff.mp h).asciiText

theorem asciiText_uint64 (n : UInt64) : AsciiText (toString n) :=
  asciiText_toString n.toNat

theorem asciiText_int64 (i : Int64) : AsciiText (toString i) :=
  asciiText_toString i.toInt

theorem asciiText_lineText {first : String} {rest : List String} (hfirst : AsciiText first)
    (hrest : ∀ line ∈ rest, AsciiText line) : AsciiText (lineText first rest) := by
  induction rest generalizing first with
  | nil => exact hfirst
  | cons next rest ih =>
    obtain ⟨hnext, hrest⟩ := List.forall_mem_cons.mp hrest
    have hfeed : AsciiText "\n" := by simp [AsciiText, isAscii]
    exact (hfirst.append hfeed).append (ih hnext hrest)

/-- Rust and Python write the same text, and it is ASCII. -/
theorem agrees_encodeAscii {header text : String} {fields : List (String × String)}
    (htext : text = lineText header (fields.map fun f => f.1 ++ "=" ++ f.2))
    (hheader : AsciiText header) (hkeys : ∀ f ∈ fields, AsciiText f.1)
    (hvalues : ∀ f ∈ fields, AsciiText f.2) :
    Agrees (pure (canonicalMessage header fields) : Except Error Bytes)
      (Python.encodeAscii text) := by
  have hascii : AsciiText text := by
    rw [htext]
    refine asciiText_lineText hheader fun line hline => ?_
    obtain ⟨f, hf, rfl⟩ := List.mem_map.mp hline
    have hequals : AsciiText "=" := by simp [AsciiText, isAscii]
    exact ((hkeys f hf).append hequals).append (hvalues f hf)
  rw [encodeAscii_eq hascii, htext]
  rfl

/-- Rust and TypeScript write the same text. -/
theorem agrees_textEncode {header : String} {units : TypeScript.JsString}
    {fields : List (String × String)}
    (hunits : units = js (lineText header (fields.map fun f => f.1 ++ "=" ++ f.2))) :
    Agrees (pure (canonicalMessage header fields) : Except Error Bytes)
      (pure (TypeScript.textEncode units) : Except TypeScript.JsError Bytes) := by
  rw [hunits, textEncode_js]
  rfl

section Encoders

variable {header : String}

theorem registrationChallenge_python (hheader : AsciiText header) (p o n c : String) (t : Int64) :
    Agrees (Wire.registrationChallenge header p o n c t)
      (Python.registrationChallenge header p o n c t.toInt) := by
  refine (line_python ..).bind fun _ hp => (line_python ..).bind fun _ ho => ?_
  refine (line_python ..).bind fun _ hn => (nonce_python c).bind fun _ hc => ?_
  refine agrees_encodeAscii ?_ hheader ?_ ?_
  · simp only [lineText, List.map_cons, List.map_nil, String.append_assoc, String.reduceAppend]
    rfl
  · simp [AsciiText, isAscii]
  · simp [asciiText_line hp, asciiText_line ho, asciiText_line hn, asciiText_nonce hc,
      asciiText_int64]

theorem registrationChallenge_js (p o n c : String) (t : Int64) :
    Agrees (Wire.registrationChallenge header p o n c t)
      (TypeScript.registrationChallenge header (js p) (js o) (js n) (js c) (.decimal t.toInt)) := by
  refine (line_js ..).bind fun _ _ => (line_js ..).bind fun _ _ => ?_
  refine (line_js ..).bind fun _ _ => (nonce_js c).bind fun _ _ => ?_
  apply agrees_textEncode
  simp only [lineText, List.map_cons, List.map_nil, js, JsNumber.text,
    ← Utf16.encode_append, String.append_assoc, String.reduceAppend]
  rfl

theorem transferIntent_python (hheader : AsciiText header) (s r : String) (z : UInt64)
    (m f c : String) (t : Int64) :
    Agrees (Wire.transferIntent header s r z m f c t)
      (Python.transferIntent header s r z.toNat m f c t.toInt) := by
  refine (line_python ..).bind fun _ hs => (line_python ..).bind fun _ hr => ?_
  refine (lineOpt_python ..).bind fun _ hm => (lineOpt_python ..).bind fun _ hf => ?_
  refine (nonce_python c).bind fun _ hc => ?_
  refine agrees_encodeAscii ?_ hheader ?_ ?_
  · simp only [lineText, List.map_cons, List.map_nil, String.append_assoc, String.reduceAppend]
    rfl
  · simp [AsciiText, isAscii]
  · simp [asciiText_line hs, asciiText_line hr, asciiText_lineOpt hm, asciiText_lineOpt hf,
      asciiText_nonce hc, asciiText_int64, asciiText_uint64]

theorem transferIntent_js (s r : String) (z : UInt64) (m f c : String) (t : Int64) :
    Agrees (Wire.transferIntent header s r z m f c t)
      (TypeScript.transferIntent header (js s) (js r) (.decimal z.toNat) (js m) (js f) (js c)
        (.decimal t.toInt)) := by
  refine (line_js ..).bind fun _ _ => (line_js ..).bind fun _ _ => ?_
  refine (lineOpt_js ..).bind fun _ _ => (lineOpt_js ..).bind fun _ _ => ?_
  refine (nonce_js c).bind fun _ _ => agrees_textEncode ?_
  simp only [lineText, List.map_cons, List.map_nil, js, JsNumber.text,
    ← Utf16.encode_append, String.append_assoc, String.reduceAppend]
  rfl

theorem dataTicketBytesV2_python (x r u : String) (e : Int64) (c : String) :
    Agrees (Wire.dataTicketBytesV2 x r u e c) (Python.dataTicketBytesV2 x r u e.toInt c) := by
  refine (line_python ..).bind fun _ hx => (line_python ..).bind fun _ hr => ?_
  refine (line_python ..).bind fun _ hu => (nonce_python c).bind fun _ hc => ?_
  refine agrees_encodeAscii ?_ ?_ ?_ ?_
  · simp only [lineText, List.map_cons, List.map_nil, String.append_assoc, String.reduceAppend]
    rfl
  · simp [AsciiText, isAscii, protocolVersionV2]
  · simp [AsciiText, isAscii]
  · simp [asciiText_line hx, asciiText_line hr, asciiText_line hu, asciiText_nonce hc,
      asciiText_int64]

theorem dataTicketBytesV2_js (x r u : String) (e : Int64) (c : String) :
    Agrees (Wire.dataTicketBytesV2 x r u e c)
      (TypeScript.dataTicketBytesV2 (js x) (js r) (js u) (.decimal e.toInt) (js c)) := by
  refine (line_js ..).bind fun _ _ => (line_js ..).bind fun _ _ => ?_
  refine (line_js ..).bind fun _ _ => (nonce_js c).bind fun _ _ => agrees_textEncode ?_
  simp only [lineText, List.map_cons, List.map_nil, js, JsNumber.text,
    ← Utf16.encode_append, String.append_assoc, String.reduceAppend]
  rfl

theorem rotateKeyChallenge_python (hheader : AsciiText header) (a o n c : String) (t : Int64) :
    Agrees (Wire.rotateKeyChallenge header a o n c t)
      (Python.rotateKeyChallenge header a o n c t.toInt) := by
  refine (line_python ..).bind fun _ ha => (line_python ..).bind fun _ ho => ?_
  refine (line_python ..).bind fun _ hn => (nonce_python c).bind fun _ hc => ?_
  refine Agrees.throwIf Iff.rfl fun _ => agrees_encodeAscii ?_ hheader ?_ ?_
  · simp only [lineText, List.map_cons, List.map_nil, String.append_assoc, String.reduceAppend]
    rfl
  · simp [AsciiText, isAscii]
  · simp [asciiText_line ha, asciiText_line ho, asciiText_line hn, asciiText_nonce hc,
      asciiText_int64]

theorem rotateKeyChallenge_js (a o n c : String) (t : Int64) :
    Agrees (Wire.rotateKeyChallenge header a o n c t)
      (TypeScript.rotateKeyChallenge header (js a) (js o) (js n) (js c) (.decimal t.toInt)) := by
  refine (line_js ..).bind fun _ _ => (line_js ..).bind fun _ _ => ?_
  refine (line_js ..).bind fun _ _ => (nonce_js c).bind fun _ _ => ?_
  refine Agrees.throwIf Utf16.encode_inj.symm fun _ => agrees_textEncode ?_
  simp only [lineText, List.map_cons, List.map_nil, js, JsNumber.text,
    ← Utf16.encode_append, String.append_assoc, String.reduceAppend]
  rfl

theorem transferReceipt_python (hheader : AsciiText header) (r x a c : String) (t : Int64) :
    Agrees (Wire.transferReceipt header r x a c t)
      (Python.transferReceipt header r x a c t.toInt) := by
  refine (line_python ..).bind fun _ hr => (line_python ..).bind fun _ hx => ?_
  refine (line_python ..).bind fun _ ha => (nonce_python c).bind fun _ hc => ?_
  refine Agrees.throwIf Iff.rfl fun _ => agrees_encodeAscii ?_ hheader ?_ ?_
  · simp only [lineText, List.map_cons, List.map_nil, String.append_assoc, String.reduceAppend]
    rfl
  · simp [AsciiText, isAscii]
  · simp [asciiText_line hr, asciiText_line hx, asciiText_line ha, asciiText_nonce hc,
      asciiText_int64]

theorem transferReceipt_js (r x a c : String) (t : Int64) :
    Agrees (Wire.transferReceipt header r x a c t)
      (TypeScript.transferReceipt header (js r) (js x) (js a) (js c) (.decimal t.toInt)) := by
  refine (line_js ..).bind fun _ _ => (line_js ..).bind fun _ _ => ?_
  refine (line_js ..).bind fun _ _ => (nonce_js c).bind fun _ _ => ?_
  refine Agrees.throwIf ?_ fun _ => agrees_textEncode ?_
  · simp [Utf16.encode_inj]
  · simp only [lineText, List.map_cons, List.map_nil, js, JsNumber.text,
      ← Utf16.encode_append, String.append_assoc, String.reduceAppend]
    rfl

theorem decisionRequestBytesV2_python (r x d : String) (e : UInt64) (c : String) (t : Int64) :
    Agrees (Wire.decisionRequestBytesV2 r x d e c t)
      (Python.decisionRequestBytesV2 r x d e.toNat c t.toInt) := by
  refine (line_python ..).bind fun _ hr => (line_python ..).bind fun _ hx => ?_
  refine (line_python ..).bind fun _ hd => (nonce_python c).bind fun _ hc => ?_
  -- The sign of the delay is checked where the argument may be negative only.
  rw [if_neg (not_lt.mpr (Int.natCast_nonneg _))]
  refine agrees_encodeAscii ?_ ?_ ?_ ?_
  · simp only [lineText, List.map_cons, List.map_nil, String.append_assoc, String.reduceAppend]
    rfl
  · simp [AsciiText, isAscii, protocolVersionV2]
  · simp [AsciiText, isAscii]
  · simp [asciiText_line hr, asciiText_line hx, asciiText_line hd, asciiText_nonce hc,
      asciiText_int64, asciiText_uint64]

theorem decisionRequestBytesV2_js (r x d : String) (e : UInt64) (c : String) (t : Int64) :
    Agrees (Wire.decisionRequestBytesV2 r x d e c t)
      (TypeScript.decisionRequestBytesV2 (js r) (js x) (js d) (.decimal e.toNat) (js c)
        (.decimal t.toInt)) := by
  refine (line_js ..).bind fun _ _ => (line_js ..).bind fun _ _ => ?_
  refine (line_js ..).bind fun _ _ => (nonce_js c).bind fun _ _ => ?_
  rw [if_neg (by simp [JsNumber.isNegative, JsNumber.isFinite])]
  apply agrees_textEncode
  simp only [lineText, List.map_cons, List.map_nil, js, JsNumber.text,
    ← Utf16.encode_append, String.append_assoc, String.reduceAppend]
  rfl

theorem decisionResponseBytesV2_python (r x d o w c : String) (t : Int64) :
    Agrees (Wire.decisionResponseBytesV2 r x d o w c t)
      (Python.decisionResponseBytesV2 r x d o w c t.toInt) := by
  refine (line_python ..).bind fun _ hr => (line_python ..).bind fun _ hx => ?_
  refine (line_python ..).bind fun _ hd => (line_python ..).bind fun _ ho => ?_
  refine (lineOpt_python ..).bind fun _ hw => (nonce_python c).bind fun _ hc => ?_
  refine Agrees.throwIf Iff.rfl fun _ => agrees_encodeAscii ?_ ?_ ?_ ?_
  · simp only [lineText, List.map_cons, List.map_nil, String.append_assoc, String.reduceAppend]
    rfl
  · simp [AsciiText, isAscii, protocolVersionV2]
  · simp [AsciiText, isAscii]
  · simp [asciiText_line hr, asciiText_line hx, asciiText_line hd, asciiText_line ho,
      asciiText_lineOpt hw, asciiText_nonce hc, asciiText_int64]

theorem decisionResponseBytesV2_js (r x d o w c : String) (t : Int64) :
    Agrees (Wire.decisionResponseBytesV2 r x d o w c t)
      (TypeScript.decisionResponseBytesV2 (js r) (js x) (js d) (js o) (js w) (js c)
        (.decimal t.toInt)) := by
  refine (line_js ..).bind fun _ _ => (line_js ..).bind fun _ _ => ?_
  refine (line_js ..).bind fun _ _ => (line_js ..).bind fun _ _ => ?_
  refine (lineOpt_js ..).bind fun _ _ => (nonce_js c).bind fun _ _ => ?_
  refine Agrees.throwIf ?_ fun _ => agrees_textEncode ?_
  · simp [Utf16.encode_inj]
  · simp only [lineText, List.map_cons, List.map_nil, js, JsNumber.text,
      ← Utf16.encode_append, String.append_assoc, String.reduceAppend]
    rfl

end Encoders

/-! ## The agreement -/

/-- The integer arguments of a call. -/
def integers : Message → List ℤ
  | .registrationChallengeBytes _ _ _ _ t | .registrationChallengeBytesV2 _ _ _ _ t => [t.toInt]
  | .transferIntentBytes _ _ z _ _ _ t | .transferIntentBytesV2 _ _ z _ _ _ t =>
    [z.toNat, t.toInt]
  | .dataTicketBytes _ _ _ e _ | .dataTicketBytesV2 _ _ _ e _ => [e.toInt]
  | .rotateKeyChallengeBytes _ _ _ _ t | .rotateKeyChallengeBytesV2 _ _ _ _ t => [t.toInt]
  | .transferReceiptBytes _ _ _ _ t | .transferReceiptBytesV2 _ _ _ _ t => [t.toInt]
  | .decisionRequestBytesV2 _ _ _ e _ t => [e.toNat, t.toInt]
  | .decisionResponseBytesV2 _ _ _ _ _ _ t => [t.toInt]

/-- The integers of a call are numbers of their own in every language. -/
def SafeIntegers (m : Message) : Prop := ∀ n ∈ integers m, n.natAbs ≤ JsNumber.maxSafeInteger

instance (m : Message) : Decidable (SafeIntegers m) := List.decidableBAll _ _

/-- The same call in the Python SDK, which has no data tickets of version 1. -/
def pythonBytes : Message → Option (Except Python.Exception Bytes)
  | .registrationChallengeBytes p o n c t =>
    some (Python.registrationChallengeBytes p o n c t.toInt)
  | .transferIntentBytes s r z m f c t =>
    some (Python.transferIntentBytes s r z.toNat m f c t.toInt)
  | .dataTicketBytes .. => none
  | .rotateKeyChallengeBytes a o n c t => some (Python.rotateKeyChallengeBytes a o n c t.toInt)
  | .transferReceiptBytes r x a c t => some (Python.transferReceiptBytes r x a c t.toInt)
  | .registrationChallengeBytesV2 p o n c t =>
    some (Python.registrationChallengeBytesV2 p o n c t.toInt)
  | .transferIntentBytesV2 s r z m f c t =>
    some (Python.transferIntentBytesV2 s r z.toNat m f c t.toInt)
  | .dataTicketBytesV2 x r u e c => some (Python.dataTicketBytesV2 x r u e.toInt c)
  | .rotateKeyChallengeBytesV2 a o n c t =>
    some (Python.rotateKeyChallengeBytesV2 a o n c t.toInt)
  | .transferReceiptBytesV2 r x a c t => some (Python.transferReceiptBytesV2 r x a c t.toInt)
  | .decisionRequestBytesV2 r x d e c t =>
    some (Python.decisionRequestBytesV2 r x d e.toNat c t.toInt)
  | .decisionResponseBytesV2 r x d o w c t =>
    some (Python.decisionResponseBytesV2 r x d o w c t.toInt)

/-- The same call in the TypeScript SDK, which has no data tickets of version 1 either. -/
def typescriptBytes : (m : Message) → SafeIntegers m → Option (Except TypeScript.JsError Bytes)
  | .registrationChallengeBytes p o n c t, h =>
    some (TypeScript.registrationChallengeBytes (js p) (js o) (js n) (js c)
      (.ofInt t.toInt (h _ (by simp [integers]))))
  | .transferIntentBytes s r z m f c t, h =>
    some (TypeScript.transferIntentBytes (js s) (js r)
      (.ofInt z.toNat (h _ (by simp [integers]))) (js m) (js f) (js c)
      (.ofInt t.toInt (h _ (by simp [integers]))))
  | .dataTicketBytes .., _ => none
  | .rotateKeyChallengeBytes a o n c t, h =>
    some (TypeScript.rotateKeyChallengeBytes (js a) (js o) (js n) (js c)
      (.ofInt t.toInt (h _ (by simp [integers]))))
  | .transferReceiptBytes r x a c t, h =>
    some (TypeScript.transferReceiptBytes (js r) (js x) (js a) (js c)
      (.ofInt t.toInt (h _ (by simp [integers]))))
  | .registrationChallengeBytesV2 p o n c t, h =>
    some (TypeScript.registrationChallengeBytesV2 (js p) (js o) (js n) (js c)
      (.ofInt t.toInt (h _ (by simp [integers]))))
  | .transferIntentBytesV2 s r z m f c t, h =>
    some (TypeScript.transferIntentBytesV2 (js s) (js r)
      (.ofInt z.toNat (h _ (by simp [integers]))) (js m) (js f) (js c)
      (.ofInt t.toInt (h _ (by simp [integers]))))
  | .dataTicketBytesV2 x r u e c, h =>
    some (TypeScript.dataTicketBytesV2 (js x) (js r) (js u)
      (.ofInt e.toInt (h _ (by simp [integers]))) (js c))
  | .rotateKeyChallengeBytesV2 a o n c t, h =>
    some (TypeScript.rotateKeyChallengeBytesV2 (js a) (js o) (js n) (js c)
      (.ofInt t.toInt (h _ (by simp [integers]))))
  | .transferReceiptBytesV2 r x a c t, h =>
    some (TypeScript.transferReceiptBytesV2 (js r) (js x) (js a) (js c)
      (.ofInt t.toInt (h _ (by simp [integers]))))
  | .decisionRequestBytesV2 r x d e c t, h =>
    some (TypeScript.decisionRequestBytesV2 (js r) (js x) (js d)
      (.ofInt e.toNat (h _ (by simp [integers]))) (js c)
      (.ofInt t.toInt (h _ (by simp [integers]))))
  | .decisionResponseBytesV2 r x d o w c t, h =>
    some (TypeScript.decisionResponseBytesV2 (js r) (js x) (js d) (js o) (js w) (js c)
      (.ofInt t.toInt (h _ (by simp [integers]))))

theorem header_asciiText (m : Message) : AsciiText m.header := by
  cases m <;> simp [AsciiText, isAscii, Message.header]

theorem python_agrees {m : Message} {py : Except Python.Exception Bytes}
    (h : pythonBytes m = some py) : Agrees m.encode py := by
  have hheader := header_asciiText m
  cases m with
  | dataTicketBytes => cases h
  | registrationChallengeBytes | registrationChallengeBytesV2 =>
    cases h
    exact registrationChallenge_python hheader ..
  | transferIntentBytes | transferIntentBytesV2 =>
    cases h
    exact transferIntent_python hheader ..
  | dataTicketBytesV2 =>
    cases h
    exact dataTicketBytesV2_python ..
  | rotateKeyChallengeBytes | rotateKeyChallengeBytesV2 =>
    cases h
    exact rotateKeyChallenge_python hheader ..
  | transferReceiptBytes | transferReceiptBytesV2 =>
    cases h
    exact transferReceipt_python hheader ..
  | decisionRequestBytesV2 =>
    cases h
    exact decisionRequestBytesV2_python ..
  | decisionResponseBytesV2 =>
    cases h
    exact decisionResponseBytesV2_python ..

theorem typescript_agrees {m : Message} {hsafe : SafeIntegers m}
    {ts : Except TypeScript.JsError Bytes} (h : typescriptBytes m hsafe = some ts) :
    Agrees m.encode ts := by
  cases m with
  | dataTicketBytes => cases h
  | registrationChallengeBytes | registrationChallengeBytesV2 =>
    cases h
    exact registrationChallenge_js ..
  | transferIntentBytes | transferIntentBytesV2 =>
    cases h
    exact transferIntent_js ..
  | dataTicketBytesV2 =>
    cases h
    exact dataTicketBytesV2_js ..
  | rotateKeyChallengeBytes | rotateKeyChallengeBytesV2 =>
    cases h
    exact rotateKeyChallenge_js ..
  | transferReceiptBytes | transferReceiptBytesV2 =>
    cases h
    exact transferReceipt_js ..
  | decisionRequestBytesV2 =>
    cases h
    exact decisionRequestBytesV2_js ..
  | decisionResponseBytesV2 =>
    cases h
    exact decisionResponseBytesV2_js ..

/-- Of the implementations of one format, all reject the arguments or all return the same bytes. -/
theorem implementations_agree (m : Message) (hsafe : SafeIntegers m)
    {py : Except Python.Exception Bytes} (hpy : pythonBytes m = some py)
    {ts : Except TypeScript.JsError Bytes} (hts : typescriptBytes m hsafe = some ts) :
    ((∃ e, m.encode = .error e) ∧ (∃ e, py = .error e) ∧ ∃ e, ts = .error e) ∨
      ∃ bytes, m.encode = .ok bytes ∧ py = .ok bytes ∧ ts = .ok bytes := by
  have hpython := python_agrees hpy
  have htypescript := typescript_agrees hts
  cases hencode : m.encode with
  | error e => exact .inl ⟨⟨e, rfl⟩, hpython.eq_error hencode, htypescript.eq_error hencode⟩
  | ok bytes => exact .inr ⟨bytes, rfl, hpython.eq_ok hencode, htypescript.eq_ok hencode⟩

/-- A nonce of eleven full-width digits has 33 bytes of UTF-8 and eleven units: each side refuses it
for a reason of its own. -/
theorem implementations_agree_fullWidth :
    let m : Message := .transferReceiptBytesV2 "spize:acme/bob:ddeeff" "tx_abc123" "ack"
      "１２３４５６７８９０１" 1700000000
    ∃ hsafe : SafeIntegers m, ∃ py, pythonBytes m = some py ∧ ∃ ts,
      typescriptBytes m hsafe = some ts ∧
      (((∃ e, m.encode = .error e) ∧ (∃ e, py = .error e) ∧ ∃ e, ts = .error e) ∨
        ∃ bytes, m.encode = .ok bytes ∧ py = .ok bytes ∧ ts = .ok bytes) := by
  intro m
  have hsafe : SafeIntegers m := by decide
  exact ⟨hsafe, _, rfl, _, rfl, implementations_agree m hsafe rfl rfl⟩

end AgentExchange.Sdk
