import AgentExchange.Core.HexBytes
import AgentExchange.Sdk.Clients
import AgentExchange.Sdk.WireAgreement

/-!
# The hexadecimal text of the TypeScript SDK

`toHex` and `fromHex` of `identity.ts`. The text is cut every two units and each slice goes
through `Number.parseInt`, which skips white space in front, takes a sign and stops at the first
unit that is no digit.
-/
namespace AgentExchange.TypeScript

open Library

/-- The value of a hexadecimal digit. -/
def hexUnitValue (u : UInt16) : ℕ :=
  if u ≤ 0x39 then u.toNat - 0x30 else if u ≤ 0x46 then u.toNat - 0x37 else u.toNat - 0x57

/-- The sign in front; `true` for a minus. -/
def stripSign : JsString → Bool × JsString
  | [] => (false, [])
  | u :: rest =>
    if u == 0x2d then (true, rest) else if u == 0x2b then (false, rest) else (false, u :: rest)

/-- The `0x` in front, which a radix of sixteen allows. -/
def stripPrefix : JsString → JsString
  | u :: v :: rest => if u == 0x30 && (v == 0x78 || v == 0x58) then rest else u :: v :: rest
  | s => s

/-- `Number.parseInt(_, 16)`; `none` is `NaN`. -/
def parseIntHex (s : JsString) : Option ℤ :=
  let signed := stripSign (s.dropWhile isWhiteSpace)
  let digits := (stripPrefix signed.2).takeWhile isHexUnit
  let value : ℕ := digits.foldl (fun value u => 16 * value + hexUnitValue u) 0
  if digits = [] then none else some (if signed.1 then -value else value)

/-- What a `Uint8Array` keeps of a number. -/
def toUint8 (n : ℤ) : UInt8 := UInt8.ofNat (n % 256).toNat

/-- The byte of slice `i`. -/
def sliceByte (i : ℕ) (a b : UInt16) : Except JsError UInt8 :=
  (orError (parseIntHex [a, b]) ⟨js ("bad hex at " ++ toString (i * 2))⟩).map toUint8

/-- The loop, from slice `i` on. -/
def fromHexPairs : ℕ → JsString → Except JsError Bytes
  | i, a :: b :: rest => do
    let byte ← sliceByte i a b
    let bytes ← fromHexPairs (i + 1) rest
    pure (byte :: bytes)
  | _, _ => .ok []

def fromHex (hex : JsString) : Except JsError Bytes :=
  if hex.length % 2 ≠ 0 then .error ⟨js ("odd-length hex: " ++ toString hex.length)⟩
  else fromHexPairs 0 hex

/-! ## What is hexadecimal -/

/-- An even number of hexadecimal digits. -/
def IsHex (s : JsString) : Prop := s.length % 2 = 0 ∧ ∀ u ∈ s, isHexUnit u = true

def lowerUnit (u : UInt16) : UInt16 := if 0x41 ≤ u && u ≤ 0x5a then u + 0x20 else u

def lowercase (s : JsString) : JsString := s.map lowerUnit

/-- The codec is exact at a text: what is hexadecimal is decoded and comes back in lower case,
anything else is an error. -/
def HexExactAt (s : JsString) : Prop :=
  (IsHex s → ∃ bytes, fromHex s = .ok bytes ∧ toHex bytes = lowercase s) ∧
    (¬IsHex s → ∃ e, fromHex s = .error e)

/-- A slice that is a number: a digit and anything that does not make it an `0x`, or white space
or a sign and a digit. -/
def isNumber (a b : UInt16) : Bool :=
  (isHexUnit a && !(a == 0x30 && (b == 0x78 || b == 0x58))) ||
    ((isWhiteSpace a || a == 0x2d || a == 0x2b) && isHexUnit b)

def allNumbers : JsString → Bool
  | a :: b :: rest => isNumber a b && allNumbers rest
  | _ => true

/-- Where every slice is a number, all are digits. -/
def HexRegular (s : JsString) : Prop :=
  s.length % 2 = 0 → allNumbers s = true → s.all isHexUnit = true

instance (s : JsString) : Decidable (HexRegular s) := inferInstanceAs (Decidable (_ → _))

/-! ## Slices -/

theorem toNat_lt_of_isHexUnit {u : UInt16} (h : isHexUnit u = true) : u.toNat < 128 := by
  simp only [isHexUnit, Bool.or_eq_true, Bool.and_eq_true, decide_eq_true_eq,
    UInt16.le_iff_toNat_le] at h
  have h39 : (0x39 : UInt16).toNat = 0x39 := rfl
  have h66 : (0x66 : UInt16).toNat = 0x66 := rfl
  have h46 : (0x46 : UInt16).toNat = 0x46 := rfl
  omega

theorem hexUnit_facts {u : UInt16} (h : isHexUnit u = true) :
    isWhiteSpace u = false ∧ (u == 0x2d) = false ∧ (u == 0x2b) = false ∧ (u == 0x78) = false ∧
      (u == 0x58) = false ∧ hexUnitValue u < 16 ∧
      UInt16.ofNat (hexDigit (hexUnitValue u)).toNat = lowerUnit u := by
  have htable : ∀ n < 128, isHexUnit (UInt16.ofNat n) = true →
      isWhiteSpace (UInt16.ofNat n) = false ∧ (UInt16.ofNat n == 0x2d) = false ∧
        (UInt16.ofNat n == 0x2b) = false ∧ (UInt16.ofNat n == 0x78) = false ∧
        (UInt16.ofNat n == 0x58) = false ∧ hexUnitValue (UInt16.ofNat n) < 16 ∧
        UInt16.ofNat (hexDigit (hexUnitValue (UInt16.ofNat n))).toNat =
          lowerUnit (UInt16.ofNat n) := by
    decide +kernel
  have hu := htable u.toNat (toNat_lt_of_isHexUnit h)
  rw [UInt16.ofNat_toNat] at hu
  exact hu h

theorem sign_not_space {u : UInt16} (h : u = 0x2d ∨ u = 0x2b) : isWhiteSpace u = false := by
  rcases h with rfl | rfl <;> decide

theorem not_isHexUnit {u : UInt16} (h : isWhiteSpace u = true ∨ u = 0x2d ∨ u = 0x2b) :
    isHexUnit u = false := by
  rw [Bool.eq_false_iff]
  intro hhex
  obtain ⟨hspace, hminus, hplus, -⟩ := hexUnit_facts hhex
  rcases h with h | rfl | rfl
  · simp [hspace] at h
  · simp at hminus
  · simp at hplus

theorem parseIntHex_space {a : UInt16} (ha : isWhiteSpace a = true) (b : UInt16) :
    (parseIntHex [a, b]).isSome = isNumber a b := by
  have hahex := not_isHexUnit (.inl ha)
  cases hb : isWhiteSpace b with
  | true =>
    have hbhex := not_isHexUnit (.inl hb)
    simp [parseIntHex, ha, hb, hahex, hbhex, stripSign, stripPrefix, isNumber]
  | false =>
    by_cases hsign : b = 0x2d ∨ b = 0x2b
    · have hbhex := not_isHexUnit (.inr hsign)
      rcases hsign with rfl | rfl <;>
        simp [parseIntHex, ha, hb, hahex, hbhex, stripSign, stripPrefix, isNumber]
    · obtain ⟨hminus, hplus⟩ := not_or.mp hsign
      cases hbhex : isHexUnit b <;>
        simp [parseIntHex, ha, hb, hahex, hbhex, stripSign, stripPrefix, isNumber, hminus, hplus]

theorem parseIntHex_sign {a : UInt16} (h : a = 0x2d ∨ a = 0x2b) (b : UInt16) :
    (parseIntHex [a, b]).isSome = isNumber a b := by
  have ha := sign_not_space h
  have hahex := not_isHexUnit (.inr h)
  rcases h with rfl | rfl
  all_goals
    cases hbhex : isHexUnit b <;>
      simp [parseIntHex, ha, hahex, hbhex, stripSign, stripPrefix, isNumber]

/-- After a hexadecimal digit there is a number, except in front of the `x` of a prefix. -/
theorem parseIntHex_hex {a : UInt16} (hahex : isHexUnit a = true) (b : UInt16) :
    (parseIntHex [a, b]).isSome = isNumber a b := by
  obtain ⟨ha, hminus, hplus, -⟩ := hexUnit_facts hahex
  rw [beq_eq_false_iff_ne] at hminus hplus
  by_cases hx : a = 0x30 ∧ (b = 0x78 ∨ b = 0x58)
  · obtain ⟨rfl, rfl | rfl⟩ := hx
    · decide
    · decide
  · have hnumber : isNumber a b = true := by
      simp only [isNumber, hahex, Bool.true_and, Bool.or_eq_true, Bool.not_eq_true',
        Bool.and_eq_false_iff, Bool.or_eq_false_iff, beq_eq_false_iff_ne]
      left
      by_cases hzero : a = 0x30
      · right
        constructor
        · exact fun h => hx ⟨hzero, .inl h⟩
        · exact fun h => hx ⟨hzero, .inr h⟩
      · exact .inl hzero
    simp [parseIntHex, ha, hahex, stripSign, stripPrefix, hminus, hplus, hx, hnumber]

/-- A slice is a number or `NaN`. -/
theorem parseIntHex_pair (a b : UInt16) : (parseIntHex [a, b]).isSome = isNumber a b := by
  cases ha : isWhiteSpace a with
  | true => exact parseIntHex_space ha b
  | false =>
    by_cases hsign : a = 0x2d ∨ a = 0x2b
    · exact parseIntHex_sign hsign b
    · cases hahex : isHexUnit a with
      | true => exact parseIntHex_hex hahex b
      | false =>
        obtain ⟨hminus, hplus⟩ := not_or.mp hsign
        have hzero : a ≠ 0x30 := by
          rintro rfl
          cases hahex
        simp [parseIntHex, ha, hahex, stripSign, stripPrefix, isNumber, hminus, hplus, hzero]

theorem sliceByte_of_number {a b : UInt16} (h : isNumber a b = true) (i : ℕ) :
    ∃ byte, sliceByte i a b = .ok byte := by
  rw [← parseIntHex_pair, Option.isSome_iff_exists] at h
  obtain ⟨n, hn⟩ := h
  rw [sliceByte, hn]
  exact ⟨_, rfl⟩

theorem sliceByte_of_not_number {a b : UInt16} (h : isNumber a b = false) (i : ℕ) :
    ∃ e, sliceByte i a b = .error e := by
  rw [← parseIntHex_pair, Option.isSome_eq_false_iff, Option.isNone_iff_eq_none] at h
  rw [sliceByte, h]
  exact ⟨_, rfl⟩

theorem isNumber_of_hex {a b : UInt16} (ha : isHexUnit a = true) (hb : isHexUnit b = true) :
    isNumber a b = true := by
  obtain ⟨-, -, -, hx, hX, -⟩ := hexUnit_facts hb
  simp [isNumber, ha, hx, hX]

/-- Two digits are their byte. -/
theorem sliceByte_of_hex {a b : UInt16} (ha : isHexUnit a = true) (hb : isHexUnit b = true)
    (i : ℕ) :
    sliceByte i a b = .ok (toUint8 (16 * hexUnitValue a + hexUnitValue b : ℕ)) := by
  obtain ⟨hspace, hminus, hplus, -⟩ := hexUnit_facts ha
  obtain ⟨-, -, -, hx, hX, -⟩ := hexUnit_facts hb
  rw [beq_eq_false_iff_ne] at hminus hplus hx hX
  have hparse : parseIntHex [a, b] = some ((16 * hexUnitValue a + hexUnitValue b : ℕ) : ℤ) := by
    simp [parseIntHex, hspace, stripSign, stripPrefix, hminus, hplus, hx, hX, ha, hb]
  rw [sliceByte, hparse]
  rfl

theorem toUint8_of_lt {n : ℕ} (h : n < 256) : (toUint8 n).toNat = n := by
  have hmod : ((n : ℤ) % 256).toNat = n := by omega
  rw [toUint8, hmod]
  exact UInt8.toNat_ofNat_of_lt h

theorem toHex_cons (b : UInt8) (bytes : Bytes) :
    toHex (b :: bytes) = UInt16.ofNat (hexDigit (b.toNat / 16)).toNat ::
      UInt16.ofNat (hexDigit (b.toNat % 16)).toNat :: toHex bytes := by
  have hb := b.toNat_lt
  have hhi := Utf16.encodeChar_ascii (show (hexDigit (b.toNat / 16)).toNat < 128 by
    simpa [isAscii] using isAscii_hexDigit (show b.toNat / 16 < 16 by omega))
  have hlo := Utf16.encodeChar_ascii (show (hexDigit (b.toNat % 16)).toNat < 128 by
    simpa [isAscii] using isAscii_hexDigit (show b.toNat % 16 < 16 by omega))
  simp only [toHex, js, Utf16.encode, hexEncode, String.toList_ofList, List.flatMap_cons,
    List.cons_append, List.nil_append, hhi, hlo]

/-! ## The loop -/

theorem fromHexPairs_of_numbers {s : JsString} (h : allNumbers s = true) (i : ℕ) :
    ∃ bytes, fromHexPairs i s = .ok bytes := by
  induction s using allNumbers.induct generalizing i with
  | case1 a b rest ih =>
    rw [allNumbers, Bool.and_eq_true] at h
    obtain ⟨byte, hbyte⟩ := sliceByte_of_number h.1 i
    obtain ⟨bytes, hrest⟩ := ih h.2 (i + 1)
    rw [fromHexPairs, hbyte, hrest]
    exact ⟨_, rfl⟩
  | case2 s hs =>
    unfold fromHexPairs
    split
    · exact absurd rfl (hs _ _ _)
    · exact ⟨_, rfl⟩

theorem fromHexPairs_of_not_numbers {s : JsString} (h : allNumbers s = false) (i : ℕ) :
    ∃ e, fromHexPairs i s = .error e := by
  induction s using allNumbers.induct generalizing i with
  | case1 a b rest ih =>
    rw [fromHexPairs]
    cases hnumber : isNumber a b with
    | true =>
      rw [allNumbers, hnumber, Bool.true_and] at h
      obtain ⟨byte, hbyte⟩ := sliceByte_of_number hnumber i
      obtain ⟨e, hrest⟩ := ih h (i + 1)
      rw [hbyte, hrest]
      exact ⟨_, rfl⟩
    | false =>
      obtain ⟨e, he⟩ := sliceByte_of_not_number hnumber i
      rw [he]
      exact ⟨_, rfl⟩
  | case2 s hs =>
    unfold allNumbers at h
    split at h
    · exact absurd rfl (hs _ _ _)
    · cases h

/-- Digits are decoded, and the text of their bytes is theirs in lower case. -/
theorem fromHexPairs_of_hex {s : JsString} (heven : s.length % 2 = 0)
    (h : ∀ u ∈ s, isHexUnit u = true) (i : ℕ) :
    ∃ bytes, fromHexPairs i s = .ok bytes ∧ toHex bytes = lowercase s := by
  induction s using allNumbers.induct generalizing i with
  | case1 a b rest ih =>
    have ha := h a List.mem_cons_self
    have hb := h b (List.mem_cons_of_mem _ List.mem_cons_self)
    simp only [List.length_cons] at heven
    obtain ⟨bytes, hrest, htext⟩ := ih (by omega)
      (fun u hu => h u (List.mem_cons_of_mem _ (List.mem_cons_of_mem _ hu))) (i + 1)
    obtain ⟨-, -, -, -, -, hav, hla⟩ := hexUnit_facts ha
    obtain ⟨-, -, -, -, -, hbv, hlb⟩ := hexUnit_facts hb
    refine ⟨toUint8 (16 * hexUnitValue a + hexUnitValue b : ℕ) :: bytes, ?_, ?_⟩
    · rw [fromHexPairs, sliceByte_of_hex ha hb, hrest]
      rfl
    · have hdiv : (16 * hexUnitValue a + hexUnitValue b) / 16 = hexUnitValue a := by omega
      have hmod : (16 * hexUnitValue a + hexUnitValue b) % 16 = hexUnitValue b := by omega
      rw [toHex_cons, toUint8_of_lt (by omega), hdiv, hmod, hla, hlb, htext]
      rfl
  | case2 s hs =>
    cases s with
    | nil => exact ⟨[], rfl, rfl⟩
    | cons a s =>
      cases s with
      | nil => simp at heven
      | cons b s => exact absurd rfl (hs a b s)

/-! ## Exact texts -/

theorem fromHex_of_isHex {s : JsString} (h : IsHex s) :
    ∃ bytes, fromHex s = .ok bytes ∧ toHex bytes = lowercase s := by
  have heven := h.1
  rw [fromHex, if_neg (by omega)]
  exact fromHexPairs_of_hex h.1 h.2 0

/-- The codec is exact at the regular texts and at no other. -/
theorem hexExactAt_iff (s : JsString) : HexExactAt s ↔ HexRegular s := by
  constructor
  · intro hexact heven hnumbers
    by_contra hnot
    obtain ⟨e, herror⟩ := hexact.2 fun hhex => hnot (List.all_eq_true.mpr hhex.2)
    obtain ⟨bytes, hbytes⟩ := fromHexPairs_of_numbers hnumbers 0
    rw [fromHex, if_neg (by omega), hbytes] at herror
    cases herror
  · intro hregular
    refine ⟨fromHex_of_isHex, ?_⟩
    intro hnot
    rw [fromHex]
    split_ifs with hodd
    · exact ⟨_, rfl⟩
    · apply fromHexPairs_of_not_numbers
      rw [Bool.eq_false_iff]
      intro hnumbers
      have heven : s.length % 2 = 0 := by omega
      exact hnot ⟨heven, List.all_eq_true.mp (hregular heven hnumbers)⟩

theorem isHex_js_iff (t : String) : IsHex (js t) ↔ HexBytes.IsHex t := by
  have hunits : (∀ u ∈ js t, isHexUnit u = true) ↔ ∀ c ∈ t.toList, isAsciiHexdigit c = true := by
    apply Sdk.forall_units_iff
    · decide
    · intro u hu
      rw [Bool.eq_false_iff]
      intro hhex
      have hlt := toNat_lt_of_isHexUnit hhex
      omega
    · intro c hc
      rw [Bool.eq_false_iff]
      intro hhex
      rw [isAscii_of_isAsciiHexdigit hhex] at hc
      cases hc
  rw [IsHex, HexBytes.IsHex, hunits]
  apply and_congr_left
  intro hhex
  rw [Sdk.js_length fun c hc => isAscii_of_isAsciiHexdigit (hhex c hc)]

theorem lowercase_toHex (bytes : Bytes) : lowercase (toHex bytes) = toHex bytes := by
  have hdigit : ∀ n < 16, lowerUnit (UInt16.ofNat (hexDigit n).toNat) =
      UInt16.ofNat (hexDigit n).toNat := by
    decide
  induction bytes with
  | nil => rfl
  | cons b bytes ih =>
    have hb := b.toNat_lt
    rw [lowercase] at ih
    rw [toHex_cons, lowercase, List.map_cons, List.map_cons, ih, hdigit _ (by omega),
      hdigit _ (by omega)]

theorem toHex_injective : Function.Injective toHex := by
  intro a b h
  exact hexEncode_inj (Utf16.encode_injective h)

theorem fromHex_toHex (bytes : Bytes) : fromHex (toHex bytes) = .ok bytes := by
  have hhex : IsHex (toHex bytes) := (isHex_js_iff _).mpr (HexBytes.isHex_hexEncode bytes)
  obtain ⟨decoded, hdecode, htext⟩ := fromHex_of_isHex hhex
  rw [lowercase_toHex] at htext
  rw [hdecode, toHex_injective htext]

/-- An exact codec accepts what is hexadecimal. -/
theorem accepts_iff_of_exactAt {s : JsString} (h : HexExactAt s) :
    (∃ bytes, fromHex s = .ok bytes) ↔ IsHex s := by
  constructor
  · rintro ⟨bytes, hbytes⟩
    by_contra hnot
    obtain ⟨e, he⟩ := h.2 hnot
    cases he.symm.trans hbytes
  · intro hhex
    obtain ⟨bytes, hbytes, -⟩ := h.1 hhex
    exact ⟨bytes, hbytes⟩

/-- The two codecs are exact, and agree with the `hex` crate on what they accept, at the regular
texts and at no other; what they write they read back. -/
theorem hex_codecs_exact_iff (text : String) (units : JsString) (bytes : Bytes) :
    ((HexBytes.ExactAt text ∧ ((∃ bytes, HexBytes.hexDecode text = .ok bytes) ↔
        ∃ bytes, AgentExchange.hexDecode text = .ok bytes)) ↔ HexBytes.Regular text) ∧
      ((HexExactAt units ∧ ∀ t, js t = units → ((∃ bytes, fromHex units = .ok bytes) ↔
        ∃ bytes, AgentExchange.hexDecode t = .ok bytes)) ↔ HexRegular units) ∧
      HexBytes.hexDecode (HexBytes.hexEncode bytes) = .ok bytes ∧
      fromHex (toHex bytes) = .ok bytes := by
  refine ⟨?_, ?_, HexBytes.hexDecode_hexEncode bytes, fromHex_toHex bytes⟩
  · rw [HexBytes.crate_accepts_iff, ← HexBytes.exactAt_iff]
    exact ⟨And.left, fun h => ⟨h, HexBytes.accepts_iff_of_exactAt h⟩⟩
  · rw [← hexExactAt_iff]
    constructor
    · exact And.left
    · intro h
      constructor
      · exact h
      · intro t ht
        subst ht
        rw [HexBytes.crate_accepts_iff, ← isHex_js_iff]
        exact accepts_iff_of_exactAt h

/-- A sign in front of a digit is decoded by both, and a slice that ends inside a character
panics. -/
theorem hex_codecs_lenient :
    HexBytes.hexDecode "+1" = .ok [1] ∧ fromHex (js "+1") = .ok [1] ∧
      HexBytes.hexDecode "€1" = .error .panic ∧
      ¬HexBytes.ExactAt "+1" ∧ ¬HexExactAt (js "+1") ∧ ¬HexBytes.ExactAt "€1" := by
  rw [HexBytes.exactAt_iff, HexBytes.exactAt_iff, hexExactAt_iff]
  refine ⟨by decide, by decide, by decide, by decide, by decide, by decide⟩

end AgentExchange.TypeScript
