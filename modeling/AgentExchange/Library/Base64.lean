import Mathlib.Tactic

/-!
# Unpadded base64url

The URL-safe alphabet without padding. A decoder that insists on a legal length and
on zero trailing bits accepts just the texts the encoder writes, so each text has
one value and each value one text.
-/
namespace AgentExchange.Library.Base64

/-- The digit of a value below 64. -/
def digit (n : ℕ) : Char :=
  if n < 26 then Char.ofNat (65 + n)
  else if n < 52 then Char.ofNat (71 + n)
  else if n < 62 then Char.ofNat (n - 4)
  else if n = 62 then '-'
  else '_'

def digitValue (c : Char) : Option ℕ :=
  let n := c.toNat
  if 65 ≤ n ∧ n ≤ 90 then some (n - 65)
  else if 97 ≤ n ∧ n ≤ 122 then some (n - 71)
  else if 48 ≤ n ∧ n ≤ 57 then some (n + 4)
  else if c = '-' then some 62
  else if c = '_' then some 63
  else none

theorem digitValue_digit {n : ℕ} (h : n < 64) : digitValue (digit n) = some n := by
  have hall : ∀ n < 64, digitValue (digit n) = some n := by decide
  exact hall n h

theorem digit_of_digitValue {c : Char} {n : ℕ} (h : digitValue c = some n) :
    n < 64 ∧ digit n = c := by
  have hupper : ∀ m, 65 ≤ m → m ≤ 90 → digit (m - 65) = Char.ofNat m := by
    intro m hlow hhigh
    interval_cases m <;> rfl
  have hlower : ∀ m, 97 ≤ m → m ≤ 122 → digit (m - 71) = Char.ofNat m := by
    intro m hlow hhigh
    interval_cases m <;> rfl
  have hnumeral : ∀ m, 48 ≤ m → m ≤ 57 → digit (m + 4) = Char.ofNat m := by
    intro m hlow hhigh
    interval_cases m <;> rfl
  unfold digitValue at h
  dsimp only at h
  split_ifs at h with h1 h2 h3 h4 h5
  · cases h
    exact ⟨by omega, by rw [hupper _ h1.1 h1.2, Char.ofNat_toNat]⟩
  · cases h
    exact ⟨by omega, by rw [hlower _ h2.1 h2.2, Char.ofNat_toNat]⟩
  · cases h
    exact ⟨by omega, by rw [hnumeral _ h3.1 h3.2, Char.ofNat_toNat]⟩
  · cases h
    exact ⟨by omega, h4.symm⟩
  · cases h
    exact ⟨by omega, h5.symm⟩

def encode : List UInt8 → List Char
  | [] => []
  | [a] => [digit (a.toNat / 4), digit (a.toNat % 4 * 16)]
  | [a, b] =>
    [digit (a.toNat / 4), digit (a.toNat % 4 * 16 + b.toNat / 16), digit (b.toNat % 16 * 4)]
  | a :: b :: c :: rest =>
    digit (a.toNat / 4) :: digit (a.toNat % 4 * 16 + b.toNat / 16) ::
      digit (b.toNat % 16 * 4 + c.toNat / 64) :: digit (c.toNat % 64) :: encode rest

/-- The last group must leave no bits over. -/
def decode : List Char → Option (List UInt8)
  | [] => some []
  | [_] => none
  | [w, x] => do
    let w ← digitValue w
    let x ← digitValue x
    if x % 16 = 0 then some [UInt8.ofNat (w * 4 + x / 16)] else none
  | [w, x, y] => do
    let w ← digitValue w
    let x ← digitValue x
    let y ← digitValue y
    if y % 4 = 0 then some [UInt8.ofNat (w * 4 + x / 16), UInt8.ofNat (x % 16 * 16 + y / 4)]
    else none
  | w :: x :: y :: z :: rest => do
    let w ← digitValue w
    let x ← digitValue x
    let y ← digitValue y
    let z ← digitValue z
    let bytes ← decode rest
    some (UInt8.ofNat (w * 4 + x / 16) :: UInt8.ofNat (x % 16 * 16 + y / 4) ::
      UInt8.ofNat (y % 4 * 64 + z) :: bytes)

theorem decode_encode (bytes : List UInt8) : decode (encode bytes) = some bytes := by
  have hbyte : ∀ (b : UInt8) (n : ℕ), n = b.toNat → UInt8.ofNat n = b := by
    intro b n h
    rw [h, UInt8.ofNat_toNat]
  induction bytes using encode.induct with
  | case1 => rfl
  | case2 a =>
    have ha := a.toNat_lt
    simp only [encode, decode, digitValue_digit (show a.toNat / 4 < 64 by omega),
      digitValue_digit (show a.toNat % 4 * 16 < 64 by omega), Option.bind_eq_bind,
      Option.bind_some]
    rw [if_pos (by omega), hbyte a _ (by omega)]
  | case3 a b =>
    have ha := a.toNat_lt
    have hb := b.toNat_lt
    simp only [encode, decode, digitValue_digit (show a.toNat / 4 < 64 by omega),
      digitValue_digit (show a.toNat % 4 * 16 + b.toNat / 16 < 64 by omega),
      digitValue_digit (show b.toNat % 16 * 4 < 64 by omega), Option.bind_eq_bind,
      Option.bind_some]
    rw [if_pos (by omega), hbyte a _ (by omega), hbyte b _ (by omega)]
  | case4 a b c rest ih =>
    have ha := a.toNat_lt
    have hb := b.toNat_lt
    have hc := c.toNat_lt
    simp only [encode, decode, digitValue_digit (show a.toNat / 4 < 64 by omega),
      digitValue_digit (show a.toNat % 4 * 16 + b.toNat / 16 < 64 by omega),
      digitValue_digit (show b.toNat % 16 * 4 + c.toNat / 64 < 64 by omega),
      digitValue_digit (show c.toNat % 64 < 64 by omega), ih, Option.bind_eq_bind,
      Option.bind_some]
    rw [hbyte a _ (by omega), hbyte b _ (by omega), hbyte c _ (by omega)]

theorem encode_of_decode {text : List Char} {bytes : List UInt8} (h : decode text = some bytes) :
    encode bytes = text := by
  have hbyte : ∀ n < 256, (UInt8.ofNat n).toNat = n := fun n hn => UInt8.toNat_ofNat_of_lt' hn
  induction text using decode.induct generalizing bytes with
  | case1 =>
    cases h
    rfl
  | case2 w => cases h
  | case3 w x =>
    simp only [decode, Option.bind_eq_bind, Option.bind_eq_some_iff] at h
    obtain ⟨i, hi, j, hj, h⟩ := h
    obtain ⟨hi64, rfl⟩ := digit_of_digitValue hi
    obtain ⟨hj64, rfl⟩ := digit_of_digitValue hj
    split_ifs at h with hrest
    cases h
    have h1 : (i * 4 + j / 16) / 4 = i := by omega
    have h2 : (i * 4 + j / 16) % 4 * 16 = j := by omega
    rw [encode, hbyte _ (by omega), h1, h2]
  | case4 w x y =>
    simp only [decode, Option.bind_eq_bind, Option.bind_eq_some_iff] at h
    obtain ⟨i, hi, j, hj, k, hk, h⟩ := h
    obtain ⟨hi64, rfl⟩ := digit_of_digitValue hi
    obtain ⟨hj64, rfl⟩ := digit_of_digitValue hj
    obtain ⟨hk64, rfl⟩ := digit_of_digitValue hk
    split_ifs at h with hrest
    cases h
    have h1 : (i * 4 + j / 16) / 4 = i := by omega
    have h2 : (i * 4 + j / 16) % 4 * 16 + (j % 16 * 16 + k / 4) / 16 = j := by omega
    have h3 : (j % 16 * 16 + k / 4) % 16 * 4 = k := by omega
    rw [encode, hbyte _ (by omega), hbyte _ (by omega), h1, h2, h3]
  | case5 w x y z rest ih =>
    simp only [decode, Option.bind_eq_bind, Option.bind_eq_some_iff] at h
    obtain ⟨i, hi, j, hj, k, hk, l, hl, tail, htail, h⟩ := h
    obtain ⟨hi64, rfl⟩ := digit_of_digitValue hi
    obtain ⟨hj64, rfl⟩ := digit_of_digitValue hj
    obtain ⟨hk64, rfl⟩ := digit_of_digitValue hk
    obtain ⟨hl64, rfl⟩ := digit_of_digitValue hl
    cases h
    have h1 : (i * 4 + j / 16) / 4 = i := by omega
    have h2 : (i * 4 + j / 16) % 4 * 16 + (j % 16 * 16 + k / 4) / 16 = j := by omega
    have h3 : (j % 16 * 16 + k / 4) % 16 * 4 + (k % 4 * 64 + l) / 64 = k := by omega
    have h4 : (k % 4 * 64 + l) % 64 = l := by omega
    rw [encode, hbyte _ (by omega), hbyte _ (by omega), hbyte _ (by omega), h1, h2, h3, h4, ih htail]

/-- The decoder accepts just what the encoder writes. -/
theorem decode_eq_some {text : List Char} {bytes : List UInt8} :
    decode text = some bytes ↔ encode bytes = text := by
  constructor
  · exact encode_of_decode
  · rintro rfl
    exact decode_encode bytes

theorem length_encode (bytes : List UInt8) :
    (encode bytes).length = (4 * bytes.length + 2) / 3 := by
  induction bytes using encode.induct with
  | case1 => rfl
  | case2 a => simp [encode]
  | case3 a b => simp [encode]
  | case4 a b c rest ih =>
    simp only [encode, List.length_cons, ih]
    omega

/-- What holds of every digit holds of every character that is written. -/
theorem forall_mem_encode {P : Char → Prop} (h : ∀ n < 64, P (digit n)) (bytes : List UInt8) :
    ∀ c ∈ encode bytes, P c := by
  induction bytes using encode.induct with
  | case1 => simp [encode]
  | case2 a =>
    have ha := a.toNat_lt
    simp only [encode, List.forall_mem_cons]
    exact ⟨h _ (by omega), h _ (by omega), by simp⟩
  | case3 a b =>
    have ha := a.toNat_lt
    have hb := b.toNat_lt
    simp only [encode, List.forall_mem_cons]
    exact ⟨h _ (by omega), h _ (by omega), h _ (by omega), by simp⟩
  | case4 a b c rest ih =>
    have ha := a.toNat_lt
    have hb := b.toNat_lt
    have hc := c.toNat_lt
    simp only [encode, List.forall_mem_cons]
    exact ⟨h _ (by omega), h _ (by omega), h _ (by omega), h _ (by omega), ih⟩

example : encode [0xfb, 0xff] = "-_8".toList := by decide
example : decode "-_9".toList = none := by decide

end AgentExchange.Library.Base64
