import AgentExchange.Library.Framing

/-!
# Lenient UTF-8

The decoder that puts the replacement character where a sequence is malformed and reads the byte
that broke the sequence anew. It takes one byte at a time. An open sequence knows which bytes it
goes on with and that all of them lead to scalar values outside ASCII, so the ASCII characters of
the text are the ASCII bytes of the input, each in its place.
-/
namespace AgentExchange.Library.Utf8Lossy

def replacement : Char := Char.ofNat 0xfffd

def byteOrderMark : Char := Char.ofNat 0xfeff

/-- A code point of which `n` bytes are still to come will be a scalar value outside ASCII. -/
def Leads (n codePoint : ℕ) : Prop :=
  0x80 ≤ codePoint * 64 ^ n ∧ (codePoint + 1) * 64 ^ n ≤ 0x110000 ∧
    ((codePoint + 1) * 64 ^ n ≤ 0xd800 ∨ 0xe000 ≤ codePoint * 64 ^ n)

theorem Leads.next {n codePoint : ℕ} (h : Leads (n + 1) codePoint) (b : ℕ) :
    Leads n (codePoint * 64 + b % 64) := by
  unfold Leads at h ⊢
  have hfirst : codePoint * 64 ^ (n + 1) = codePoint * 64 * 64 ^ n := by ring
  have hlast : (codePoint + 1) * 64 ^ (n + 1) = (codePoint * 64 + 64) * 64 ^ n := by ring
  have hlower : codePoint * 64 * 64 ^ n ≤ (codePoint * 64 + b % 64) * 64 ^ n :=
    Nat.mul_le_mul_right _ (by omega)
  have hupper : (codePoint * 64 + b % 64 + 1) * 64 ^ n ≤ (codePoint * 64 + 64) * 64 ^ n :=
    Nat.mul_le_mul_right _ (by omega)
  rw [hfirst, hlast] at h
  omega

theorem Leads.toNat_ofNat {codePoint : ℕ} (h : Leads 0 codePoint) :
    (Char.ofNat codePoint).toNat = codePoint := by
  have hvalid : codePoint.isValidChar := by
    unfold Leads at h
    simp only [Nat.isValidChar]
    omega
  rw [Char.ofNat, dif_pos hvalid]
  rfl

/-- A sequence that has been opened. The next byte is to lie within bounds, and `after` more bytes
follow it. -/
structure Pending where
  codePoint : ℕ
  after : ℕ
  lower : ℕ := 0x80
  upper : ℕ := 0xbf
  beyondAscii : 0x80 ≤ lower
  leads : ∀ b, lower ≤ b → b ≤ upper → Leads after (codePoint * 64 + b % 64)

/-! The three kinds of lead bytes. The narrower bounds keep out overlong forms, surrogates and what
lies beyond the last code point. -/

def Pending.two (b : ℕ) (h : 0xc2 ≤ b ∧ b ≤ 0xdf) : Pending where
  codePoint := b % 32
  after := 0
  beyondAscii := by decide
  leads c hlower hupper := by
    unfold Leads
    omega

def Pending.three (b : ℕ) (h : 0xe0 ≤ b ∧ b ≤ 0xef) : Pending where
  codePoint := b % 16
  after := 1
  lower := if b = 0xe0 then 0xa0 else 0x80
  upper := if b = 0xed then 0x9f else 0xbf
  beyondAscii := by split_ifs <;> decide
  leads c hlower hupper := by
    unfold Leads
    split_ifs at hlower hupper <;> omega

def Pending.four (b : ℕ) (h : 0xf0 ≤ b ∧ b ≤ 0xf4) : Pending where
  codePoint := b % 8
  after := 2
  lower := if b = 0xf0 then 0x90 else 0x80
  upper := if b = 0xf4 then 0x8f else 0xbf
  beyondAscii := by split_ifs <;> decide
  leads c hlower hupper := by
    unfold Leads
    split_ifs at hlower hupper <;> omega

/-- A byte where no sequence is open: the characters it gives, and the sequence it opens. -/
def start (b : ℕ) : List Char × Option Pending :=
  if b ≤ 0x7f then ([Char.ofNat b], none)
  else if h : 0xc2 ≤ b ∧ b ≤ 0xdf then ([], some (.two b h))
  else if h : 0xe0 ≤ b ∧ b ≤ 0xef then ([], some (.three b h))
  else if h : 0xf0 ≤ b ∧ b ≤ 0xf4 then ([], some (.four b h))
  else ([replacement], none)

/-- A byte that an open sequence goes on with. -/
def Pending.take (p : Pending) (b : ℕ) (h : p.lower ≤ b ∧ b ≤ p.upper) :
    List Char × Option Pending :=
  match hafter : p.after with
  | 0 => ([Char.ofNat (p.codePoint * 64 + b % 64)], none)
  | n + 1 =>
    ([], some
      { codePoint := p.codePoint * 64 + b % 64
        after := n
        beyondAscii := by decide
        leads := by
          have hleads := p.leads b h.1 h.2
          rw [hafter] at hleads
          exact fun c _ _ => hleads.next c })

/-- A byte that breaks the open sequence is read anew. -/
def next : Option Pending → ℕ → List Char × Option Pending
  | none, b => start b
  | some p, b =>
    if h : p.lower ≤ b ∧ b ≤ p.upper then p.take b h
    else (replacement :: (start b).1, (start b).2)

def decodeFrom : Option Pending → List UInt8 → List Char
  | none, [] => []
  | some _, [] => [replacement]
  | p, b :: bytes => (next p b.toNat).1 ++ decodeFrom (next p b.toNat).2 bytes

/-- A byte order mark at the start is not part of the text. -/
def dropByteOrderMark : List Char → List Char
  | [] => []
  | c :: cs => if c = byteOrderMark then cs else c :: cs

def decode (bytes : List UInt8) : List Char := dropByteOrderMark (decodeFrom none bytes)

example : decode [0xef, 0xbb, 0xbf, 0x41, 0xe2, 0x82, 0xac, 0xe2, 0x28, 0xf0] =
    ['A', '€', replacement, '(', replacement] := by
  decide

/-! ## The ASCII characters of the text -/

theorem decodeFrom_cons (p : Option Pending) (b : UInt8) (bytes : List UInt8) :
    decodeFrom p (b :: bytes) =
      (next p b.toNat).1 ++ decodeFrom (next p b.toNat).2 bytes := by
  cases p <;> rfl

theorem replacement_beyond : 128 ≤ replacement.toNat := by decide

theorem start_ascii {b : ℕ} (hb : b < 128) : start b = ([Char.ofNat b], none) :=
  if_pos (by omega)

/-- An ASCII byte gives its character and leaves no sequence open. -/
theorem next_ascii (p : Option Pending) {b : ℕ} (hb : b < 128) :
    ∃ broken, (∀ c ∈ broken, 128 ≤ c.toNat) ∧ next p b = (broken ++ [Char.ofNat b], none) := by
  cases p with
  | none => exact ⟨[], by simp, start_ascii hb⟩
  | some p =>
    have hout : ¬(p.lower ≤ b ∧ b ≤ p.upper) := by
      have := p.beyondAscii
      omega
    refine ⟨[replacement], by simp [replacement_beyond], ?_⟩
    rw [next, dif_neg hout, start_ascii hb]
    rfl

theorem start_beyond {b : ℕ} (hb : 128 ≤ b) : ∀ c ∈ (start b).1, 128 ≤ c.toNat := by
  unfold start
  rw [if_neg (by omega)]
  split_ifs <;> simp [replacement_beyond]

theorem Pending.take_beyond (p : Pending) {b : ℕ} (h : p.lower ≤ b ∧ b ≤ p.upper) :
    ∀ c ∈ (p.take b h).1, 128 ≤ c.toNat := by
  have hleads := p.leads b h.1 h.2
  unfold take
  split
  · rename_i hafter
    rw [hafter] at hleads
    intro c hc
    rw [List.mem_singleton.mp hc, hleads.toNat_ofNat]
    have := hleads.1
    omega
  · simp

/-- Any other byte gives no ASCII character. -/
theorem next_beyond (p : Option Pending) {b : ℕ} (hb : 128 ≤ b) :
    ∀ c ∈ (next p b).1, 128 ≤ c.toNat := by
  cases p with
  | none => exact start_beyond hb
  | some p =>
    rw [next]
    split_ifs with h
    · exact p.take_beyond h
    · exact List.forall_mem_cons.mpr ⟨replacement_beyond, start_beyond hb⟩

/-- An open sequence gives a character outside ASCII before anything else. -/
theorem decodeFrom_pending (p : Pending) (bytes : List UInt8) :
    ∃ c cs, decodeFrom (some p) bytes = c :: cs ∧ 128 ≤ c.toNat := by
  induction bytes generalizing p with
  | nil => exact ⟨replacement, [], rfl, replacement_beyond⟩
  | cons b bytes ih =>
    rw [decodeFrom_cons, next]
    split_ifs with h
    · have hleads := p.leads b.toNat h.1 h.2
      unfold Pending.take
      split
      · rename_i hafter
        rw [hafter] at hleads
        refine ⟨_, _, rfl, ?_⟩
        rw [hleads.toNat_ofNat]
        have := hleads.1
        omega
      · exact ih _
    · exact ⟨replacement, _, rfl, replacement_beyond⟩

/-- A byte outside ASCII gives a character outside ASCII before anything else. -/
theorem decodeFrom_beyond {b : UInt8} (hb : 128 ≤ b.toNat) (bytes : List UInt8) :
    ∃ c cs, decodeFrom none (b :: bytes) = c :: cs ∧ 128 ≤ c.toNat := by
  rw [decodeFrom_cons, next, start, if_neg (by omega)]
  split_ifs with htwo hthree hfour
  · exact decodeFrom_pending _ bytes
  · exact decodeFrom_pending _ bytes
  · exact decodeFrom_pending _ bytes
  · exact ⟨replacement, _, rfl, replacement_beyond⟩

def asciiByte (c : Char) : UInt8 := .ofNat c.toNat

theorem toNat_asciiByte {c : Char} (hc : c.toNat < 128) : (asciiByte c).toNat = c.toNat :=
  UInt8.toNat_ofNat_of_lt (hc.trans (by decide))

theorem asciiByte_eq_iff {c : Char} (hc : c.toNat < 128) {b : UInt8} :
    asciiByte c = b ↔ c = Char.ofNat b.toNat := by
  rw [← UInt8.toNat_inj, toNat_asciiByte hc, ← Char.toNat_inj]
  have hb : (Char.ofNat b.toNat).toNat = b.toNat := by
    have hvalid : b.toNat.isValidChar := Or.inl (b.toNat_lt.trans (by decide))
    rw [Char.ofNat, dif_pos hvalid]
    rfl
  rw [hb]

/-- Where no sequence is open, an ASCII text starts the decoded text where its bytes start the
input. -/
theorem prefix_decodeFrom {cs : List Char} (hcs : ∀ c ∈ cs, c.toNat < 128) {bytes : List UInt8} :
    cs <+: decodeFrom none bytes ↔ cs.map asciiByte <+: bytes := by
  induction cs generalizing bytes with
  | nil => simp
  | cons c cs ih =>
    have hc := hcs c List.mem_cons_self
    have htail (bytes : List UInt8) : cs <+: decodeFrom none bytes ↔ cs.map asciiByte <+: bytes :=
      ih fun d hd => hcs d (List.mem_cons_of_mem _ hd)
    cases bytes with
    | nil => simp [decodeFrom]
    | cons b bytes =>
      by_cases hb : b.toNat < 128
      · rw [decodeFrom_cons, next, start_ascii hb, List.singleton_append, List.map_cons,
          List.cons_prefix_cons, List.cons_prefix_cons, htail, asciiByte_eq_iff hc]
      · obtain ⟨d, ds, hdecode, hd⟩ := decodeFrom_beyond (b := b) (by omega) bytes
        have hne : c ≠ d := by
          rintro rfl
          omega
        have hne' : asciiByte c ≠ b := by
          rintro rfl
          rw [toNat_asciiByte hc] at hb
          exact hb hc
        rw [hdecode, List.map_cons, List.cons_prefix_cons, List.cons_prefix_cons]
        simp only [hne, hne', false_and]

/-- An ASCII text occurs in the decoded text where its bytes occur in the input. -/
theorem infix_decodeFrom {cs : List Char} (hcs : ∀ c ∈ cs, c.toNat < 128) (hne : cs ≠ [])
    (p : Option Pending) (bytes : List UInt8) :
    cs <:+: decodeFrom p bytes ↔ cs.map asciiByte <:+: bytes := by
  have hdisjoint (out : List Char) (hout : ∀ c ∈ out, 128 ≤ c.toNat) : ∀ c ∈ out, c ∉ cs := by
    intro c hc hmem
    have := hout c hc
    have := hcs c hmem
    omega
  have hne' : cs.map asciiByte ≠ [] := by simpa using hne
  induction bytes generalizing p with
  | nil =>
    have hempty : ¬cs.map asciiByte <:+: [] := fun h => hne' (List.infix_nil.mp h)
    have hmark : ¬cs <:+: decodeFrom p [] := by
      cases p with
      | none => exact fun h => hne (List.infix_nil.mp h)
      | some p =>
        intro h
        have hpart := (Framing.infix_append_of_disjoint [replacement] [] hne
          (hdisjoint _ (by simp [replacement_beyond]))).mp h
        exact hne (List.infix_nil.mp hpart)
    exact iff_of_false hmark hempty
  | cons b bytes ih =>
    rw [decodeFrom_cons]
    by_cases hb : b.toNat < 128
    · obtain ⟨broken, hbroken, hnext⟩ := next_ascii p hb
      have hplain : [Char.ofNat b.toNat] ++ decodeFrom none bytes =
          decodeFrom none (b :: bytes) := by
        rw [decodeFrom_cons, next, start_ascii hb]
      rw [hnext, List.append_assoc, Framing.infix_append_of_disjoint _ _ hne (hdisjoint _ hbroken),
        List.singleton_append, List.infix_cons_iff, List.infix_cons_iff, ← List.singleton_append,
        hplain, prefix_decodeFrom hcs]
      exact or_congr_right (ih none)
    · have hforeign : b ∉ cs.map asciiByte := by
        intro hmem
        obtain ⟨c, hc, rfl⟩ := List.mem_map.mp hmem
        exact hb (by rw [toNat_asciiByte (hcs c hc)]; exact hcs c hc)
      have hskip := Framing.infix_append_of_disjoint [b] bytes hne'
        (by simpa using hforeign)
      rw [Framing.infix_append_of_disjoint _ _ hne (hdisjoint _ (next_beyond p (by omega)))]
      exact (ih _).trans hskip.symm

theorem infix_dropByteOrderMark {cs : List Char} (hcs : ∀ c ∈ cs, c.toNat < 128) (hne : cs ≠ [])
    (ds : List Char) : cs <:+: dropByteOrderMark ds ↔ cs <:+: ds := by
  have hmark : byteOrderMark ∉ cs := fun h => absurd (hcs _ h) (by decide)
  cases ds with
  | nil => rfl
  | cons d ds =>
    rw [dropByteOrderMark]
    split_ifs with hd
    · rw [hd]
      have hskip := Framing.infix_append_of_disjoint [byteOrderMark] ds hne
        (by simpa using hmark)
      exact hskip.symm
    · rfl

theorem infix_decode {cs : List Char} (hcs : ∀ c ∈ cs, c.toNat < 128) (hne : cs ≠ [])
    (bytes : List UInt8) : cs <:+: decode bytes ↔ cs.map asciiByte <:+: bytes :=
  (infix_dropByteOrderMark hcs hne _).trans (infix_decodeFrom hcs hne none bytes)

end AgentExchange.Library.Utf8Lossy
