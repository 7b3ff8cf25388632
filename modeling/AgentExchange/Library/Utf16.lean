import Mathlib
import AgentExchange.Library.Framing

/-!
# UTF-16

A text of Unicode scalar values as 16-bit units: one unit for a character of the
basic plane, a surrogate pair for any other. Reading units back pairs surrogates
up and marks the ones that stand alone. What was written is read back, so the
units determine the text.
-/
namespace AgentExchange.Library.Utf16

def isHighSurrogate (u : UInt16) : Bool := 0xd800 ≤ u.toNat && u.toNat ≤ 0xdbff

def isLowSurrogate (u : UInt16) : Bool := 0xdc00 ≤ u.toNat && u.toNat ≤ 0xdfff

def encodeChar (c : Char) : List UInt16 :=
  if c.toNat < 0x10000 then [.ofNat c.toNat]
  else [.ofNat (0xd800 + (c.toNat - 0x10000) / 0x400), .ofNat (0xdc00 + (c.toNat - 0x10000) % 0x400)]

def encode (s : String) : List UInt16 := s.toList.flatMap encodeChar

/-- The characters of a sequence of units; `none` for a surrogate that stands alone. -/
def decode : List UInt16 → List (Option Char)
  | [] => []
  | [u] => [if isHighSurrogate u || isLowSurrogate u then none else some (Char.ofNat u.toNat)]
  | u :: v :: rest =>
    if isHighSurrogate u && isLowSurrogate v then
      some (Char.ofNat (0x10000 + (u.toNat - 0xd800) * 0x400 + (v.toNat - 0xdc00))) :: decode rest
    else if isHighSurrogate u || isLowSurrogate u then none :: decode (v :: rest)
    else some (Char.ofNat u.toNat) :: decode (v :: rest)

@[simp] theorem encode_append (s t : String) : encode (s ++ t) = encode s ++ encode t := by
  simp [encode]

theorem char_toNat_cases (c : Char) :
    c.toNat < 0xd800 ∨ (0xdfff < c.toNat ∧ c.toNat < 0x110000) := c.valid

theorem decode_cons_scalar {u : UInt16} (h : (isHighSurrogate u || isLowSurrogate u) = false)
    (rest : List UInt16) : decode (u :: rest) = some (Char.ofNat u.toNat) :: decode rest := by
  obtain ⟨hhigh, hlow⟩ : isHighSurrogate u = false ∧ isLowSurrogate u = false := by simpa using h
  cases rest with
  | nil => simp [decode, hhigh, hlow]
  | cons v rest => simp [decode, hhigh, hlow]

theorem decode_encodeChar (c : Char) (rest : List UInt16) :
    decode (encodeChar c ++ rest) = some c :: decode rest := by
  have hc := char_toNat_cases c
  unfold encodeChar
  split_ifs with hplane
  · have hu : (UInt16.ofNat c.toNat).toNat = c.toNat := UInt16.toNat_ofNat_of_lt (by simpa using hplane)
    rw [List.singleton_append, decode_cons_scalar, hu, Char.ofNat_toNat]
    simp only [isHighSurrogate, isLowSurrogate, hu]
    simp only [Bool.or_eq_false_iff, Bool.and_eq_false_iff, decide_eq_false_iff_not]
    omega
  · have hhigh : (UInt16.ofNat (0xd800 + (c.toNat - 0x10000) / 0x400)).toNat =
        0xd800 + (c.toNat - 0x10000) / 0x400 := UInt16.toNat_ofNat_of_lt (by simp only [UInt16.size]; omega)
    have hlow : (UInt16.ofNat (0xdc00 + (c.toNat - 0x10000) % 0x400)).toNat =
        0xdc00 + (c.toNat - 0x10000) % 0x400 := UInt16.toNat_ofNat_of_lt (by simp only [UInt16.size]; omega)
    have hpair : (isHighSurrogate (UInt16.ofNat (0xd800 + (c.toNat - 0x10000) / 0x400)) &&
        isLowSurrogate (UInt16.ofNat (0xdc00 + (c.toNat - 0x10000) % 0x400))) = true := by
      simp only [isHighSurrogate, isLowSurrogate, hhigh, hlow, Bool.and_eq_true, decide_eq_true_eq]
      omega
    rw [List.cons_append, List.singleton_append, decode, if_pos hpair, hhigh, hlow]
    have hsum : 0x10000 + (0xd800 + (c.toNat - 0x10000) / 0x400 - 0xd800) * 0x400 +
        (0xdc00 + (c.toNat - 0x10000) % 0x400 - 0xdc00) = c.toNat := by omega
    rw [hsum, Char.ofNat_toNat]

/-- What was written is read back. -/
theorem decode_encode (s : String) : decode (encode s) = s.toList.map some := by
  unfold encode
  induction s.toList with
  | nil => rfl
  | cons c rest ih => rw [List.flatMap_cons, decode_encodeChar, ih, List.map_cons]

theorem encode_injective : Function.Injective encode := by
  intro s t h
  have hdecode : s.toList.map some = t.toList.map some := by
    rw [← decode_encode, ← decode_encode, h]
  exact String.toList_inj.mp (List.map_injective_iff.mpr (Option.some_injective Char) hdecode)

theorem encode_inj {s t : String} : encode s = encode t ↔ s = t := encode_injective.eq_iff

theorem ofNat_toNat_of_not_surrogate {u : UInt16}
    (h : (isHighSurrogate u || isLowSurrogate u) = false) : (Char.ofNat u.toNat).toNat = u.toNat := by
  have hlt := u.toNat_lt
  simp only [isHighSurrogate, isLowSurrogate, Bool.or_eq_false_iff, Bool.and_eq_false_iff,
    decide_eq_false_iff_not] at h
  have hvalid : u.toNat.isValidChar := by
    simp only [Nat.isValidChar]
    omega
  rw [Char.ofNat, dif_pos hvalid]
  rfl

theorem encodeChar_scalar {u : UInt16} (h : (isHighSurrogate u || isLowSurrogate u) = false) :
    encodeChar (Char.ofNat u.toNat) = [u] := by
  have hlt := u.toNat_lt
  rw [encodeChar, ofNat_toNat_of_not_surrogate h, if_pos (by omega)]
  simp

theorem encodeChar_pair {u v : UInt16} (hu : isHighSurrogate u = true)
    (hv : isLowSurrogate v = true) :
    encodeChar (Char.ofNat (0x10000 + (u.toNat - 0xd800) * 0x400 + (v.toNat - 0xdc00))) =
      [u, v] := by
  simp only [isHighSurrogate, isLowSurrogate, Bool.and_eq_true, decide_eq_true_eq] at hu hv
  have hnat : (Char.ofNat (0x10000 + (u.toNat - 0xd800) * 0x400 + (v.toNat - 0xdc00))).toNat =
      0x10000 + (u.toNat - 0xd800) * 0x400 + (v.toNat - 0xdc00) := by
    have hvalid : (0x10000 + (u.toNat - 0xd800) * 0x400 + (v.toNat - 0xdc00)).isValidChar := by
      simp only [Nat.isValidChar]
      omega
    rw [Char.ofNat, dif_pos hvalid]
    rfl
  rw [encodeChar, hnat, if_neg (by omega)]
  have hhigh : 0xd800 + (0x10000 + (u.toNat - 0xd800) * 0x400 + (v.toNat - 0xdc00) - 0x10000) / 0x400 =
      u.toNat := by omega
  have hlow : 0xdc00 + (0x10000 + (u.toNat - 0xd800) * 0x400 + (v.toNat - 0xdc00) - 0x10000) % 0x400 =
      v.toNat := by omega
  rw [hhigh, hlow]
  simp

/-- Units without a surrogate that stands alone are those of the text they are read as. -/
theorem flatMap_encodeChar_of_decode {units : List UInt16} {chars : List Char}
    (h : decode units = chars.map some) : chars.flatMap encodeChar = units := by
  induction units using decode.induct generalizing chars with
  | case1 =>
    rw [List.map_eq_nil_iff.mp h.symm]
    rfl
  | case2 u =>
    rw [decode] at h
    split_ifs at h with hsurrogate
    · cases chars <;> simp at h
    · obtain ⟨c, rest, rfl, hc, hrest⟩ := List.map_eq_cons_iff.mp h.symm
      rw [Option.some_inj.mp hc, List.map_eq_nil_iff.mp hrest]
      simpa using encodeChar_scalar (by simpa using hsurrogate)
  | case3 u v rest hpair ih =>
    rw [decode, if_pos hpair] at h
    obtain ⟨c, chars, rfl, hc, hchars⟩ := List.map_eq_cons_iff.mp h.symm
    obtain ⟨hu, hv⟩ := Bool.and_eq_true_iff.mp hpair
    rw [List.flatMap_cons, ih hchars.symm, Option.some_inj.mp hc, encodeChar_pair hu hv]
    rfl
  | case4 u v rest hpair hsurrogate ih =>
    rw [decode, if_neg hpair, if_pos hsurrogate] at h
    cases chars <;> simp at h
  | case5 u v rest hpair hsurrogate ih =>
    rw [decode, if_neg hpair, if_neg hsurrogate] at h
    obtain ⟨c, chars, rfl, hc, hchars⟩ := List.map_eq_cons_iff.mp h.symm
    rw [List.flatMap_cons, ih hchars.symm, Option.some_inj.mp hc,
      encodeChar_scalar (by simpa using hsurrogate)]
    rfl

theorem mapM_id_eq_some {α : Type} {xs : List (Option α)} {ys : List α} :
    xs.mapM id = some ys ↔ xs = ys.map some := by
  induction xs generalizing ys with
  | nil => cases ys <;> simp
  | cons x xs ih => cases x <;> cases ys <;> simp [Option.bind_eq_some_iff, ih, and_comm]

/-- The text of a sequence of units, if every surrogate has its partner. -/
def toText (units : List UInt16) : Option String :=
  ((decode units).mapM id).map String.ofList

theorem toText_encode (s : String) : toText (encode s) = some s := by
  rw [toText, mapM_id_eq_some.mpr (decode_encode s), Option.map_some, String.ofList_toList]

theorem encode_of_toText {units : List UInt16} {s : String} (h : toText units = some s) :
    encode s = units := by
  obtain ⟨chars, hchars, rfl⟩ := Option.map_eq_some_iff.mp h
  rw [encode, String.toList_ofList]
  exact flatMap_encodeChar_of_decode (mapM_id_eq_some.mp hchars)

theorem encodeChar_ascii {c : Char} (hc : c.toNat < 128) : encodeChar c = [.ofNat c.toNat] :=
  if_pos (by omega)

theorem encodeChar_ne_nil (c : Char) : encodeChar c ≠ [] := by
  unfold encodeChar
  split_ifs <;> simp

theorem toNat_ofNat_of_ascii {c : Char} (hc : c.toNat < 128) :
    (UInt16.ofNat c.toNat).toNat = c.toNat :=
  UInt16.toNat_ofNat_of_lt (hc.trans (by decide))

theorem toNat_of_mem_encodeChar {c : Char} (hc : 128 ≤ c.toNat) {u : UInt16}
    (hu : u ∈ encodeChar c) : 128 ≤ u.toNat := by
  have hc' := char_toNat_cases c
  have hmod {n : ℕ} (hn : n < 0x10000) : (UInt16.ofNat n).toNat = n := UInt16.toNat_ofNat_of_lt hn
  unfold encodeChar at hu
  split_ifs at hu with hplane
  · obtain rfl := List.mem_singleton.mp hu
    rwa [hmod hplane]
  · rcases List.mem_pair.mp hu with rfl | rfl <;> rw [hmod (by omega)] <;> omega

theorem isPrefixOf_flatMap_encodeChar {cs ds : List Char} (hcs : ∀ c ∈ cs, c.toNat < 128) :
    (cs.flatMap encodeChar).isPrefixOf (ds.flatMap encodeChar) = cs.isPrefixOf ds := by
  induction cs generalizing ds with
  | nil => simp
  | cons c cs ih =>
    have hc : c.toNat < 128 := hcs c List.mem_cons_self
    have htail (ds : List Char) : (cs.flatMap encodeChar).isPrefixOf (ds.flatMap encodeChar) =
        cs.isPrefixOf ds := ih fun c hc => hcs c (List.mem_cons_of_mem _ hc)
    rw [List.flatMap_cons, encodeChar_ascii hc]
    cases ds with
    | nil => rfl
    | cons d ds =>
      rw [List.flatMap_cons, List.singleton_append]
      by_cases hd : d.toNat < 128
      · rw [encodeChar_ascii hd, List.singleton_append, List.isPrefixOf, List.isPrefixOf, htail]
        congr 1
        rw [Bool.eq_iff_iff, beq_iff_eq, beq_iff_eq, ← UInt16.toNat_inj, toNat_ofNat_of_ascii hc,
          toNat_ofNat_of_ascii hd, Char.toNat_inj]
      · obtain ⟨u, us, hu⟩ := List.exists_cons_of_ne_nil (encodeChar_ne_nil d)
        have hlarge : 128 ≤ u.toNat := toNat_of_mem_encodeChar (c := d) (by omega) (by simp [hu])
        have hne : UInt16.ofNat c.toNat ≠ u := by
          rintro rfl
          rw [toNat_ofNat_of_ascii hc] at hlarge
          omega
        have hne' : c ≠ d := fun h => hd (h ▸ hc)
        rw [hu, List.cons_append, List.isPrefixOf, List.isPrefixOf, beq_false_of_ne hne,
          beq_false_of_ne hne', Bool.false_and, Bool.false_and]

/-- A text of ASCII characters starts another one where its units do. -/
theorem isPrefixOf_encode {s t : String} (hs : ∀ c ∈ s.toList, c.toNat < 128) :
    (encode s).isPrefixOf (encode t) = s.toList.isPrefixOf t.toList :=
  isPrefixOf_flatMap_encodeChar hs

/-- A text of ASCII characters occurs in another one where its units do. -/
theorem infix_flatMap_encodeChar {cs ds : List Char} (hcs : ∀ c ∈ cs, c.toNat < 128)
    (hne : cs ≠ []) : cs.flatMap encodeChar <:+: ds.flatMap encodeChar ↔ cs <:+: ds := by
  have hunits : cs.flatMap encodeChar ≠ [] := by
    intro h
    obtain ⟨c, rest, rfl⟩ := List.exists_cons_of_ne_nil hne
    exact encodeChar_ne_nil c (List.append_eq_nil_iff.mp h).1
  have hsmall : ∀ u ∈ cs.flatMap encodeChar, u.toNat < 128 := by
    intro u hu
    obtain ⟨c, hc, hu⟩ := List.mem_flatMap.mp hu
    rw [encodeChar_ascii (hcs c hc), List.mem_singleton] at hu
    rw [hu, toNat_ofNat_of_ascii (hcs c hc)]
    exact hcs c hc
  have hprefix ds : cs.flatMap encodeChar <+: ds.flatMap encodeChar ↔ cs <+: ds := by
    rw [← List.isPrefixOf_iff_prefix, ← List.isPrefixOf_iff_prefix,
      isPrefixOf_flatMap_encodeChar hcs]
  induction ds with
  | nil => simp [List.infix_nil, hne, hunits]
  | cons d ds ih =>
    by_cases hd : d.toNat < 128
    · have hcons : encodeChar d ++ ds.flatMap encodeChar =
          .ofNat d.toNat :: ds.flatMap encodeChar := by
        rw [encodeChar_ascii hd, List.singleton_append]
      rw [List.flatMap_cons, hcons, List.infix_cons_iff, List.infix_cons_iff, ← hcons,
        ← List.flatMap_cons, hprefix]
      exact or_congr_right ih
    · have hforeign : ∀ u ∈ encodeChar d, u ∉ cs.flatMap encodeChar := by
        intro u hu hmem
        have := toNat_of_mem_encodeChar (by omega) hu
        have := hsmall u hmem
        omega
      have hother : d ∉ cs := fun h => hd (hcs d h)
      rw [List.flatMap_cons, Framing.infix_append_of_disjoint _ _ hunits hforeign]
      have hskip := Framing.infix_append_of_disjoint [d] ds hne
        (by simpa using hother)
      exact ih.trans hskip.symm

end AgentExchange.Library.Utf16
